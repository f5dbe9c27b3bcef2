import VerifierTrace.Analysis
import VerifierTrace.Proofs.LogLine.Parts

/-!
# VerifierTrace.Proofs.LogLine.Faulted

The column of a fault is that of its text.

The text at which the body of an instruction does not fit is an end of the line (`Action.tails_read`).
So a search for it in the line does not miss (`indexOf?_of_suffix`): it finds the first place where
the text stands, and if there is only one, that is the end of the line. Nothing is found to be
missing, and no column is made up.

* `Found`: the column at which a text is found in a line that ends with it.
* `LogLine.fault_found`: the column of a fault, and what a body that does fit leaves unread.
-/

namespace VerifierTrace

/-- The line ends with the text, which is found at a column: it stands there and nowhere before, and
if it stands at one column only, the line goes no further than it. -/
structure Found (line text : List Char) (column : Nat) : Prop where
  tail : text <:+ line
  range : column + text.length ≤ line.length
  slice : (line.drop column).take text.length = text
  first : ∀ i < column, (line.drop i).take text.length ≠ text
  sole : text ≠ [] → (∀ i j, text <+: line.drop i → text <+: line.drop j → i = j) →
    line.drop column = text

/-- An end of a text is found in it, where it first stands. -/
theorem indexOf?_of_suffix {text cs : List Char} (h : text <:+ cs) (start : Nat) :
    ∃ i, indexOf? text start cs = some (start + i) ∧ i + text.length ≤ cs.length ∧
      text <+: cs.drop i ∧ ∀ j < i, ¬ text <+: cs.drop j := by
  induction cs generalizing start with
  | nil =>
    obtain rfl := List.suffix_nil.mp h
    exact ⟨0, rfl, Nat.le_refl 0, List.prefix_refl [], fun j hj => absurd hj (Nat.not_lt_zero j)⟩
  | cons c rest ih =>
    unfold indexOf?
    by_cases hfront : text <+: c :: rest
    · rw [if_pos (List.isPrefixOf_iff_prefix.mpr hfront)]
      refine ⟨0, rfl, ?_, hfront, fun j hj => absurd hj (Nat.not_lt_zero j)⟩
      rw [Nat.zero_add]
      exact h.length_le
    · rw [if_neg fun hprefix => hfront (List.isPrefixOf_iff_prefix.mp hprefix)]
      have hrest : text <:+ rest := by
        rcases List.suffix_cons_iff.mp h with rfl | hrest
        · exact absurd (List.prefix_refl _) hfront
        · exact hrest
      obtain ⟨i, hindex, hlen, hstands, hfirst⟩ := ih hrest (start + 1)
      refine ⟨i + 1, ?_, ?_, hstands, ?_⟩
      · rw [hindex, Nat.add_assoc, Nat.add_comm 1 i]
      · rw [List.length_cons]
        omega
      · intro j hj
        cases j with
        | zero => exact hfront
        | succ j => exact hfirst j (Nat.lt_of_succ_lt_succ hj)

theorem found_of_suffix {line text : List Char} (h : text <:+ line) :
    ∃ column, indexOf? text 0 line = some column ∧ Found line text column := by
  obtain ⟨column, hindex, hrange, hstands, hfirst⟩ := indexOf?_of_suffix h 0
  rw [Nat.zero_add] at hindex
  refine ⟨column, hindex, h, hrange, (List.prefix_iff_eq_take.mp hstands).symm, ?_, ?_⟩
  · intro i hi hslice
    exact hfirst i hi (List.prefix_iff_eq_take.mpr hslice.symm)
  · intro _ hsole
    obtain ⟨front, rfl⟩ := h
    have hend : text <+: (front ++ text).drop front.length := by
      rw [List.drop_left]
    rw [hsole column front.length hstands hend, List.drop_left]

namespace LogLine

/-- A line that begins as an instruction and is not understood is told with its fault, and the column
of the fault is where its text is found at the end of the line. What the body of an instruction that
is understood leaves unread is an end of the body. -/
theorem fault_found :
    (∀ (raw : String) (idx : Int) (line : LogLine) (fault : Fault),
      read raw idx = .ok line → line.fault? = some fault →
        Analysis.readEvents idx [raw] = [.degraded fault] ∧
          ∃ column : Nat, fault.span = ⟨idx, column⟩ ∧
            Found raw.toList fault.subject.toList column) ∧
    ∀ (opcode : Opcode) (body rest : List Char) (action : Action),
      Action.read opcode body = .ok (action, rest) → rest <:+ body := by
  refine ⟨?_, ?_⟩
  · intro raw idx line fault hread hfault
    refine ⟨?_, ?_⟩
    · rw [Analysis.readEvents, hread]
      simp only [hfault, Analysis.readEvents]
      rfl
    · unfold read at hread
      split at hread
      · cases hread
      · next content hcontent =>
        cases hread
        have hpart := Content.partOf_of_read hcontent
        unfold fault? at hfault
        split at hfault
        · next f hunrecognized =>
          cases hfault
          rw [show content = .unrecognized (some f) from hunrecognized] at hpart
          obtain ⟨column, hindex, hfound⟩ := found_of_suffix (hpart f rfl)
          refine ⟨column, ?_, ?_⟩
          · simp only [BodyFault.toFault, hindex, Option.getD_some]
          · rw [BodyFault.toFault, String.toList_ofList]
            exact hfound
        · cases hfault
  · intro opcode body rest action hread
    have htails := Action.tails_read opcode body
    rw [hread] at htails
    exact htails

/-- A line whose operator is not known. -/
def puzzlingLine : String := "  7: (b7) r1 ?= 5"

/-- A body with white space and a fact behind it. -/
def trailedBody : List Char := "r1 = 5  ; R1=5".toList

theorem puzzlingLine_found : ∃ line fault action, read puzzlingLine 3 = .ok line ∧
    line.fault? = some fault ∧ fault.subject = "?= 5" ∧ fault.span = ⟨3, 13⟩ ∧
    Analysis.readEvents 3 [puzzlingLine] = [.degraded fault] ∧
    Found puzzlingLine.toList fault.subject.toList 13 ∧
    Action.read ⟨.alu64, Opcode.mov, .constant⟩ trailedBody = .ok (action, "; R1=5".toList) ∧
    "; R1=5".toList <:+ trailedBody := by
  obtain ⟨line, fault, hread, hfault, hsubject, hspan⟩ : ∃ line fault,
      read puzzlingLine 3 = .ok line ∧ line.fault? = some fault ∧ fault.subject = "?= 5" ∧
        fault.span = ⟨3, 13⟩ := ⟨_, _, rfl, rfl, by decide +kernel, by decide +kernel⟩
  obtain ⟨action, haction⟩ : ∃ action, Action.read ⟨.alu64, Opcode.mov, .constant⟩ trailedBody =
      .ok (action, "; R1=5".toList) := ⟨_, rfl⟩
  obtain ⟨hevents, column, hcolumn, hfound⟩ := fault_found.1 puzzlingLine 3 line fault hread hfault
  have hrest := fault_found.2 _ _ _ _ haction
  rw [hspan] at hcolumn
  cases hcolumn
  exact ⟨line, fault, action, hread, hfault, hsubject, hspan, hevents, hfound, haction, hrest⟩

end LogLine
end VerifierTrace
