import VerifierTrace.Proofs.Provenance.Walk

/-!
# VerifierTrace.Proofs.Provenance.Bounded

The trace through a history of which nothing is assumed.

Writers may be any numbers, also of lines that do not exist, that lie ahead or that hold no
instruction, effects may be any, and states may be missing or left over. Still every look-up of the
trace finds what it looks up, because its range is checked first; and the trace ends, because it
comes to few places and to none of them twice.

* `member?`: a look-up that can fail, `checked?`: one behind a check of its range.
* `link?`, `retarget?`: the trace with such look-ups; none of them fails (`link?_eq`,
  `retarget?_eq`).
* `Walks`: the trace with no bound on its steps. There is at most one (`Walks.unique`), and there is
  one within the bound (`walks_walk`).
* `Bounded`: what a trace comes to; `trace_bounded` shows it of every history.
-/

namespace VerifierTrace
namespace History

/-! ## Look-ups -/

/-- A member of a list, counted from its end if the index is negative; `none` if there is none. -/
def member? {α : Type} (xs : List α) (idx : Int) : Option α :=
  at? xs (if idx < 0 then idx + xs.length else idx)

/-- A look-up behind a check of its range. The result is `some none` if the check fails, and `none`
if an index passes the check that has no member. -/
def checked? {α : Type} (xs : List α) (idx : Int) : Option (Option α) :=
  if 0 ≤ idx ∧ idx < xs.length then (member? xs idx).map some else some none

theorem checked?_eq {α : Type} (xs : List α) (idx : Int) : checked? xs idx = some (at? xs idx) := by
  unfold checked?
  split
  · next hrange =>
    obtain ⟨i, rfl⟩ := Int.eq_ofNat_of_zero_le hrange.1
    have hi : i < xs.length := by exact_mod_cast hrange.2
    have hget : xs[i]? = some xs[i] := List.getElem?_eq_getElem hi
    rw [member?, if_neg (by omega), at?_natCast, hget]
    rfl
  · next hrange =>
    unfold at?
    split
    · rw [List.getElem?_eq_none (by omega)]
    · rfl

def instructionChecked? (h : History) (idx : Int) : Option (Option Instruction) := do
  let line ← checked? h.lines idx
  return line.bind LogLine.instruction?

/-- `linkBefore` by look-ups that can fail. -/
def linkBefore? (h : History) (idx : Int) (slot : Slot) : Option (Option Link) := do
  let some before ← checked? h.states (idx - 1) | return none
  let some prior := before.writerOf? slot | return none
  let some _ ← h.instructionChecked? prior | return none
  return some ⟨prior, some (prior, slot)⟩

/-- `link` by look-ups that can fail. -/
def link? (h : History) : Place → Option (Option Link)
  | (idx, slot) => do
    let some _ ← h.instructionChecked? idx | return none
    let some state ← checked? h.states idx | return none
    let some cell := state.values.get? slot | return none
    let some writer := state.writerOf? slot | return none
    let some ins ← h.instructionChecked? writer | return none
    if writer = idx ∧ cell.effect = .update then h.linkBefore? idx slot
    else return some ⟨writer, ins.soleRead?.map fun source => (writer, source)⟩

/-- `retarget` by look-ups that can fail. -/
def retarget? (h : History) (idx : Int) (slot : Slot) : Option Slot := do
  let some ins ← h.instructionChecked? idx | return slot
  return if slot ∈ ins.writes ∧ slot ∉ ins.reads then ins.soleRead?.getD slot else slot

variable {h : History}

theorem instructionChecked?_eq (h : History) (idx : Int) :
    h.instructionChecked? idx = some (h.instructionAt? idx) := by
  simp only [instructionChecked?, checked?_eq, Option.bind_eq_bind, Option.bind_some,
    Option.pure_def, instructionAt?]

theorem linkBefore?_eq (h : History) (idx : Int) (slot : Slot) :
    h.linkBefore? idx slot = some (h.linkBefore idx slot) := by
  simp only [linkBefore?, linkBefore, checked?_eq, instructionChecked?_eq, stateAt?,
    Option.bind_eq_bind, Option.bind_some, Option.pure_def]
  cases at? h.states (idx - 1) with
  | none => rfl
  | some before =>
    simp only [Option.bind_some]
    cases before.writerOf? slot with
    | none => rfl
    | some prior =>
      simp only [Option.bind_some]
      cases h.instructionAt? prior <;> rfl

theorem link?_eq (h : History) (place : Place) : h.link? place = some (h.link place) := by
  obtain ⟨idx, slot⟩ := place
  simp only [link?, link, checked?_eq, instructionChecked?_eq, linkBefore?_eq, stateAt?,
    Option.bind_eq_bind, Option.bind_some, Option.pure_def]
  cases h.instructionAt? idx with
  | none => rfl
  | some here =>
    simp only [Option.bind_some]
    cases at? h.states idx with
    | none => rfl
    | some state =>
      simp only [Option.bind_some]
      cases state.values.get? slot with
      | none => rfl
      | some cell =>
        simp only [Option.bind_some]
        cases state.writerOf? slot with
        | none => rfl
        | some writer =>
          simp only [Option.bind_some]
          cases h.instructionAt? writer with
          | none => rfl
          | some ins =>
            simp only [Option.bind_some]
            split <;> rfl

theorem retarget?_eq (h : History) (idx : Int) (slot : Slot) :
    h.retarget? idx slot = some (h.retarget idx slot) := by
  simp only [retarget?, retarget, instructionChecked?_eq, Option.bind_eq_bind, Option.bind_some,
    Option.pure_def]
  cases h.instructionAt? idx <;> rfl

/-! ## The trace without a bound -/

/-- The trace from a place, given the places visited before: how many steps it takes, and the lines
that they report. A look-up that fails would leave the trace without an end. -/
inductive Walks (h : History) : List Place → Place → Nat → List Int → Prop where
  | again {visited : List Place} {place : Place} : place ∈ visited → Walks h visited place 0 []
  | nothing {visited : List Place} {place : Place} : place ∉ visited →
      h.link? place = some none → Walks h visited place 1 []
  | origin {visited : List Place} {place : Place} {line : Int} : place ∉ visited →
      h.link? place = some (some ⟨line, none⟩) → Walks h visited place 1 [line]
  | copy {visited : List Place} {place next : Place} {line : Int} {steps : Nat} {lines : List Int} :
      place ∉ visited → h.link? place = some (some ⟨line, some next⟩) →
      Walks h (place :: visited) next steps lines →
        Walks h visited place (steps + 1) (line :: lines)

theorem Walks.unique {visited : List Place} {place : Place} {m n : Nat} {ks ls : List Int}
    (hk : h.Walks visited place m ks) (hl : h.Walks visited place n ls) : m = n ∧ ks = ls := by
  induction hk generalizing n ls with
  | again hmem =>
    cases hl with
    | again _ => exact ⟨rfl, rfl⟩
    | nothing hnew | origin hnew | copy hnew => exact absurd hmem hnew
  | nothing hnew hlink =>
    cases hl with
    | again hmem => exact absurd hmem hnew
    | nothing _ _ => exact ⟨rfl, rfl⟩
    | origin _ hlink' | copy _ hlink' => rw [hlink] at hlink'; cases hlink'
  | origin hnew hlink =>
    cases hl with
    | again hmem => exact absurd hmem hnew
    | nothing _ hlink' | copy _ hlink' => rw [hlink] at hlink'; cases hlink'
    | origin _ hlink' => rw [hlink] at hlink'; cases hlink'; exact ⟨rfl, rfl⟩
  | copy hnew hlink _ ih =>
    cases hl with
    | again hmem => exact absurd hmem hnew
    | nothing _ hlink' | origin _ hlink' => rw [hlink] at hlink'; cases hlink'
    | copy _ hlink' hmore =>
      rw [hlink] at hlink'
      cases hlink'
      obtain ⟨rfl, rfl⟩ := ih hmore
      exact ⟨rfl, rfl⟩

/-- With a step for every place that is left, the bounded trace is the one without a bound. -/
theorem walks_walk {start : Place} {fuel : Nat} {visited : List Place} {place : Place}
    (hn : visited.Nodup) (hv : visited ⊆ h.places start) (hp : place ∈ h.places start)
    (hfuel : h.bound ≤ fuel + visited.length) :
    ∃ steps ≤ fuel, h.Walks visited place steps (h.walk fuel visited place) := by
  induction fuel generalizing visited place with
  | zero => exact ⟨0, Nat.le_refl 0, .again (mem_of_bound_le hn hv hp (by omega))⟩
  | succ fuel ih =>
    unfold walk
    by_cases hmem : place ∈ visited
    · rw [if_pos hmem]
      exact ⟨0, Nat.zero_le _, .again hmem⟩
    · rw [if_neg hmem]
      have hlooked := link?_eq h place
      cases hlink : h.link place with
      | none => exact ⟨1, by omega, .nothing hmem (hlooked.trans (congrArg some hlink))⟩
      | some l =>
        obtain ⟨line, next⟩ := l
        cases next with
        | none => exact ⟨1, by omega, .origin hmem (hlooked.trans (congrArg some hlink))⟩
        | some next =>
          obtain ⟨steps, hsteps, hmore⟩ := ih (List.nodup_cons.mpr ⟨hmem, hn⟩)
            (List.cons_subset.mpr ⟨hp, hv⟩) (mem_places_of_link hp hlink)
            (by rw [List.length_cons]; omega)
          exact ⟨steps + 1, by omega, .copy hmem (hlooked.trans (congrArg some hlink)) hmore⟩

/-! ## What a trace comes to -/

/-- The trace from a place ends, after one step and at most one more for each pair of a line and one
of the slots at hand: the one that it starts with, and those that instructions read. It gives
`reported`, and all of that are lines with instructions. -/
structure Bounded (h : History) (place : Place) (reported : List Int) : Prop where
  ends : ∃ steps lines, h.Walks [] place steps lines
  steps : ∀ steps lines, h.Walks [] place steps lines →
    steps ≤ 1 + h.lines.length * (h.slotsRead.length + 1)
  lines : ∀ steps lines, h.Walks [] place steps lines → reported = firstOnes lines
  instructions : ∀ d ∈ reported, ∃ (i : Nat) (line : LogLine), d = i ∧ h.lines[i]? = some line ∧
    line.isInstruction = true

theorem bounded_dependencies (h : History) (idx : Int) (slot : Slot) :
    h.Bounded (idx, slot) (h.dependencies idx slot) := by
  obtain ⟨steps, hsteps, hwalk⟩ := walks_walk (h := h) List.nodup_nil
    (List.nil_subset (h.places (idx, slot))) (mem_places.mpr (.inl rfl)) (Nat.le_refl _)
  refine ⟨⟨steps, _, hwalk⟩, ?_, ?_, ?_⟩
  · intro n lines hlines
    rw [(hlines.unique hwalk).1]
    exact hsteps
  · intro n lines hlines
    rw [(hlines.unique hwalk).2]
    rfl
  · intro d hd
    obtain ⟨place, next, -, hlink⟩ := link_of_mem_walk (P := fun _ => True)
      (fun _ _ _ _ _ => trivial) trivial ((mem_firstOnes _ _).mp hd)
    obtain ⟨ins, hins, -⟩ := link_cases hlink
    obtain ⟨i, line, hi, hline, hl⟩ := instructionAt?_eq_some hins
    exact ⟨i, line, hi, hline, by rw [LogLine.isInstruction, hl]; rfl⟩

/-- On any history the trace of a slot comes to an end within the bound, and so does the trace of a
selection. No look-up of theirs fails, and they report lines with instructions only. -/
theorem trace_bounded (h : History) (idx : Int) (slot : Slot) :
    h.Bounded (idx, slot) (h.dependencies idx slot) ∧
      h.retarget? idx slot = some (h.retarget idx slot) ∧
      h.Bounded (idx, h.retarget idx slot) (h.selection idx slot) :=
  ⟨bounded_dependencies h idx slot, retarget?_eq h idx slot, bounded_dependencies h idx _⟩

end History
end VerifierTrace
