import VerifierTrace.Proofs.Numeral.Written
import VerifierTrace.Proofs.Text.Blank
import VerifierTrace.StateExpr

/-!
# VerifierTrace.Proofs.Slot.Normal

Names of slots in normal form.

* `Slot.isNormalChar`: characters of ASCII that are no white space, no `=` and no capital.
* `Slot.Normal`: a name of such characters other than `fp0`.
* `Slot.Proper`: a normal name, or that of all memory behind other pointers.

The slot that a printed key of ASCII stands for is normal (`normal_ofKey`), and so are registers and
stack slots (`normal_register`, `normal_ofFrame`). A normal name is the slot that it stands for as a
key, unless it ends with the mark `_w` (`Normal.ofKey_eq`).
-/

namespace VerifierTrace

namespace Text

def Ascii (cs : List Char) : Prop := ∀ c ∈ cs, c.toNat < 0x80

instance (cs : List Char) : Decidable (Ascii cs) := List.decidableBAll _ cs

theorem Ascii.of_infix {part cs : List Char} (h : Ascii cs) (hpart : part <:+: cs) : Ascii part :=
  fun c hc => h c (hpart.subset hc)

theorem Lower.go_of_ascii (before : List Char) {cs : List Char} (h : Ascii cs) :
    go before cs = cs.map Char.toLower := by
  fun_induction go before cs with
  | case1 => rfl
  | case2 before rest ih => exact absurd (h _ List.mem_cons_self) (by decide)
  | case3 before rest ih => exact absurd (h _ List.mem_cons_self) (by decide)
  | case4 before c rest _ _ ih =>
    obtain ⟨hc, hrest⟩ := List.forall_mem_cons.mp h
    rw [ih hrest, List.map_cons, ofChar, if_pos hc]

theorem lower_of_ascii {cs : List Char} (h : Ascii cs) : lower cs = cs.map Char.toLower :=
  Lower.go_of_ascii [] h

end Text

namespace Slot

/-- Characters of ASCII that names of slots have: no white space, no `=` and no capitals. -/
def isNormalChar (c : Char) : Bool :=
  decide (c.toNat < 0x80) && !Text.isBlank c && c ≠ '=' && !c.isUpper

theorem isNormalChar_iff {c : Char} : isNormalChar c = true ↔
    c.toNat < 0x80 ∧ Text.isBlank c = false ∧ c ≠ '=' ∧ c.isUpper = false := by
  simp [isNormalChar, and_assoc]

/-- What holds of the characters of ASCII one by one holds of any. -/
theorem forall_ascii {P : Char → Prop} (h : ∀ i < 0x80, P (Char.ofNat i)) {c : Char}
    (hc : c.toNat < 0x80) : P c := by
  have hi := h c.toNat hc
  rwa [Char.ofNat_toNat] at hi

theorem isNormalChar_toLower {c : Char} (hc : c.toNat < 0x80)
    (hkey : StateExpr.isKeyChar c = true) : isNormalChar c.toLower = true := by
  have h : StateExpr.isKeyChar c = true → isNormalChar c.toLower = true :=
    forall_ascii (P := fun c => StateExpr.isKeyChar c = true → isNormalChar c.toLower = true)
      (by decide +kernel) hc
  exact h hkey

theorem toLower_of_isNormalChar {c : Char} (h : isNormalChar c = true) : c.toLower = c := by
  have hall : isNormalChar c = true → c.toLower = c :=
    forall_ascii (P := fun c => isNormalChar c = true → c.toLower = c) (by decide +kernel)
      (isNormalChar_iff.mp h).1
  exact hall h

theorem isNormalChar_of_numeral {c : Char} (hlow : 45 ≤ c.toNat) (hhigh : c.toNat ≤ 57) :
    isNormalChar c = true := by
  have hall : 45 ≤ c.toNat → c.toNat ≤ 57 → isNormalChar c = true :=
    forall_ascii (P := fun c => 45 ≤ c.toNat → c.toNat ≤ 57 → isNormalChar c = true)
      (by decide +kernel) (by omega)
  exact hall hlow hhigh

def NormalText (cs : List Char) : Prop := ∀ c ∈ cs, isNormalChar c = true

instance (cs : List Char) : Decidable (NormalText cs) := List.decidableBAll _ cs

namespace NormalText

variable {cs ds : List Char}

theorem append (hcs : NormalText cs) (hds : NormalText ds) : NormalText (cs ++ ds) :=
  List.forall_mem_append.mpr ⟨hcs, hds⟩

theorem cons {c : Char} (hc : isNormalChar c = true) (h : NormalText cs) : NormalText (c :: cs) :=
  List.forall_mem_cons.mpr ⟨hc, h⟩

theorem ascii (h : NormalText cs) : Text.Ascii cs := fun c hc => (isNormalChar_iff.mp (h c hc)).1

theorem lower_eq (h : NormalText cs) : Text.lower cs = cs := by
  rw [Text.lower_of_ascii h.ascii]
  exact (List.map_congr_left fun c hc => toLower_of_isNormalChar (h c hc)).trans (List.map_id cs)

end NormalText

theorem normalText_toString (z : Int) : NormalText (toString z).toList := by
  intro c hc
  obtain ⟨hlow, hhigh⟩ := Text.toNat_of_mem_toString hc
  exact isNormalChar_of_numeral hlow hhigh

theorem normalText_lower {key : List Char} (hascii : Text.Ascii key)
    (hkey : ∀ c ∈ key, StateExpr.isKeyChar c = true) : NormalText (Text.lower key) := by
  rw [Text.lower_of_ascii hascii]
  refine List.forall_mem_map.mpr fun c hc => ?_
  exact isNormalChar_toLower (hascii c hc) (hkey c hc)

/-! ## Names -/

/-- The name has characters of normal names only, and is not the second spelling of the stack
base. -/
structure Normal (name : Slot) : Prop where
  text : NormalText name.toList
  ne_zero : name ≠ "fp0"

instance (name : Slot) : Decidable (Normal name) :=
  decidable_of_iff (NormalText name.toList ∧ name ≠ "fp0")
    ⟨fun h => ⟨h.1, h.2⟩, fun h => ⟨h.text, h.ne_zero⟩⟩

theorem canonical_ne_zero (name : String) : canonical name ≠ "fp0" := by
  unfold canonical
  split
  · decide
  · next h => exact h

theorem canonical_of_ne {name : String} (h : name ≠ "fp0") : canonical name = name := if_neg h

theorem normal_canonical {name : String} (h : NormalText name.toList) : Normal (canonical name) := by
  refine ⟨?_, canonical_ne_zero name⟩
  unfold canonical
  split
  · decide
  · exact h

theorem dropWritten_append (key : List Char) : dropWritten (key ++ ['_', 'w']) = key := by
  have hsuffix : ['_', 'w'].isSuffixOf (key ++ ['_', 'w']) = true :=
    List.isSuffixOf_iff_suffix.mpr (List.suffix_append _ _)
  rw [dropWritten, if_pos hsuffix, List.length_append]
  exact List.take_left' (by simp)

theorem dropWritten_isPrefix (key : List Char) : dropWritten key <+: key := by
  unfold dropWritten
  split
  · exact List.take_prefix _ _
  · exact List.prefix_refl key

theorem ofKey_append_written {key : String} (h : NormalText key.toList) :
    ofKey (key ++ "_w") = canonical key := by
  have hlist : (key ++ "_w").toList = key.toList ++ ['_', 'w'] := String.toList_append
  rw [ofKey, hlist, dropWritten_append, h.lower_eq, String.ofList_toList]

theorem ofKey_eq_canonical {key : String} (h : NormalText key.toList)
    (hwritten : ['_', 'w'].isSuffixOf key.toList = false) : ofKey key = canonical key := by
  rw [ofKey, dropWritten, hwritten, if_neg Bool.false_ne_true, h.lower_eq, String.ofList_toList]

theorem normal_ofKey {key : String} (hascii : Text.Ascii key.toList)
    (hkey : ∀ c ∈ key.toList, StateExpr.isKeyChar c = true) : Normal (ofKey key) := by
  have hpart := (dropWritten_isPrefix key.toList).isInfix
  refine normal_canonical ?_
  rw [String.toList_ofList]
  exact normalText_lower (hascii.of_infix hpart) fun c hc => hkey c (hpart.subset hc)

theorem normal_register (r : Register) : Normal r.slot := by
  obtain ⟨i⟩ := r
  revert i
  decide

theorem normalText_stackSuffix (offset : Int) : NormalText (stackSuffix offset).toList := by
  unfold stackSuffix
  split
  · decide
  · exact normalText_toString offset

theorem stackLocation?_zero : stackLocation? "fp0" = some ⟨none, 0⟩ := by decide

theorem stack_ne_zero (offset : Int) : stack offset ≠ "fp0" := by
  intro h
  have hoffset := stackLocation?_stack offset
  rw [h, stackLocation?_zero] at hoffset
  cases hoffset
  exact absurd h (by decide)

theorem normal_stack (offset : Int) : Normal (stack offset) := by
  refine ⟨?_, stack_ne_zero offset⟩
  rw [stack_eq, String.toList_append]
  exact .append (by decide) (normalText_stackSuffix offset)

theorem normal_ofFrame (owner viewer : Nat) (offset : Int) :
    Normal (ofFrame owner offset viewer) := by
  unfold ofFrame
  split
  · exact normal_stack offset
  · next h =>
    refine ⟨?_, fun hzero => ?_⟩
    · simp only [String.toList_append]
      exact .append (.append (.append (by decide) (normalText_toString owner)) (by decide))
        (normalText_stackSuffix offset)
    · -- the third character is a bracket
      have hlist := congrArg String.toList hzero
      simp [String.toList_append] at hlist

/-! ## Slots of states -/

/-- The slot is all memory behind other pointers, or its name is normal. -/
def Proper (slot : Slot) : Prop := slot = memory ∨ Normal slot

theorem proper_of_form {f : Operand.Form} (h : f.isConstant = false) : Proper f.slot := by
  cases f with
  | register r => exact .inr (normal_register r)
  | lowerHalf r => exact .inr (normal_register r)
  | memory width base offset =>
    simp only [Operand.Form.slot]
    split
    · exact .inr (normal_stack offset)
    · exact .inl rfl
  | constant => cases h

namespace Normal

variable {slot : Slot}

theorem trim_eq (h : Normal slot) : Text.trim slot.toList = slot.toList := by
  have hblank : ∀ c ∈ slot.toList, Text.isBlank c = false :=
    fun c hc => (isNormalChar_iff.mp (h.text c hc)).2.1
  rw [Text.trim, Text.skipBlanks_of_head fun c hc => hblank c (List.mem_of_mem_head? hc),
    Text.trimEnd_of_last fun c hc => hblank c (List.mem_of_mem_getLast? hc)]

/-- A normal name is the slot that it stands for as a key. -/
theorem ofKey_eq (h : Normal slot) (hwritten : ¬ ['_', 'w'] <:+ slot.toList) :
    ofKey slot = slot := by
  rw [← List.isSuffixOf_iff_suffix, Bool.not_eq_true] at hwritten
  rw [ofKey_eq_canonical h.text hwritten, canonical_of_ne h.ne_zero]

theorem ne_of_isUpper (h : Normal slot) {name : Slot} {c : Char} (hc : c ∈ name.toList)
    (hupper : c.isUpper = true) : slot ≠ name := by
  rintro rfl
  rw [(isNormalChar_iff.mp (h.text c hc)).2.2.2] at hupper
  cases hupper

end Normal

theorem Proper.ne_constant {slot : Slot} (h : Proper slot) : slot ≠ constant := by
  rcases h with rfl | h
  · decide
  · exact h.ne_of_isUpper (c := 'I') (by decide) (by decide)

theorem Proper.ne_zero {slot : Slot} (h : Proper slot) : slot ≠ "fp0" := by
  rcases h with rfl | h
  · decide
  · exact h.ne_zero

end Slot
end VerifierTrace
