import VerifierTrace.Proofs.Numeral.Digits
import VerifierTrace.Operand

/-!
# VerifierTrace.Proofs.Slot.Naming

What the names of slots denote.

* `Slot.stackLocation?`: the stack slot that a text names, for numerals of any length. It is what
  `Slot.location` answers whenever that answers at all (`stackLocation?_of_location`).
* `Slot.Site`: a storage location apart from its name. A stack slot is a frame and an offset; any
  other location is its name.
* `Slot.site`: the site that a name stands for in a frame.
* `Slot.Canonical`: the name is the one that `Slot.ofFrame` gives its site.

`stackLocation?_ofFrame` reads the names of stack slots back, so a frame has one canonical name for
every site (`Canonical.eq_of_site_eq`).
-/

namespace VerifierTrace
namespace Slot

def Spelling.denoted (s : Spelling) : Location where
  frame := s.frame.map Decimal.value
  offset := if s.negative then -(Decimal.value s.digits : Int) else Decimal.value s.digits

def stackLocation? (name : String) : Option Location :=
  (Spelling.ofText? name.toList).map Spelling.denoted

theorem readSigned_ok {negative : Bool} {ds : List Char} {z : Int}
    (h : Decimal.readSigned negative ds = .ok z) :
    z = if negative then -(Decimal.value ds : Int) else Decimal.value ds := by
  unfold Decimal.readSigned at h
  cases hr : Decimal.read ds with
  | error e => rw [hr] at h; cases h
  | ok n =>
    rw [hr] at h
    cases h
    rw [(Decimal.read_ok_iff.mp hr).2]

/-- Whenever the bound on numerals lets a name be read, it is read as `stackLocation?` does. -/
theorem stackLocation?_of_location {name : String} {l : Option Location}
    (h : location name = .ok l) : stackLocation? name = l := by
  unfold location at h
  unfold stackLocation?
  cases hs : Spelling.ofText? name.toList with
  | none => rw [hs] at h; cases h; rfl
  | some s =>
    obtain ⟨frame, negative, digits⟩ := s
    rw [hs] at h
    cases frame with
    | none =>
      simp only at h
      cases hz : Decimal.readSigned negative digits with
      | error e => rw [hz] at h; cases h
      | ok z =>
        rw [hz] at h
        cases h
        simp [Spelling.denoted, readSigned_ok hz]
    | some ds =>
      simp only at h
      cases hf : Decimal.read ds with
      | error e => rw [hf] at h; cases h
      | ok frame =>
        rw [hf] at h
        simp only at h
        cases hz : Decimal.readSigned negative digits with
        | error e => rw [hz] at h; cases h
        | ok z =>
          rw [hz] at h
          cases h
          simp [Spelling.denoted, readSigned_ok hz, (Decimal.read_ok_iff.mp hf).2]

/-! ## Names of stack slots -/

theorem toList_toString_int (z : Int) :
    (toString z).toList = (if z < 0 then ['-'] else []) ++ Nat.toDigits 10 z.natAbs := by
  rw [Int.toString_eq_repr, Int.repr_eq_if]
  by_cases h : 0 ≤ z
  · have hn : z.toNat = z.natAbs := by omega
    rw [if_pos h, if_neg (by omega), Nat.toList_repr, hn]
    rfl
  · have hn : (-z).toNat = z.natAbs := by omega
    rw [if_neg h, if_pos (by omega), String.toList_append, Nat.toList_repr, hn]
    rfl

/-- The sign and the digits behind `fp`; zero has a minus. -/
theorem toList_stackSuffix (offset : Int) :
    (stackSuffix offset).toList =
      (if offset ≤ 0 then ['-'] else []) ++ Nat.toDigits 10 offset.natAbs := by
  unfold stackSuffix
  by_cases h : offset = 0
  · subst h
    rfl
  · rw [if_neg h, toList_toString_int]
    by_cases hneg : offset < 0
    · rw [if_pos hneg, if_pos (by omega)]
    · rw [if_neg hneg, if_neg (by omega)]

theorem stack_eq (offset : Int) : stack offset = "fp" ++ stackSuffix offset := by
  unfold stack stackSuffix
  by_cases h : offset = 0
  · rw [if_pos h, if_pos h]
    rfl
  · rw [if_neg h, if_neg h]

theorem minus_append_toDigits (offset : Int) :
    Spelling.minus ((if offset ≤ 0 then ['-'] else []) ++ Nat.toDigits 10 offset.natAbs) =
      (decide (offset ≤ 0), Nat.toDigits 10 offset.natAbs) := by
  by_cases h : offset ≤ 0
  · simp [h, Spelling.minus]
  · rw [if_neg h, List.nil_append, decide_eq_false h]
    -- the first digit is no minus
    cases hd : Nat.toDigits 10 offset.natAbs with
    | nil => exact absurd hd Nat.toDigits_ne_nil
    | cons c cs =>
      have hc : c.isDigit = true := Decimal.isDigit_of_mem_toDigits c (by rw [hd]; simp)
      unfold Spelling.minus
      split
      · next hcons => cases hcons; simp at hc
      · rfl

theorem ofOffset?_stackSuffix (frame : Option (List Char)) (offset : Int) :
    Spelling.ofOffset? frame (stackSuffix offset).toList =
      some ⟨frame, decide (offset ≤ 0), Nat.toDigits 10 offset.natAbs⟩ := by
  rw [toList_stackSuffix]
  unfold Spelling.ofOffset?
  rw [minus_append_toDigits]
  simp only [Decimal.run?_toDigits]
  simp

theorem denoted_offset (frame : Option (List Char)) (offset : Int) :
    Spelling.denoted ⟨frame, decide (offset ≤ 0), Nat.toDigits 10 offset.natAbs⟩ =
      ⟨frame.map Decimal.value, offset⟩ := by
  simp only [Spelling.denoted, Decimal.value_toDigits, decide_eq_true_eq, Location.mk.injEq,
    true_and]
  split <;> omega

theorem frame?_stackSuffix (offset : Int) :
    Spelling.frame? (stackSuffix offset).toList = none := by
  rw [toList_stackSuffix]
  by_cases h : offset ≤ 0
  · rw [if_pos h]
    rfl
  · rw [if_neg h, List.nil_append]
    cases hd : Nat.toDigits 10 offset.natAbs with
    | nil => exact absurd hd Nat.toDigits_ne_nil
    | cons c cs =>
      have hc : c.isDigit = true := Decimal.isDigit_of_mem_toDigits c (by rw [hd]; simp)
      unfold Spelling.frame?
      split
      · next hcons => cases hcons; simp at hc
      · rfl

theorem stackLocation?_stack (offset : Int) :
    stackLocation? (stack offset) = some ⟨none, offset⟩ := by
  unfold stackLocation?
  rw [stack_eq, String.toList_append]
  show (Spelling.ofText? ('f' :: 'p' :: (stackSuffix offset).toList)).map _ = _
  simp only [Spelling.ofText?, frame?_stackSuffix, ofOffset?_stackSuffix, Option.map_some,
    denoted_offset, Option.map_none]

theorem frame?_brackets (owner : Nat) (rest : List Char) :
    Spelling.frame? ('[' :: (Nat.toDigits 10 owner ++ ']' :: rest)) =
      some (Nat.toDigits 10 owner, rest) := by
  have hbracket : Decimal.NoDigitHead (']' :: rest) := Decimal.noDigitHead_cons rfl
  simp only [Spelling.frame?, Decimal.run?_toDigits_append hbracket]

/-- The name of a stack slot is read back as its frame, unless that is the frame at hand, and its
offset. -/
theorem stackLocation?_ofFrame (owner viewer : Nat) (offset : Int) :
    stackLocation? (ofFrame owner offset viewer) =
      some ⟨if owner = viewer then none else some owner, offset⟩ := by
  unfold ofFrame
  by_cases h : owner = viewer
  · rw [if_pos (by exact_mod_cast h), if_pos h, stackLocation?_stack]
  · rw [if_neg (by exact_mod_cast h), if_neg h]
    have hl : ("fp[" ++ toString (owner : Int) ++ "]" ++ stackSuffix offset).toList =
        'f' :: 'p' :: '[' :: (Nat.toDigits 10 owner ++ ']' :: (stackSuffix offset).toList) := by
      have hn : ¬ (owner : Int) < 0 := by omega
      simp only [String.toList_append, toList_toString_int, if_neg hn, Int.natAbs_natCast]
      simp
    unfold stackLocation?
    rw [hl]
    simp only [Spelling.ofText?, frame?_brackets, ofOffset?_stackSuffix, Option.map_some,
      denoted_offset, Decimal.value_toDigits]

theorem stackLocation?_register (r : Register) : stackLocation? r.slot = none := by
  obtain ⟨i⟩ := r
  revert i
  decide

theorem register_ne_ofFrame (r : Register) (owner viewer : Nat) (offset : Int) :
    r.slot ≠ ofFrame owner offset viewer := by
  intro h
  have hl := stackLocation?_ofFrame owner viewer offset
  rw [← h, stackLocation?_register] at hl
  cases hl

theorem stackLocation?_memory : stackLocation? memory = none := by decide

/-! ## Sites -/

/-- A storage location: a stack slot, or whatever else has a name. -/
inductive Site where
  | named (name : Slot)
  | stack (owner : Nat) (offset : Int)
  deriving DecidableEq, Repr

/-- The site that a name stands for in a frame. -/
def site (viewer : Nat) (name : Slot) : Site :=
  match stackLocation? name with
  | none => .named name
  | some l => .stack (l.frame.getD viewer) l.offset

/-- The name is the one name that its site has in a frame. -/
def Canonical (viewer : Nat) (name : Slot) : Prop :=
  ∀ l, stackLocation? name = some l → name = ofFrame (l.frame.getD viewer : Nat) l.offset viewer

theorem site_of_none {viewer : Nat} {name : Slot} (h : stackLocation? name = none) :
    site viewer name = .named name := by
  rw [site, h]

theorem site_of_some {viewer : Nat} {name : Slot} {l : Location}
    (h : stackLocation? name = some l) :
    site viewer name = .stack (l.frame.getD viewer) l.offset := by
  rw [site, h]

@[simp] theorem site_ofFrame (owner viewer : Nat) (offset : Int) :
    site viewer (ofFrame owner offset viewer) = .stack owner offset := by
  rw [site_of_some (stackLocation?_ofFrame owner viewer offset)]
  by_cases h : owner = viewer
  · simp [h]
  · simp [h]

theorem canonical_ofFrame (owner viewer : Nat) (offset : Int) :
    Canonical viewer (ofFrame owner offset viewer) := by
  intro l hl
  rw [stackLocation?_ofFrame] at hl
  cases hl
  by_cases h : owner = viewer
  · simp [h]
  · simp [h]

theorem canonical_of_none {viewer : Nat} {name : Slot} (h : stackLocation? name = none) :
    Canonical viewer name := by
  intro l hl
  rw [h] at hl
  cases hl

theorem ofFrame_self (viewer : Nat) (offset : Int) :
    ofFrame viewer offset viewer = stack offset := by
  rw [ofFrame, if_pos rfl]

theorem canonical_stack (viewer : Nat) (offset : Int) : Canonical viewer (stack offset) := by
  rw [← ofFrame_self viewer]
  exact canonical_ofFrame viewer viewer offset

theorem Canonical.eq_of_site_eq {viewer : Nat} {s t : Slot} (hs : Canonical viewer s)
    (ht : Canonical viewer t) (h : site viewer s = site viewer t) : s = t := by
  unfold site at h
  cases hls : stackLocation? s with
  | none =>
    cases hlt : stackLocation? t with
    | none => rw [hls, hlt] at h; cases h; rfl
    | some l => rw [hls, hlt] at h; cases h
  | some l =>
    cases hlt : stackLocation? t with
    | none => rw [hls, hlt] at h; cases h
    | some l' =>
      rw [hls, hlt] at h
      simp only [Site.stack.injEq] at h
      rw [hs l hls, ht l' hlt, h.1, h.2]

theorem Canonical.eq_ofFrame {viewer : Nat} {s : Slot} (hs : Canonical viewer s) {owner : Nat}
    {offset : Int} (h : site viewer s = .stack owner offset) : s = ofFrame owner offset viewer :=
  hs.eq_of_site_eq (canonical_ofFrame owner viewer offset)
    (h.trans (site_ofFrame owner viewer offset).symm)

end Slot
end VerifierTrace
