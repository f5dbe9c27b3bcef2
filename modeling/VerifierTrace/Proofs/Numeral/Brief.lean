import Mathlib.Data.List.Induction
import VerifierTrace.Proofs.Numeral.Digits

/-!
# VerifierTrace.Proofs.Numeral.Brief

Work on texts whose numerals are not too long.

* `Decimal.Brief n cs`: no more than `n` digits stand together in the text `cs`.
* `NumeralFault.Within n`: the fault can arise over such texts. For an `n` below the bound on
  numerals there is none (`not_within`).
* `Yields n P x`: `x` is a result of which `P` holds, or a fault within `n`.

`yields_read` and `yields_readSigned` say that of the readers of numerals, with the range of the
number. A number that was read has no more digits than its numeral, so it is written as briefly.
-/

namespace VerifierTrace
namespace Decimal

/-- The digits stand together in the text. -/
def Occurs (ds cs : List Char) : Prop := (∀ c ∈ ds, c.isDigit = true) ∧ ds <:+: cs

/-- No more than `n` digits stand together in the text. -/
def Brief (n : Nat) (cs : List Char) : Prop := ∀ ds, Occurs ds cs → ds.length ≤ n

variable {n k : Nat} {ds cs : List Char}

theorem Occurs.of_part {part : List Char} (h : Occurs ds part) (hpart : part <:+: cs) :
    Occurs ds cs := ⟨h.1, h.2.trans hpart⟩

theorem occurs_of_run? {rest : List Char} (h : run? cs = some (ds, rest)) : Occurs ds cs := by
  refine ⟨isDigit_of_run? h, ?_⟩
  rw [← append_of_run? h]
  exact (List.prefix_append ds rest).isInfix

namespace Brief

theorem mono (h : Brief n cs) (hk : n ≤ k) : Brief k cs := by
  intro ds hds
  exact Nat.le_trans (h ds hds) hk

theorem of_part {part : List Char} (h : Brief n cs) (hpart : part <:+: cs) : Brief n part := by
  intro ds hds
  exact h ds (hds.of_part hpart)

theorem of_length_le (h : cs.length ≤ n) : Brief n cs := by
  intro ds hds
  exact Nat.le_trans hds.2.length_le h

theorem nil : Brief n [] := of_length_le (Nat.zero_le n)

theorem cons_iff {c : Char} :
    Brief n (c :: cs) ↔ ((c :: cs).takeWhile Char.isDigit).length ≤ n ∧ Brief n cs := by
  constructor
  · intro h
    refine ⟨h _ ⟨?_, (List.takeWhile_prefix _).isInfix⟩, ?_⟩
    · exact List.all_eq_true.mp List.all_takeWhile
    · exact h.of_part (List.suffix_cons c cs).isInfix
  · rintro ⟨hfront, htail⟩ ds ⟨hdigits, hds⟩
    rcases List.infix_cons_iff.mp hds with ⟨rest, hrest⟩ | hds
    · rw [← hrest, List.takeWhile_append_of_pos hdigits, List.length_append] at hfront
      omega
    · exact htail ds ⟨hdigits, hds⟩

theorem cons_of_not_isDigit {c : Char} (hc : c.isDigit = false) (h : Brief n cs) :
    Brief n (c :: cs) := by
  rw [cons_iff]
  simp [hc, h]

theorem digits_append (hdigits : ∀ c ∈ ds, c.isDigit = true) (hlen : ds.length ≤ n)
    (hrest : NoDigitHead cs) (h : Brief n cs) : Brief n (ds ++ cs) := by
  induction ds with
  | nil => exact h
  | cons d ds ih =>
    rw [List.cons_append, cons_iff, ← List.cons_append]
    have hrun := congrArg Prod.fst (run_append hdigits hrest)
    simp only [run] at hrun
    rw [hrun]
    refine ⟨hlen, ih (fun c hc => hdigits c (List.mem_cons_of_mem _ hc)) ?_⟩
    rw [List.length_cons] at hlen
    omega

end Brief

/-! ## Numbers -/

theorem value_concat (ds : List Char) (c : Char) :
    value (ds ++ [c]) = 10 * value ds + (c.toNat - '0'.toNat) := by
  simp [value, Nat.ofDigitChars_append, Nat.ofDigitChars_cons]

theorem value_lt {ds : List Char} (h : ∀ c ∈ ds, c.isDigit = true) : value ds < 10 ^ ds.length := by
  induction ds using List.reverseRecOn with
  | nil => exact Nat.one_pos
  | append_singleton ds c ih =>
    have hlow := ih fun d hd => h d (List.mem_append_left _ hd)
    obtain ⟨-, hc⟩ := Char.isDigit_iff_toNat.mp (h c (by simp))
    have hnine : '9'.toNat - '0'.toNat = 9 := rfl
    have hc := Nat.sub_le_sub_right hc '0'.toNat
    rw [value_concat, List.length_append, List.length_singleton, Nat.pow_succ]
    omega

end Decimal

/-- The fault can arise over texts in which no more than `n` digits stand together. -/
def NumeralFault.Within (n : Nat) : NumeralFault → Prop
  | .unreadable digits => Decimal.maxDigits < digits ∧ digits ≤ n
  | .unwritable => Decimal.maxDigits ≤ n

theorem NumeralFault.not_within {n : Nat} (hn : n < Decimal.maxDigits) (fault : NumeralFault) :
    ¬ fault.Within n := by
  cases fault with
  | unreadable digits =>
    rintro ⟨hlow, hhigh⟩
    omega
  | unwritable =>
    intro h
    exact Nat.not_le_of_lt hn h

/-- A result with a property, or a fault within `n`. -/
def Yields {α : Type} (n : Nat) (P : α → Prop) : Except NumeralFault α → Prop
  | .ok a => P a
  | .error fault => fault.Within n

namespace Yields

variable {α : Type} {n : Nat} {P : α → Prop} {x : Except NumeralFault α}

@[simp] theorem ok_iff {a : α} : Yields n P (.ok a) ↔ P a := Iff.rfl

@[simp] theorem error_iff {fault : NumeralFault} : Yields n P (.error fault) ↔ fault.Within n :=
  Iff.rfl

theorem of_ok (h : Yields n P x) {a : α} (hx : x = .ok a) : P a := by
  rw [hx] at h
  exact h

theorem of_error (h : Yields n P x) {fault : NumeralFault} (hx : x = .error fault) :
    fault.Within n := by
  rw [hx] at h
  exact h

end Yields

namespace Decimal

variable {n k : Nat} {ds cs : List Char}

/-- Digits of a text whose numerals may be somewhat longer than `n`, but not beyond the bound. -/
theorem yields_read (hds : Occurs ds cs) (hcs : Brief k cs) (hk : k ≤ max n maxDigits) :
    Yields n (· < 10 ^ k) (read ds) := by
  have hlen := hcs ds hds
  unfold read
  split
  · exact Nat.lt_of_lt_of_le (value_lt hds.1) (Nat.pow_le_pow_right (by decide) hlen)
  · show maxDigits < ds.length ∧ ds.length ≤ n
    omega

theorem yields_readSigned (negative : Bool) (hds : Occurs ds cs) (hcs : Brief k cs)
    (hk : k ≤ max n maxDigits) :
    Yields n (fun z => z.natAbs < 10 ^ k) (readSigned negative ds) := by
  have hread := yields_read hds hcs hk
  unfold readSigned
  cases hi : read ds with
  | error fault => exact hread.of_error hi
  | ok i =>
    have hi : i < 10 ^ k := hread.of_ok hi
    cases negative with
    | false => exact hi
    | true =>
      show (-(i : Int)).natAbs < 10 ^ k
      omega

theorem natAbs_add_lt {a b : Int} (ha : a.natAbs < 10 ^ n) (hb : b.natAbs < 10 ^ n) (hk : n < k) :
    (a + b).natAbs < 10 ^ k := by
  have hpow : 10 ^ (n + 1) ≤ 10 ^ k := Nat.pow_le_pow_right (by decide) hk
  have hsum := Int.natAbs_add_le a b
  rw [Nat.pow_succ] at hpow
  omega

theorem lt_natPow_iff (i k : Nat) : i < Nat.pow 10 k ↔ i < 10 ^ k := Iff.rfl

/-- How many digits may stand together in the name of a slot. -/
def nameDigits (n : Nat) : Nat := max n maxDigits

theorem three_le_nameDigits (n : Nat) : 3 ≤ nameDigits n :=
  Nat.le_trans (by decide : 3 ≤ maxDigits) (Nat.le_max_right n maxDigits)

theorem nameDigits_pos (n : Nat) : 0 < nameDigits n := Nat.zero_lt_of_lt (three_le_nameDigits n)

theorem lt_nameDigits {i : Nat} (h : i < 10 ^ n) : i < 10 ^ nameDigits n :=
  Nat.lt_of_lt_of_le h (Nat.pow_le_pow_right (by decide) (Nat.le_max_left n maxDigits))

theorem lt_nameDigits_of_writable (n : Nat) {i : Nat} (h : i < 10 ^ maxDigits) :
    i < 10 ^ nameDigits n :=
  Nat.lt_of_lt_of_le h (Nat.pow_le_pow_right (by decide) (Nat.le_max_right n maxDigits))

theorem checkWritable_ok (n : Nat) {z w : Int} (h : checkWritable z = .ok w) :
    w.natAbs < 10 ^ nameDigits n := by
  unfold checkWritable at h
  cases Nat.decLt z.natAbs (Nat.pow 10 maxDigits) with
  | isTrue hz =>
    rw [if_pos hz] at h
    cases h
    exact lt_nameDigits_of_writable n ((lt_natPow_iff _ _).mp hz)
  | isFalse hz =>
    rw [if_neg hz] at h
    cases h

/-- A sum has at most one digit more than its terms, so it is written if these stay below the
bound. -/
theorem within_of_checkWritable {a b : Int} (ha : a.natAbs < 10 ^ n) (hb : b.natAbs < 10 ^ n)
    {fault : NumeralFault} (h : checkWritable (a + b) = .error fault) : fault.Within n := by
  unfold checkWritable at h
  cases Nat.decLt (a + b).natAbs (Nat.pow 10 maxDigits) with
  | isTrue hz =>
    rw [if_pos hz] at h
    cases h
  | isFalse hz =>
    rw [if_neg hz] at h
    rw [lt_natPow_iff] at hz
    cases h
    exact Nat.not_lt.mp fun hn => hz (natAbs_add_lt ha hb hn)

end Decimal
end VerifierTrace
