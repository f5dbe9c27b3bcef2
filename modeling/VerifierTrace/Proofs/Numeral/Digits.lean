import Mathlib.Algebra.Group.Nat.Defs
import VerifierTrace.Numeral.Decimal

/-!
# VerifierTrace.Proofs.Numeral.Digits

Strings of digits in a longer text. A text that starts with digits and goes on with something else
is cut exactly between the two, and the digits that a number is written with have its value.
-/

namespace VerifierTrace
namespace Decimal

/-- The text does not go on with a digit. -/
def NoDigitHead (cs : List Char) : Prop := ∀ c ∈ cs.head?, c.isDigit = false

theorem noDigitHead_nil : NoDigitHead [] := by
  intro c hc
  simp at hc

theorem noDigitHead_cons {c : Char} {cs : List Char} (h : c.isDigit = false) :
    NoDigitHead (c :: cs) := by
  intro d hd
  simp at hd
  subst hd
  exact h

theorem run_append {ds rest : List Char} (hds : ∀ c ∈ ds, c.isDigit = true)
    (hrest : NoDigitHead rest) : run (ds ++ rest) = (ds, rest) := by
  have hstop : rest.takeWhile Char.isDigit = [] ∧ rest.dropWhile Char.isDigit = rest := by
    cases rest with
    | nil => exact ⟨rfl, rfl⟩
    | cons c cs =>
      have hc : c.isDigit = false := hrest c rfl
      simp [hc]
  rw [run, List.takeWhile_append_of_pos hds, List.dropWhile_append_of_pos hds, hstop.1, hstop.2,
    List.append_nil]

theorem run?_append {ds rest : List Char} (hds : ∀ c ∈ ds, c.isDigit = true) (hne : ds ≠ [])
    (hrest : NoDigitHead rest) : run? (ds ++ rest) = some (ds, rest) := by
  have he : ds.isEmpty = false := by cases ds with
    | nil => exact absurd rfl hne
    | cons => rfl
  rw [run?, run_append hds hrest, he]
  rfl

theorem append_of_run? {cs ds rest : List Char} (h : run? cs = some (ds, rest)) :
    ds ++ rest = cs := by
  unfold run? at h
  split at h
  · cases h
  · cases h
    exact List.takeWhile_append_dropWhile

theorem isDigit_of_run? {cs ds rest : List Char} (h : run? cs = some (ds, rest)) :
    ∀ c ∈ ds, c.isDigit = true := by
  unfold run? at h
  split at h
  · cases h
  · cases h
    exact fun c hc => List.all_eq_true.mp List.all_takeWhile c hc

theorem isDigit_of_mem_toDigits {n : Nat} : ∀ c ∈ Nat.toDigits 10 n, c.isDigit = true := by
  intro c hc
  exact Nat.isDigit_of_mem_toDigits (by decide) (by decide) hc

/-- The digits of a number are found again in front of a text that goes on with something else. -/
theorem run?_toDigits_append {n : Nat} {rest : List Char} (hrest : NoDigitHead rest) :
    run? (Nat.toDigits 10 n ++ rest) = some (Nat.toDigits 10 n, rest) :=
  run?_append isDigit_of_mem_toDigits Nat.toDigits_ne_nil hrest

theorem run?_toDigits {n : Nat} : run? (Nat.toDigits 10 n) = some (Nat.toDigits 10 n, []) := by
  have h := run?_toDigits_append (n := n) noDigitHead_nil
  rwa [List.append_nil] at h

theorem value_toDigits (n : Nat) : value (Nat.toDigits 10 n) = n := Nat.ofDigitChars_ten_toDigits

/-- The number has no more digits than a numeral may have. -/
def Writable (z : Int) : Prop := z.natAbs < 10 ^ maxDigits

theorem writable_natCast {n : Nat} (h : n < 10 ^ maxDigits) : Writable n := by
  unfold Writable
  rw [Int.natAbs_natCast]
  exact h

theorem writable_of_le {n : Nat} (h : n ≤ maxDigits) : Writable n :=
  writable_natCast (Nat.lt_of_le_of_lt h (Nat.lt_pow_self (by decide)))

theorem writable_zero : Writable 0 := writable_of_le (Nat.zero_le maxDigits)

end Decimal
end VerifierTrace
