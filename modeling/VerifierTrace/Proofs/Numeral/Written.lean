import VerifierTrace.Numeral.Spelling
import VerifierTrace.Proofs.Slot.Naming

/-!
# VerifierTrace.Proofs.Numeral.Written

Numbers as they are written.

A number is written with decimal digits of ASCII and a minus, so it stays what it is among characters
that are printed, and `Numeral.decimal?` takes it back from its text unless it has too many digits
(`Numeral.decimal?_toString`).
-/

namespace VerifierTrace

namespace Text

/-- The characters of ASCII that print, the space among them. -/
def isPrintableAscii (c : Char) : Bool := 32 ≤ c.toNat && c.toNat ≤ 126

theorem isPrintableAscii_iff {c : Char} :
    isPrintableAscii c = true ↔ 32 ≤ c.toNat ∧ c.toNat ≤ 126 := by
  simp [isPrintableAscii]

theorem toString_ne_nil (z : Int) : (toString z).toList ≠ [] := by
  rw [Slot.toList_toString_int]
  exact List.append_ne_nil_of_right_ne_nil _ Nat.toDigits_ne_nil

theorem toNat_of_mem_toString {z : Int} {c : Char} (h : c ∈ (toString z).toList) :
    45 ≤ c.toNat ∧ c.toNat ≤ 57 := by
  rw [Slot.toList_toString_int] at h
  rcases List.mem_append.mp h with h | h
  · split at h
    · rw [List.mem_singleton.mp h]
      decide
    · cases h
  · obtain ⟨hlow, hhigh⟩ := Char.isDigit_iff_toNat.mp (Decimal.isDigit_of_mem_toDigits c h)
    exact ⟨Nat.le_trans (by decide) hlow, Nat.le_trans hhigh (by decide)⟩

theorem isPrintableAscii_of_mem_toString {z : Int} {c : Char} (h : c ∈ (toString z).toList) :
    isPrintableAscii c = true := by
  obtain ⟨hlow, hhigh⟩ := toNat_of_mem_toString h
  rw [isPrintableAscii_iff]
  omega

end Text

namespace Numeral

theorem decimalDigit?_of_isDigit {c : Char} (h : c.isDigit = true) :
    decimalDigit? c = some (c.toNat - '0'.toNat) := by
  obtain ⟨hlow, hhigh⟩ := Char.isDigit_iff_toNat.mp h
  have hzero : (decide (0x30 ≤ c.toNat) && decide (c.toNat < 0x30 + 10)) = true := by
    simp only [Bool.and_eq_true, decide_eq_true_eq]
    exact ⟨hlow, Nat.lt_succ_of_le hhigh⟩
  rw [decimalDigit?, zeros, List.find?_cons, hzero]
  rfl

theorem digits?_of_isDigit {ds : List Char} (hne : ds ≠ []) (h : ∀ c ∈ ds, c.isDigit = true) :
    digits? decimalDigit? ds = some (ds.map fun c => c.toNat - '0'.toNat) := by
  fun_induction digits? decimalDigit? ds with
  | case1 => exact absurd rfl hne
  | case2 c => rw [decimalDigit?_of_isDigit (h c (by simp))]; rfl
  | case3 c rest ih => exact absurd (h '_' (by simp)) (by decide)
  | case4 c rest hlong _ ih =>
    have hrest := ih hlong fun d hd => h d (List.mem_cons_of_mem c hd)
    rw [decimalDigit?_of_isDigit (h c (by simp)), hrest]
    rfl

theorem ofDigits_map_isDigit (ds : List Char) :
    ofDigits 10 (ds.map fun c => c.toNat - '0'.toNat) = Decimal.value ds := by
  rw [ofDigits, List.foldl_map, Decimal.value, Nat.ofDigitChars]
  congr 1
  funext n c
  rw [Nat.mul_comm]

theorem body_of_not_isMargin {cs : List Char} (h : ∀ c ∈ cs, isMargin c = false) : body cs = cs := by
  have hdrop : ∀ ds : List Char, (∀ c ∈ ds, isMargin c = false) → ds.dropWhile isMargin = ds := by
    intro ds hds
    cases ds with
    | nil => rfl
    | cons c ds => rw [List.dropWhile_cons, hds c (by simp)]; rfl
  rw [body, hdrop cs h, hdrop cs.reverse fun c hc => h c (List.mem_reverse.mp hc),
    List.reverse_reverse]

theorem isMargin_of_toNat {c : Char} (hlow : 32 < c.toNat) (hhigh : c.toNat < 128) :
    isMargin c = false := by
  have hblank : Text.isBlank c = false := by
    simp only [Text.isBlank, Bool.or_eq_false_iff, Bool.and_eq_false_iff, decide_eq_false_iff_not,
      beq_eq_false_iff_ne]
    omega
  rw [isMargin, hblank, Bool.false_and]

theorem isMargin_of_mem_toString {z : Int} {c : Char} (h : c ∈ (toString z).toList) :
    isMargin c = false := by
  obtain ⟨hlow, hhigh⟩ := Text.toNat_of_mem_toString h
  exact isMargin_of_toNat (by omega) (by omega)

/-- A number that can be written is what its text spells. -/
theorem decimal?_toString {z : Int} (hz : Decimal.Writable z) :
    decimal? (toString z).toList = some z := by
  have hdigits : ∀ c ∈ Nat.toDigits 10 z.natAbs, c.isDigit = true := Decimal.isDigit_of_mem_toDigits
  have hlen : (Nat.toDigits 10 z.natAbs).length ≤ Decimal.maxDigits :=
    (Nat.length_toDigits_le_iff (by decide) (by decide)).mpr hz
  have hsign : sign (toString z).toList = (decide (z < 0), Nat.toDigits 10 z.natAbs) := by
    rw [Slot.toList_toString_int]
    split
    · next hneg => simp [sign, hneg]
    · next hneg =>
      rw [List.nil_append]
      unfold sign
      split
      · next heq => exact absurd (hdigits '-' (by simp [heq])) (by decide)
      · next heq => exact absurd (hdigits '+' (by simp [heq])) (by decide)
      · simp [hneg]
  rw [decimal?, body_of_not_isMargin fun c hc => isMargin_of_mem_toString hc, hsign]
  simp only
  rw [digits?_of_isDigit Nat.toDigits_ne_nil hdigits]
  simp only [List.length_map]
  rw [if_pos hlen, ofDigits_map_isDigit, Decimal.value_toDigits, signed]
  congr 1
  by_cases hneg : z < 0
  · simp only [hneg, decide_true, if_true]
    omega
  · simp only [hneg, decide_false, Bool.false_eq_true, if_false]
    omega

end Numeral

end VerifierTrace
