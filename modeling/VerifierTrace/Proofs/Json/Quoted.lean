import VerifierTrace.Json.Reader

/-!
# VerifierTrace.Proofs.Json.Quoted

Texts in quotes, read back.

A character is written as itself, as a letter behind a backslash, or as one or two UTF-16 units of
four hexadecimal digits (`escape_cases`). The reader takes each of these in one step and goes on
behind it, so it comes to the closing quote with all characters (`readText_append`). A unit is only
taken for half of a pair if it is one, and no character is.
-/

namespace VerifierTrace
namespace Json

/-! ## UTF-16 units -/

theorem hexDigit?_hexDigit {n : Nat} (h : n < 16) : hexDigit? (Text.hexDigit n) = some n := by
  have hall : ∀ i < 16, hexDigit? (Text.hexDigit i) = some i := by decide
  exact hall n h

theorem exists_hexPadded {n : Nat} (h : n < 0x10000) :
    ∃ a b c d, Text.hexPadded 4 n = [a, b, c, d] ∧ hexUnit? a b c d = some n := by
  refine ⟨_, _, _, _, rfl, ?_⟩
  rw [hexUnit?, hexDigit?_hexDigit (Nat.mod_lt _ (by decide)),
    hexDigit?_hexDigit (Nat.mod_lt _ (by decide)), hexDigit?_hexDigit (Nat.mod_lt _ (by decide)),
    hexDigit?_hexDigit (Nat.mod_lt _ (by decide))]
  simp only [Option.bind_eq_bind, Option.bind_some, Option.pure_def, Option.some.injEq]
  omega

theorem ofUnit?_unit (h : Half) : Half.ofUnit? h.unit = some h := by
  have hrange : 0xD800 ≤ h.unit ∧ h.unit < 0xE000 := by
    unfold Half.unit
    omega
  rw [Half.ofUnit?, dif_pos hrange]
  simp [Half.unit]

variable {c : Char} {rest : List Char} {start fuel : Nat}

/-- No character is half of a pair. -/
theorem ofUnit?_toNat (c : Char) : Half.ofUnit? c.toNat = none := by
  refine dif_neg ?_
  rcases c.valid with h | ⟨h, -⟩
  · exact fun hc => absurd hc.1 (Nat.not_le.mpr h)
  · exact fun hc => absurd hc.2 (Nat.not_lt.mpr h)

theorem ofUnit_toNat (c : Char) : ofUnit c.toNat = .char c := by
  rw [ofUnit, ofUnit?_toNat]
  simp only [Char.ofNat_toNat]

theorem exists_pair (h : 0x10000 ≤ c.toNat) :
    ∃ first second : Half, first.unit = 0xD800 + (c.toNat - 0x10000) / 0x400 ∧
      second.unit = 0xDC00 + (c.toNat - 0x10000) % 0x400 ∧ first.isFirst = true ∧
        second.isFirst = false ∧ Half.pair first second = c := by
  have hlt : c.toNat < 0x110000 := by
    rcases c.valid with hlow | ⟨-, hhigh⟩
    · exact Nat.lt_trans hlow (by decide)
    · exact hhigh
  refine ⟨⟨(c.toNat - 0x10000) / 0x400, by omega⟩, ⟨0x400 + (c.toNat - 0x10000) % 0x400, by omega⟩,
    rfl, ?_, ?_, ?_, ?_⟩
  · simp only [Half.unit]
    omega
  · simp only [Half.isFirst, decide_eq_true_eq]
    omega
  · simp only [Half.isFirst, decide_eq_false_iff_not]
    omega
  · have hsum : 0x10000 + (c.toNat - 0x10000) / 0x400 * 0x400 +
        (0x400 + (c.toNat - 0x10000) % 0x400 - 0x400) = c.toNat := by omega
    rw [Half.pair, hsum, Char.ofNat_toNat]

theorem ofPair?_unit {first second : Half} (hfirst : first.isFirst = true)
    (hsecond : second.isFirst = false) :
    ofPair? first.unit second.unit = some (Half.pair first second) := by
  simp [ofPair?, ofUnit?_unit, hfirst, hsecond]

theorem readUnit_char (h : c.toNat < 0x10000) (hrest : rest ≠ []) :
    readUnit (Text.hexPadded 4 c.toNat ++ rest) = .ok (.char c, rest) := by
  obtain ⟨a, b, c', d, hdigits, hunit⟩ := exists_hexPadded h
  have hmore : rest.isEmpty = false := List.isEmpty_eq_false_iff.mpr hrest
  rw [hdigits]
  show readUnit (a :: b :: c' :: d :: rest) = _
  simp only [readUnit, hmore, hunit, ofUnit?_toNat, ofUnit_toNat, Bool.false_eq_true, if_false]
  split
  · exact if_neg (by simp)
  · rfl

theorem readUnit_pair {first second : Half} (hfirst : first.isFirst = true)
    (hsecond : second.isFirst = false) (hrest : rest ≠ []) :
    readUnit (Text.hexPadded 4 first.unit ++ (unitEscape second.unit ++ rest)) =
      .ok (.char (Half.pair first second), rest) := by
  have hunit : ∀ h : Half, h.unit < 0x10000 := by
    intro h
    unfold Half.unit
    omega
  obtain ⟨a, b, c, d, hdigits, hread⟩ := exists_hexPadded (hunit first)
  obtain ⟨a', b', c', d', hdigits', hread'⟩ := exists_hexPadded (hunit second)
  have hmore : rest.isEmpty = false := List.isEmpty_eq_false_iff.mpr hrest
  rw [unitEscape, hdigits, hdigits']
  show readUnit (a :: b :: c :: d :: '\\' :: 'u' :: a' :: b' :: c' :: d' :: rest) = _
  simp [readUnit, hread, hread', ofUnit?_unit, ofPair?_unit hfirst hsecond, hfirst, hmore]

/-! ## Characters -/

/-- The ways in which a character is written. -/
theorem escape_cases (c : Char) :
    (∃ d, escape c = ['\\', d] ∧ unescape? d = some c ∧ d ≠ 'u') ∨
      (escape c = [c] ∧ c ≠ '"' ∧ c ≠ '\\' ∧ 32 ≤ c.toNat) ∨
      (escape c = unitEscape c.toNat ∧ c.toNat < 0x10000) ∨
      ∃ first second : Half, escape c = unitEscape first.unit ++ unitEscape second.unit ∧
        first.isFirst = true ∧ second.isFirst = false ∧ Half.pair first second = c := by
  unfold escape
  by_cases hquote : c = '"'
  · rw [if_pos hquote]
    exact .inl ⟨'"', rfl, by rw [hquote]; rfl, by decide⟩
  rw [if_neg hquote]
  by_cases hback : c = '\\'
  · rw [if_pos hback]
    exact .inl ⟨'\\', rfl, by rw [hback]; rfl, by decide⟩
  rw [if_neg hback]
  by_cases hfeed : c = '\n'
  · rw [if_pos hfeed]
    exact .inl ⟨'n', rfl, by rw [hfeed]; rfl, by decide⟩
  rw [if_neg hfeed]
  by_cases hreturn : c = '\r'
  · rw [if_pos hreturn]
    exact .inl ⟨'r', rfl, by rw [hreturn]; rfl, by decide⟩
  rw [if_neg hreturn]
  by_cases htab : c = '\t'
  · rw [if_pos htab]
    exact .inl ⟨'t', rfl, by rw [htab]; rfl, by decide⟩
  rw [if_neg htab]
  by_cases hform : c.toNat = 12
  · have hc : c = '\x0c' := Char.toNat_inj.mp hform
    rw [if_pos hform]
    exact .inl ⟨'f', rfl, by rw [hc]; rfl, by decide⟩
  rw [if_neg hform]
  by_cases hdelete : c.toNat = 8
  · have hc : c = '\x08' := Char.toNat_inj.mp hdelete
    rw [if_pos hdelete]
    exact .inl ⟨'b', rfl, by rw [hc]; rfl, by decide⟩
  rw [if_neg hdelete]
  by_cases hprints : 32 ≤ c.toNat ∧ c.toNat < 127
  · rw [if_pos hprints]
    exact .inr (.inl ⟨rfl, hquote, hback, hprints.1⟩)
  rw [if_neg hprints]
  by_cases hshort : c.toNat < 0x10000
  · rw [if_pos hshort]
    exact .inr (.inr (.inl ⟨rfl, hshort⟩))
  rw [if_neg hshort]
  obtain ⟨first, second, hone, htwo, hpair⟩ := exists_pair (Nat.not_lt.mp hshort)
  exact .inr (.inr (.inr ⟨first, second, by rw [hone, htwo], hpair⟩))

variable {ps : List Point} {behind : List Char}

/-- However a character is written, it is read in one step. -/
theorem readPoints_escape (h : readPoints start fuel rest = .ok (ps, behind)) :
    readPoints start (fuel + 1) (escape c ++ rest) = .ok (.char c :: ps, behind) := by
  have hrest : rest ≠ [] := by
    rintro rfl
    cases fuel <;> cases h
  have hunit : ∀ digits, readUnit digits = .ok (.char c, rest) →
      readPoints start (fuel + 1) ('\\' :: 'u' :: digits) = .ok (.char c :: ps, behind) := by
    intro digits hdigits
    rw [readPoints, hdigits]
    simp only [h, Except.map]
  rcases escape_cases c with ⟨d, hescape, hd, hu⟩ | ⟨hescape, hquote, hback, hlow⟩ |
    ⟨hescape, hshort⟩ | ⟨first, second, hescape, hfirst, hsecond, rfl⟩
  · rw [hescape]
    show readPoints start (fuel + 1) ('\\' :: d :: rest) = _
    rw [readPoints.eq_6 _ _ _ _ hu, hd]
    simp only [h, Except.map]
  · rw [hescape]
    show readPoints start (fuel + 1) (c :: rest) = _
    rw [readPoints.eq_7 _ _ _ _ hquote (fun hc _ => hback hc) (fun _ hc _ => hback hc)
      (fun _ _ hc _ => hback hc), if_neg (Nat.not_lt.mpr hlow), h]
    rfl
  · rw [hescape]
    exact hunit _ (readUnit_char hshort hrest)
  · rw [hescape, List.append_assoc]
    exact hunit _ (readUnit_pair hfirst hsecond hrest)

/-! ## Texts -/

theorem readPoints_append (s behind : List Char) (h : s.length < fuel) :
    readPoints start fuel (s.flatMap escape ++ '"' :: behind) = .ok (s.map .char, behind) := by
  induction s generalizing fuel with
  | nil =>
    cases fuel with
    | zero => cases h
    | succ fuel => rfl
  | cons c s ih =>
    cases fuel with
    | zero => cases h
    | succ fuel =>
      rw [List.flatMap_cons, List.append_assoc]
      exact readPoints_escape (ih (Nat.lt_of_succ_lt_succ h))

theorem gather_map_char (before s : List Char) :
    WideText.gather before (s.map .char) = .plain (String.ofList (before.reverse ++ s)) := by
  induction s generalizing before with
  | nil => rw [List.append_nil]; rfl
  | cons c s ih =>
    rw [List.map_cons, WideText.gather, ih, List.reverse_cons, List.append_assoc]
    rfl

theorem escape_ne_nil (c : Char) : escape c ≠ [] := by
  rcases escape_cases c with ⟨d, h, -⟩ | ⟨h, -⟩ | ⟨h, -⟩ | ⟨first, second, h, -⟩ <;> rw [h] <;>
    simp [unitEscape]

theorem length_le_flatMap_escape (s : List Char) : s.length ≤ (s.flatMap escape).length := by
  induction s with
  | nil => exact Nat.le_refl 0
  | cons c s ih =>
    have hc := List.length_pos_iff.mpr (escape_ne_nil c)
    rw [List.flatMap_cons, List.length_append, List.length_cons]
    omega

theorem readText_append (s : String) (behind : List Char) :
    readText (s.toList.flatMap escape ++ '"' :: behind) = .ok (.plain s, behind) := by
  have hlength := length_le_flatMap_escape s.toList
  rw [readText, readPoints_append]
  · simp only [Except.map, WideText.ofPoints, gather_map_char, List.reverse_nil, List.nil_append,
      String.ofList_toList]
  · rw [List.length_append]
    omega

end Json
end VerifierTrace
