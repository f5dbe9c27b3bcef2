import VerifierTrace.Text.Lines
import VerifierTrace.Text.Lower

/-!
# VerifierTrace.Proofs.Text.Lines

Texts in which no line ends.

The lines of a text are such texts (`unbroken_of_mem_lines`), and when some that are not empty are
put together with line feeds between them they are its lines again (`lines_intercalate`). Lower case
makes no line break (`unbroken_lower`).
-/

namespace VerifierTrace
namespace Text

/-- No character of the text ends a line. -/
def Unbroken (cs : List Char) : Prop := ∀ c ∈ cs, isLineBreak c = false

variable {c : Char} {cs : List Char}

theorem unbroken_nil : Unbroken [] := by
  intro c hc
  cases hc

theorem unbroken_cons : Unbroken (c :: cs) ↔ isLineBreak c = false ∧ Unbroken cs :=
  List.forall_mem_cons

theorem unbroken_of_mem_lines {line text : List Char} (h : line ∈ lines text) : Unbroken line := by
  fun_induction lines text generalizing line with
  | case1 => cases h
  | case2 rest ih =>
    rcases List.mem_cons.mp h with rfl | h
    · exact unbroken_nil
    · exact ih h
  | case3 c rest _ _ ih =>
    rcases List.mem_cons.mp h with rfl | h
    · exact unbroken_nil
    · exact ih h
  | case4 c rest _ hbreak hnone ih =>
    rw [List.mem_singleton.mp h]
    exact unbroken_cons.mpr ⟨by simpa using hbreak, unbroken_nil⟩
  | case5 c rest _ hbreak first more hlines ih =>
    rcases List.mem_cons.mp h with rfl | h
    · exact unbroken_cons.mpr ⟨by simpa using hbreak, ih (by simp [hlines])⟩
    · exact ih (by simp [hlines, h])

theorem lines_cons (hc : isLineBreak c = false) :
    lines (c :: cs) =
      match lines cs with
      | [] => [[c]]
      | line :: more => (c :: line) :: more := by
  have hreturn : ∀ rest, c = '\r' → cs = '\n' :: rest → False := by
    rintro rest rfl -
    revert hc
    decide
  rw [lines.eq_3 _ _ hreturn, hc]
  rfl

/-- A line feed ends the line that stands before it. -/
theorem lines_append_feed (h : Unbroken cs) (rest : List Char) :
    lines (cs ++ '\n' :: rest) = cs :: lines rest := by
  induction cs with
  | nil => rfl
  | cons c cs ih =>
    obtain ⟨hc, hcs⟩ := unbroken_cons.mp h
    rw [List.cons_append, lines_cons hc, ih hcs]

theorem lines_of_unbroken (h : Unbroken cs) (hne : cs ≠ []) : lines cs = [cs] := by
  induction cs with
  | nil => exact absurd rfl hne
  | cons c cs ih =>
    obtain ⟨hc, hcs⟩ := unbroken_cons.mp h
    rw [lines_cons hc]
    cases cs with
    | nil => rfl
    | cons d cs => rw [ih hcs (by simp)]

theorem lines_intercalate {parts : List (List Char)}
    (h : ∀ part ∈ parts, part ≠ [] ∧ Unbroken part) : lines (['\n'].intercalate parts) = parts := by
  induction parts with
  | nil => rfl
  | cons part parts ih =>
    obtain ⟨hne, hpart⟩ := h part (by simp)
    cases parts with
    | nil => simpa using lines_of_unbroken hpart hne
    | cons next parts =>
      have hrest := ih fun p hp => h p (List.mem_cons_of_mem part hp)
      rw [List.intercalate_cons_cons, List.append_assoc, List.singleton_append,
        lines_append_feed hpart, hrest]

/-! ## Lower case -/

namespace Lower

/-- The numbers of the characters that end a line. -/
def breaks : List Nat := [10, 11, 12, 13, 28, 29, 30, 0x85, 0x2028, 0x2029]

theorem isLineBreak_eq_false_iff : isLineBreak c = false ↔ c.toNat ∉ breaks := by
  simp only [isLineBreak, breaks, Bool.or_eq_false_iff, Bool.and_eq_false_iff,
    decide_eq_false_iff_not, beq_eq_false_iff_ne, List.mem_cons, List.not_mem_nil, or_false]
  omega

theorem isLineBreak_toLower (hc : c.toNat < 0x80) : isLineBreak c.toLower = isLineBreak c := by
  have hall : ∀ i < 0x80, isLineBreak (Char.ofNat i).toLower = isLineBreak (Char.ofNat i) := by
    decide +kernel
  have h := hall c.toNat hc
  rwa [Char.ofNat_toNat] at h

/-- No small letter of a run ends a line. -/
theorem lt_or_lt_of_mem_runs : ∀ r ∈ runs, ∀ b ∈ breaks,
    (r.last : Int) + r.shift < b ∨ (b : Int) < r.first + r.shift := by
  decide +kernel

theorem isLineBreak_ofNat {i : Nat} (h : i ∉ breaks) : isLineBreak (Char.ofNat i) = false := by
  rw [isLineBreak_eq_false_iff]
  by_cases hi : i.isValidChar
  · rw [Char.ofNat, dif_pos hi]
    exact h
  · rw [Char.ofNat, dif_neg hi]
    decide

/-- The small letter of a character ends no line unless the character does. -/
theorem isLineBreak_ofChar (hc : isLineBreak c = false) : isLineBreak (ofChar c) = false := by
  unfold ofChar
  simp only
  split
  · next hascii => rw [isLineBreak_toLower hascii, hc]
  · split
    · next r hr =>
      have hrange := List.find?_some hr
      simp only [Bool.and_eq_true, decide_eq_true_eq] at hrange
      refine isLineBreak_ofNat fun hmem => ?_
      have hside := lt_or_lt_of_mem_runs r (List.mem_of_find?_eq_some hr) _ hmem
      have hpos : ∀ b ∈ breaks, 0 < b := by decide
      have hpos := hpos _ hmem
      rw [Int.ofNat_eq_natCast] at hside hpos
      omega
    · exact hc

theorem unbroken_go (before : List Char) (h : Unbroken cs) : Unbroken (go before cs) := by
  fun_induction go before cs with
  | case1 => exact h
  | case2 before rest ih =>
    obtain ⟨-, hrest⟩ := unbroken_cons.mp h
    exact unbroken_cons.mpr ⟨rfl, unbroken_cons.mpr ⟨rfl, ih hrest⟩⟩
  | case3 before rest ih =>
    obtain ⟨-, hrest⟩ := unbroken_cons.mp h
    refine unbroken_cons.mpr ⟨?_, ih hrest⟩
    split <;> rfl
  | case4 before c rest _ _ ih =>
    obtain ⟨hc, hrest⟩ := unbroken_cons.mp h
    exact unbroken_cons.mpr ⟨isLineBreak_ofChar hc, ih hrest⟩

end Lower

theorem unbroken_lower (h : Unbroken cs) : Unbroken (lower cs) := Lower.unbroken_go [] h

end Text
end VerifierTrace
