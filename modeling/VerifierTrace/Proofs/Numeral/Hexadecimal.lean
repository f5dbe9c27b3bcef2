import Mathlib.Data.List.TakeWhile
import VerifierTrace.Proofs.Numeral.Written

/-!
# VerifierTrace.Proofs.Numeral.Hexadecimal

Hexadecimal numerals as they are spelled.

The parts of a numeral begin with different characters: no digit is a sign, a letter of the mark
`0x` or an underscore, and none of these is white space. So a numeral is cut in one way only, and
`hex?` reads the texts of numerals, each as its number, and nothing else (`hex?_eq_some_iff`). There
is a numeral for every number (`Hexadecimal.exists_value`).

* `HexDigit`, `HexMark`, `Hexadecimal`: a digit of any script in either case, the mark, a numeral.
* `digits?_digitsText`, `sign_append`, `dropHexMark_append`, `body_around`: each part is cut off as it
  is spelled. Beside each stands what a text looks like of which the part was cut off.
-/

namespace VerifierTrace
namespace Numeral

structure HexDigit where
  char : Char
  value : Nat
  reads : hexDigit? char = some value

def joint (underscore : Bool) : List Char := if underscore then ['_'] else []

/-- Digits, with or without an underscore in front of each but the first. -/
def digitsText (first : HexDigit) (more : List (Bool × HexDigit)) : List Char :=
  first.char :: more.flatMap fun d => joint d.1 ++ [d.2.char]

def digitsValue (first : HexDigit) (more : List (Bool × HexDigit)) : List Nat :=
  first.value :: more.map fun d => d.2.value

/-- What a numeral may begin with, `0x`. -/
structure HexMark where
  zero : Char
  letter : Char
  /-- Whether an underscore stands between the mark and the digits. -/
  joined : Bool
  zero_value : decimalDigit? zero = some 0
  letter_eq : letter = 'x' ∨ letter = 'X'

def HexMark.text (m : HexMark) : List Char := m.zero :: m.letter :: joint m.joined

/-- A sign, `true` for a minus. -/
def signText (minus : Option Bool) : List Char :=
  (minus.map fun minus => if minus then '-' else '+').toList

/-- A hexadecimal numeral with the white space around it. -/
structure Hexadecimal where
  before : List Char
  minus : Option Bool
  mark : Option HexMark
  first : HexDigit
  more : List (Bool × HexDigit)
  behind : List Char
  before_margin : ∀ c ∈ before, isMargin c = true
  behind_margin : ∀ c ∈ behind, isMargin c = true

def markText (mark : Option HexMark) : List Char := (mark.map HexMark.text).getD []

namespace Hexadecimal

/-- The numeral without the white space around it. -/
def spelling (n : Hexadecimal) : List Char :=
  signText n.minus ++ (markText n.mark ++ digitsText n.first n.more)

def text (n : Hexadecimal) : List Char := n.before ++ (n.spelling ++ n.behind)

def value (n : Hexadecimal) : Int :=
  signed (n.minus == some true) (ofDigits 16 (digitsValue n.first n.more))

end Hexadecimal

/-! ## Characters -/

/-- No white space is near the digits of a script. -/
theorem zeros_apart : ∀ z ∈ zeros, 0x30 ≤ z ∧ (z + 10 ≤ 0x85 ∨ (0xA0 < z ∧ z + 10 ≤ 0x1680) ∨
    (0x1680 < z ∧ z + 10 ≤ 0x2000) ∨ 0x3000 < z) := by
  decide

theorem isMargin_of_decimalDigit? {c : Char} {d : Nat} (h : decimalDigit? c = some d) :
    isMargin c = false := by
  obtain ⟨z, hfind, -⟩ := Option.map_eq_some_iff.mp h
  have hz := zeros_apart z (List.mem_of_find?_eq_some hfind)
  have hrange := List.find?_some hfind
  have hblank : Text.isBlank c = false := by
    simp only [Bool.and_eq_true, decide_eq_true_eq] at hrange
    simp only [Text.isBlank, Bool.or_eq_false_iff, Bool.and_eq_false_iff, decide_eq_false_iff_not,
      beq_eq_false_iff_ne]
    omega
  rw [isMargin, hblank, Bool.false_and]

theorem isMargin_of_hexDigit? {c : Char} {d : Nat} (h : hexDigit? c = some d) :
    isMargin c = false := by
  unfold hexDigit? at h
  split at h
  · next hlower =>
    obtain ⟨hlow, hhigh⟩ : 'a' ≤ c ∧ c ≤ 'f' := by simpa using hlower
    exact isMargin_of_toNat (Nat.lt_of_lt_of_le (by decide) hlow)
      (Nat.lt_of_le_of_lt hhigh (by decide))
  · split at h
    · next hupper =>
      obtain ⟨hlow, hhigh⟩ : 'A' ≤ c ∧ c ≤ 'F' := by simpa using hupper
      exact isMargin_of_toNat (Nat.lt_of_lt_of_le (by decide) hlow)
        (Nat.lt_of_le_of_lt hhigh (by decide))
    · exact isMargin_of_decimalDigit? h

theorem HexDigit.char_ne (d : HexDigit) {c : Char} (h : hexDigit? c = none) : d.char ≠ c := by
  rintro rfl
  rw [d.reads] at h
  cases h

theorem HexMark.zero_ne (m : HexMark) {c : Char} (h : decimalDigit? c = none) : m.zero ≠ c := by
  rintro rfl
  rw [m.zero_value] at h
  cases h

/-! ## Digits -/

theorem digitsText_cons (first d : HexDigit) (underscore : Bool) (more : List (Bool × HexDigit)) :
    digitsText first ((underscore, d) :: more) =
      first.char :: (joint underscore ++ digitsText d more) := by
  simp [digitsText]

theorem digits?_digitsText (first : HexDigit) (more : List (Bool × HexDigit)) :
    digits? hexDigit? (digitsText first more) = some (digitsValue first more) := by
  induction more generalizing first with
  | nil => simp [digitsText, digitsValue, digits?, first.reads]
  | cons d more ih =>
    obtain ⟨underscore, d⟩ := d
    rw [digitsText_cons]
    cases underscore with
    | true =>
      show digits? hexDigit? (first.char :: '_' :: digitsText d more) = _
      rw [digits?, first.reads, ih]
      rfl
    | false =>
      show digits? hexDigit? (first.char :: digitsText d more) = _
      rw [digits?, first.reads, ih]
      · rfl
      · intro h
        cases h
      · intro rest h
        exact d.char_ne (by decide) (List.cons.inj h).1

theorem exists_digitsText {cs : List Char} {ds : List Nat} (h : digits? hexDigit? cs = some ds) :
    ∃ first more, digitsText first more = cs ∧ digitsValue first more = ds := by
  fun_induction digits? hexDigit? cs generalizing ds with
  | case1 => cases h
  | case2 c =>
    obtain ⟨d, hd, rfl⟩ := Option.map_eq_some_iff.mp h
    exact ⟨⟨c, d, hd⟩, [], rfl, rfl⟩
  | case3 c rest ih =>
    simp only [Option.bind_eq_bind, Option.pure_def, Option.bind_eq_some_iff,
      Option.some.injEq] at h
    obtain ⟨d, hd, ds, hds, rfl⟩ := h
    obtain ⟨first, more, rfl, rfl⟩ := ih hds
    exact ⟨⟨c, d, hd⟩, (true, first) :: more, digitsText_cons _ _ _ _, rfl⟩
  | case4 c rest _ _ ih =>
    simp only [Option.bind_eq_bind, Option.pure_def, Option.bind_eq_some_iff,
      Option.some.injEq] at h
    obtain ⟨d, hd, ds, hds, rfl⟩ := h
    obtain ⟨first, more, rfl, rfl⟩ := ih hds
    exact ⟨⟨c, d, hd⟩, (false, first) :: more, digitsText_cons _ _ _ _, rfl⟩

/-! ## Sign and mark -/

theorem sign_append {minus : Option Bool} {cs : List Char}
    (hcs : ∀ c ∈ cs.head?, c ≠ '-' ∧ c ≠ '+') :
    sign (signText minus ++ cs) = (minus == some true, cs) := by
  rcases minus with _ | minus
  · show sign cs = (false, cs)
    unfold sign
    split
    · exact absurd rfl (hcs '-' rfl).1
    · exact absurd rfl (hcs '+' rfl).2
    · rfl
  · cases minus <;> rfl

theorem exists_signText (cs : List Char) :
    ∃ minus, signText minus ++ (sign cs).2 = cs ∧ (minus == some true) = (sign cs).1 := by
  unfold sign
  split
  · exact ⟨some true, rfl, rfl⟩
  · exact ⟨some false, rfl, rfl⟩
  · exact ⟨none, rfl, rfl⟩

theorem dropHexMark_of_ne {z x : Char} {rest : List Char} (hlower : x ≠ 'x') (hupper : x ≠ 'X') :
    dropHexMark (z :: x :: rest) = z :: x :: rest := by
  unfold dropHexMark
  refine if_neg ?_
  rintro ⟨-, h | h⟩
  · exact hlower h
  · exact hupper h

theorem dropHexMark_digitsText (first : HexDigit) (more : List (Bool × HexDigit)) :
    dropHexMark (digitsText first more) = digitsText first more := by
  rcases more with _ | ⟨⟨underscore, d⟩, more⟩
  · rfl
  · rw [digitsText_cons]
    cases underscore with
    | true => exact dropHexMark_of_ne (by decide) (by decide)
    | false => exact dropHexMark_of_ne (d.char_ne (by decide)) (d.char_ne (by decide))

theorem dropHexMark_append (mark : Option HexMark) (first : HexDigit)
    (more : List (Bool × HexDigit)) :
    dropHexMark (markText mark ++ digitsText first more) = digitsText first more := by
  rcases mark with _ | m
  · exact dropHexMark_digitsText first more
  · obtain ⟨zero, letter, joined, hzero, hletter⟩ := m
    cases joined with
    | true =>
      show dropHexMark (zero :: letter :: '_' :: digitsText first more) = _
      rw [dropHexMark, if_pos ⟨hzero, hletter⟩]
    | false =>
      show dropHexMark (zero :: letter :: digitsText first more) = _
      rw [dropHexMark, if_pos ⟨hzero, hletter⟩]
      intro rest h
      exact first.char_ne (by decide) (List.cons.inj h).1

theorem exists_markText (cs : List Char) :
    ∃ mark, markText mark ++ dropHexMark cs = cs := by
  unfold dropHexMark
  split
  · next z x rest =>
    split
    · next hmark =>
      split
      · exact ⟨some ⟨z, x, true, hmark.1, hmark.2⟩, rfl⟩
      · exact ⟨some ⟨z, x, false, hmark.1, hmark.2⟩, rfl⟩
    · exact ⟨none, rfl⟩
  · exact ⟨none, rfl⟩

/-! ## White space around -/

theorem body_around {before cs behind : List Char} (hbefore : ∀ c ∈ before, isMargin c = true)
    (hbehind : ∀ c ∈ behind, isMargin c = true) (hcs : ∀ c ∈ cs, isMargin c = false) :
    body (before ++ (cs ++ behind)) = body cs := by
  have hreverse : ∀ c ∈ behind.reverse, isMargin c = true := by
    intro c hc
    exact hbehind c (List.mem_reverse.mp hc)
  rw [body, List.dropWhile_append_of_pos hbefore]
  cases cs with
  | nil =>
    have hnil : behind.dropWhile isMargin = [] := List.dropWhile_eq_nil_iff.mpr hbehind
    rw [List.nil_append, hnil]
    rfl
  | cons c cs =>
    have hc : isMargin c = false := hcs c (by simp)
    rw [List.cons_append, List.dropWhile_cons_of_neg (by simp [hc]), ← List.cons_append,
      List.reverse_append, List.dropWhile_append_of_pos hreverse, body,
      List.dropWhile_cons_of_neg (by simp [hc])]

theorem exists_eq_body (cs : List Char) :
    ∃ before behind, (∀ c ∈ before, isMargin c = true) ∧ (∀ c ∈ behind, isMargin c = true) ∧
      before ++ (body cs ++ behind) = cs := by
  let rest := cs.dropWhile isMargin
  refine ⟨cs.takeWhile isMargin, (rest.reverse.takeWhile isMargin).reverse,
    fun c hc => List.mem_takeWhile_imp hc,
    fun c hc => List.mem_takeWhile_imp (List.mem_reverse.mp hc), ?_⟩
  rw [body, ← List.reverse_append, List.takeWhile_append_dropWhile, List.reverse_reverse,
    List.takeWhile_append_dropWhile]

theorem isMargin_of_mem_joint {underscore : Bool} :
    ∀ c ∈ joint underscore, isMargin c = false := by
  cases underscore with
  | true => exact List.forall_mem_singleton.mpr (by decide)
  | false => exact List.forall_mem_nil _

theorem isMargin_of_mem_digitsText {first : HexDigit} {more : List (Bool × HexDigit)} :
    ∀ c ∈ digitsText first more, isMargin c = false := by
  rw [digitsText, List.forall_mem_cons]
  refine ⟨isMargin_of_hexDigit? first.reads, fun c hc => ?_⟩
  obtain ⟨⟨underscore, d⟩, -, hc⟩ := List.mem_flatMap.mp hc
  rcases List.mem_append.mp hc with hc | hc
  · exact isMargin_of_mem_joint c hc
  · rw [List.mem_singleton.mp hc]
    exact isMargin_of_hexDigit? d.reads

theorem isMargin_of_mem_markText {mark : Option HexMark} :
    ∀ c ∈ markText mark, isMargin c = false := by
  rcases mark with _ | m
  · intro c hc
    cases hc
  · have hletter : isMargin m.letter = false := by
      rcases m.letter_eq with h | h <;> rw [h] <;> decide
    show ∀ c ∈ m.zero :: m.letter :: joint m.joined, isMargin c = false
    rw [List.forall_mem_cons, List.forall_mem_cons]
    exact ⟨isMargin_of_decimalDigit? m.zero_value, hletter, isMargin_of_mem_joint⟩

theorem isMargin_of_mem_signText {minus : Option Bool} :
    ∀ c ∈ signText minus, isMargin c = false := by
  rcases minus with _ | minus
  · exact List.forall_mem_nil _
  · cases minus with
    | true => exact List.forall_mem_singleton.mpr (by decide)
    | false => exact List.forall_mem_singleton.mpr (by decide)

/-! ## Numerals -/

theorem hex?_eq (cs : List Char) :
    hex? cs = (digits? hexDigit? (dropHexMark (sign (body cs)).2)).map fun ds =>
      signed (sign (body cs)).1 (ofDigits 16 ds) := rfl

theorem head?_markText_append {mark : Option HexMark} {first : HexDigit}
    {more : List (Bool × HexDigit)} :
    ∀ c ∈ (markText mark ++ digitsText first more).head?, c ≠ '-' ∧ c ≠ '+' := by
  intro c hc
  rcases mark with _ | m
  · obtain rfl : first.char = c := by simpa [markText, digitsText] using hc
    exact ⟨first.char_ne (by decide), first.char_ne (by decide)⟩
  · obtain rfl : m.zero = c := by simpa [markText, HexMark.text] using hc
    exact ⟨m.zero_ne (by decide), m.zero_ne (by decide)⟩

namespace Hexadecimal

theorem isMargin_of_mem_spelling {n : Hexadecimal} : ∀ c ∈ n.spelling, isMargin c = false := by
  intro c hc
  rcases List.mem_append.mp hc with hc | hc
  · exact isMargin_of_mem_signText c hc
  · rcases List.mem_append.mp hc with hc | hc
    · exact isMargin_of_mem_markText c hc
    · exact isMargin_of_mem_digitsText c hc

theorem hex?_text (n : Hexadecimal) : hex? n.text = some n.value := by
  have hbody : body n.text = n.spelling := by
    rw [text, body_around n.before_margin n.behind_margin isMargin_of_mem_spelling,
      body_of_not_isMargin isMargin_of_mem_spelling]
  have hsign : sign n.spelling = (n.minus == some true, markText n.mark ++
      digitsText n.first n.more) := sign_append head?_markText_append
  rw [hex?_eq, hbody, hsign, dropHexMark_append, digits?_digitsText]
  rfl

theorem exists_text_eq {cs : List Char} {v : Int} (h : hex? cs = some v) :
    ∃ n : Hexadecimal, n.text = cs ∧ n.value = v := by
  rw [hex?_eq] at h
  obtain ⟨ds, hds, rfl⟩ := Option.map_eq_some_iff.mp h
  obtain ⟨before, behind, hbefore, hbehind, hcs⟩ := exists_eq_body cs
  obtain ⟨minus, hsign, hminus⟩ := exists_signText (body cs)
  obtain ⟨mark, hmark⟩ := exists_markText (sign (body cs)).2
  obtain ⟨first, more, hdigits, hvalue⟩ := exists_digitsText hds
  refine ⟨⟨before, minus, mark, first, more, behind, hbefore, hbehind⟩, ?_, ?_⟩
  · show before ++ ((signText minus ++ (markText mark ++ digitsText first more)) ++ behind) = cs
    rw [hdigits, hmark, hsign, hcs]
  · show signed (minus == some true) (ofDigits 16 (digitsValue first more)) = _
    rw [hminus, hvalue]

end Hexadecimal

/-- What is read are the numerals, each as its number. -/
theorem hex?_eq_some_iff {cs : List Char} {v : Int} :
    hex? cs = some v ↔ ∃ n : Hexadecimal, n.text = cs ∧ n.value = v := by
  constructor
  · exact Hexadecimal.exists_text_eq
  · rintro ⟨n, rfl, rfl⟩
    exact n.hex?_text

/-! ## Every number has a numeral -/

/-- The digit of ASCII with a value. -/
def HexDigit.ofFin (i : Fin 16) : HexDigit where
  char := Nat.digitChar i
  value := i
  reads := by revert i; decide

theorem ofDigits_concat (base : Nat) (ds : List Nat) (d : Nat) :
    ofDigits base (ds ++ [d]) = ofDigits base ds * base + d := by
  rw [ofDigits, List.foldl_append]
  rfl

theorem exists_digitsValue (n : Nat) : ∃ first more, ofDigits 16 (digitsValue first more) = n := by
  induction n using Nat.strongRecOn with
  | ind n ih =>
    by_cases hn : n < 16
    · exact ⟨.ofFin ⟨n, hn⟩, [], by simp [digitsValue, HexDigit.ofFin, ofDigits]⟩
    · obtain ⟨first, more, hvalue⟩ := ih (n / 16) (by omega)
      let last : HexDigit := .ofFin ⟨n % 16, by omega⟩
      have hlast : digitsValue first (more ++ [(false, last)]) =
          digitsValue first more ++ [n % 16] := by
        simp [digitsValue, last, HexDigit.ofFin]
      refine ⟨first, more ++ [(false, last)], ?_⟩
      rw [hlast, ofDigits_concat, hvalue]
      omega

theorem Hexadecimal.exists_value (v : Int) : ∃ n : Hexadecimal, n.value = v := by
  obtain ⟨first, more, hvalue⟩ := exists_digitsValue v.natAbs
  have hmargin : ∀ c ∈ ([] : List Char), isMargin c = true := List.forall_mem_nil _
  rcases Int.natAbs_eq v with hv | hv
  · refine ⟨⟨[], none, none, first, more, [], hmargin, hmargin⟩, ?_⟩
    show ((ofDigits 16 (digitsValue first more) : Nat) : Int) = v
    rw [hvalue, ← hv]
  · refine ⟨⟨[], some true, none, first, more, [], hmargin, hmargin⟩, ?_⟩
    show -((ofDigits 16 (digitsValue first more) : Nat) : Int) = v
    rw [hvalue, ← hv]

end Numeral
end VerifierTrace
