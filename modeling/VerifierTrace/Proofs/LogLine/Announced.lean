import VerifierTrace.LogLine.Reader
import VerifierTrace.Proofs.Instruction.Spelled
import VerifierTrace.Proofs.Text.Blank

/-!
# VerifierTrace.Proofs.LogLine.Announced

Lines that announce a line of the source.

`; code @ file:12` is cut from its end: digits hold no colon, and the name of a file neither a colon
nor white space. So the cut is at the last ` @ `, whatever the code holds, and there is no other one
(`split?_eq_some_iff`).

* `SourceNote.Printed`: a note as it is printed, with white space around it.
* `LogLine.read_source_iff`: these lines, and no others, are read as source notes.
-/

namespace VerifierTrace
namespace SourceNote

/-! ## Parts -/

/-- Code, file and digits as they stand in a note. -/
structure Parts (code file digits : List Char) : Prop where
  unbroken : '\n' ∉ code
  named : file ≠ []
  plain : Text.Unmarked ':' file
  nonempty : digits ≠ []
  decimal : ∀ c ∈ digits, c.isDigit = true

/-- A note without white space around it. -/
def core (code file digits : List Char) : List Char :=
  ';' :: (code ++ ' ' :: '@' :: ' ' :: (file ++ ':' :: digits))

variable {cs code file digits : List Char}

theorem isFileChar_iff {c : Char} : isFileChar c = true ↔ Text.isBlank c = false ∧ c ≠ ':' := by
  simp [isFileChar]

theorem reverse_core : (core code file digits).reverse =
    digits.reverse ++ ':' :: (file.reverse ++ ' ' :: '@' :: ' ' :: (code.reverse ++ [';'])) := by
  simp [core]

theorem split?_core (h : Parts code file digits) :
    split? (core code file digits) = some (code, file, digits) := by
  have hdigits : ∀ c ∈ digits.reverse, c.isDigit = true := by
    intro c hc
    exact h.decimal c (List.mem_reverse.mp hc)
  have hfile : ∀ c ∈ file.reverse, isFileChar c = true := by
    intro c hc
    exact isFileChar_iff.mpr (h.plain c (List.mem_reverse.mp hc))
  have hspace : ∀ rest, (' ' :: rest).takeWhile isFileChar = [] ∧
      (' ' :: rest).dropWhile isFileChar = ' ' :: rest := by
    intro rest
    simp [isFileChar, Text.isBlank]
  have hcolon : ∀ rest, Decimal.NoDigitHead (':' :: rest) :=
    fun rest => Decimal.noDigitHead_cons (by decide)
  obtain ⟨c, front, hcons⟩ := List.exists_cons_of_ne_nil (List.reverse_ne_nil_iff.mpr h.named)
  have hback : file = (c :: front).reverse := by rw [← hcons, List.reverse_reverse]
  unfold split?
  rw [reverse_core, Decimal.run?_append hdigits (List.reverse_ne_nil_iff.mpr h.nonempty) (hcolon _)]
  simp only [List.takeWhile_append_of_pos hfile, List.dropWhile_append_of_pos hfile, hspace,
    List.append_nil]
  rw [hcons]
  simp [h.unbroken, hback]

/-- What is cut is a note, and its parts are the only ones that it can be cut into. -/
theorem split?_eq_some_iff : split? cs = some (code, file, digits) ↔
    Parts code file digits ∧ core code file digits = cs := by
  constructor
  · intro h
    unfold split? at h
    split at h
    · next ds rest hrun =>
      simp only at h
      split at h
      · next c front before hfile hbehind =>
        split at h
        · next content hbefore =>
          split at h
          · cases h
          · next hline =>
            cases h
            obtain ⟨d, rfl, hreverse⟩ := Decimal.digits_of_run? hrun
            have hrest := List.takeWhile_append_dropWhile (p := isFileChar) (l := rest)
            rw [hbehind] at hrest
            have hcore : (core code (rest.takeWhile isFileChar).reverse d.chars.reverse).reverse =
                cs.reverse := by
              rw [reverse_core, List.reverse_reverse, List.reverse_reverse, ← List.reverse_cons,
                ← hbefore, List.reverse_reverse, hrest, hreverse]
            refine ⟨⟨by simpa using hline, by simp [hfile], fun c hc => ?_,
              List.reverse_ne_nil_iff.mpr d.nonempty, fun c hc => ?_⟩, List.reverse_inj.mp hcore⟩
            · exact isFileChar_iff.mp (List.mem_takeWhile_imp (List.mem_reverse.mp hc))
            · exact d.decimal c (List.mem_reverse.mp hc)
        · cases h
      · cases h
    · cases h
  · rintro ⟨hparts, rfl⟩
    exact split?_core hparts

theorem trim_core {before behind : List Char} (h : Parts code file digits)
    (hbefore : Text.Blank before) (hbehind : Text.Blank behind) :
    Text.trim (before ++ (core code file digits ++ behind)) = core code file digits := by
  refine Text.trim_around hbefore hbehind ?_ ?_
  · rintro c ⟨⟩
    decide
  · intro c hc
    have hends : core code file digits =
        (';' :: (code ++ ' ' :: '@' :: ' ' :: (file ++ [':']))) ++ digits := by
      simp [core]
    rw [hends, List.getLast?_append_of_ne_nil _ h.nonempty] at hc
    exact isBlank_of_isDigit (h.decimal c (List.mem_of_getLast? hc))

theorem split?_trim_eq_none {raw rest : List Char} {c : Char}
    (hraw : Text.skipBlanks raw = c :: rest) (hc : c ≠ ';') : split? (Text.trim raw) = none := by
  cases h : split? (Text.trim raw) with
  | none => rfl
  | some found =>
    obtain ⟨code, file, digits⟩ := found
    obtain ⟨-, hcore⟩ := split?_eq_some_iff.mp h
    obtain ⟨front, behind, hfront, -, heq⟩ := Text.exists_eq_trim raw
    rw [heq, ← hcore, Text.skipBlanks_append hfront, core, List.cons_append, Text.skipBlanks_cons,
      if_neg (by decide)] at hraw
    exact absurd (List.head_eq_of_cons_eq hraw).symm hc

/-! ## Notes -/

/-- A note as it is printed: its parts, and the white space around them. -/
structure Printed where
  before : List Char
  code : List Char
  file : List Char
  digits : List Char
  behind : List Char
  parts : Parts code file digits
  bounded : digits.length ≤ Decimal.maxDigits
  indented : Text.Blank before
  trailing : Text.Blank behind

namespace Printed

def line (p : Printed) : String :=
  String.ofList (p.before ++ (core p.code p.file p.digits ++ p.behind))

def note (p : Printed) : SourceNote where
  file := String.ofList p.file
  number := Decimal.value p.digits
  content := String.ofList (Text.trim p.code)

variable (p q : Printed)

theorem read_printed : SourceNote.read p.line.toList = .ok (some p.note) := by
  have hnumber : Decimal.read p.digits = .ok (Decimal.value p.digits) :=
    Decimal.read_ok_iff.mpr ⟨p.bounded, rfl⟩
  rw [SourceNote.read, line, String.toList_ofList, trim_core p.parts p.indented p.trailing,
    split?_core p.parts]
  simp only [hnumber]
  rfl

theorem ignored_iff : p.note.ignored = true ↔ Text.Blank p.code ∨ p.note.number = 0 := by
  simp [ignored, note, Text.trim_eq_nil_iff]

/-- The name of a file ends at the first colon of an id. -/
theorem id_eq_iff : p.note.id = q.note.id ↔
    p.note.file = q.note.file ∧ p.note.number = q.note.number := by
  have htext : ∀ p : Printed,
      p.note.id.toList = p.file ++ ':' :: Nat.toDigits 10 p.note.number := by
    intro p
    have hnumber : (toString p.note.number).toList = Nat.toDigits 10 p.note.number := by
      simp [toString, Nat.repr]
    rw [id, String.toList_append, String.toList_append, hnumber, List.append_assoc]
    simp [note]
  have hfile : ∀ p : Printed, p.note.id.toList.takeWhile (· ≠ ':') = p.file := by
    intro p
    rw [htext, List.takeWhile_append_of_pos fun c hc => by simpa using (p.parts.plain c hc).2]
    simp
  constructor
  · intro h
    have hsame : p.file = q.file := by rw [← hfile p, h, hfile q]
    have hlists := congrArg String.toList h
    rw [htext, htext, hsame] at hlists
    have hdigits := List.tail_eq_of_cons_eq (List.append_cancel_left hlists)
    refine ⟨by rw [note, note, hsame], ?_⟩
    rw [← Decimal.value_toDigits p.note.number, hdigits, Decimal.value_toDigits]
  · rintro ⟨hf, hn⟩
    rw [id, id, hf, hn]

end Printed

theorem exists_printed {raw : String} {note : SourceNote}
    (h : SourceNote.read raw.toList = .ok (some note)) :
    ∃ p : Printed, p.line = raw ∧ p.note = note := by
  unfold SourceNote.read at h
  split at h
  · cases h
  · next code file digits hsplit =>
    obtain ⟨hparts, hcore⟩ := split?_eq_some_iff.mp hsplit
    obtain ⟨before, behind, hbefore, hbehind, heq⟩ := Text.exists_eq_trim raw.toList
    split at h
    · cases h
    · next number hnumber =>
      cases h
      obtain ⟨hbounded, rfl⟩ := Decimal.read_ok_iff.mp hnumber
      refine ⟨⟨before, code, file, digits, behind, hparts, hbounded, hbefore, hbehind⟩, ?_, rfl⟩
      rw [Printed.line, hcore, ← heq, String.ofList_toList]

end SourceNote

theorem Content.readInstruction_ne_source (raw : List Char) (note : SourceNote) :
    Content.readInstruction raw ≠ .ok (.source note) := by
  intro h
  unfold readInstruction at h
  split at h
  · unfold readNotice at h
    split at h
    · cases h
    · cases h
    · cases h
  · split at h
    · cases h
    · cases h
    · split at h
      · cases h
      · cases h

namespace LogLine

/-- A line holds a source note just if it is printed as one, and the note is the one that was printed.
It is ignored if its code is blank or its number is zero, and its id tells file and number. -/
theorem read_source_iff (raw : String) (idx : Int) (line : LogLine) (note : SourceNote) :
    (LogLine.read raw idx = .ok line ∧ line.content = .source note ↔
      line = ⟨idx, raw, .source note⟩ ∧ ∃ p : SourceNote.Printed, p.line = raw ∧ p.note = note) ∧
    (∀ p : SourceNote.Printed,
      p.note.id = String.ofList p.file ++ ":" ++ toString (Decimal.value p.digits) ∧
      (p.note.ignored = true ↔ Text.Blank p.code ∨ Decimal.value p.digits = 0)) ∧
    ∀ p q : SourceNote.Printed, p.note.id = q.note.id ↔
      p.note.file = q.note.file ∧ p.note.number = q.note.number := by
  refine ⟨?_, fun p => ⟨rfl, p.ignored_iff⟩, fun p q => p.id_eq_iff q⟩
  constructor
  · rintro ⟨hread, hcontent⟩
    unfold LogLine.read at hread
    split at hread
    · cases hread
    · next content hline =>
      cases hread
      cases hcontent
      refine ⟨rfl, SourceNote.exists_printed ?_⟩
      unfold Content.read at hline
      split at hline
      · cases hline
      · next hnote =>
        cases hline
        exact hnote
      · exact absurd hline (Content.readInstruction_ne_source _ note)
  · rintro ⟨rfl, p, rfl, rfl⟩
    refine ⟨?_, rfl⟩
    rw [LogLine.read, Content.read, p.read_printed]

example : ∃ p : SourceNote.Printed, p.line = "  ; x = a @ b:3 @ main.c:012 " := by
  exact ⟨⟨"  ".toList, " x = a @ b:3".toList, "main.c".toList, "012".toList, " ".toList,
    ⟨by decide, by decide, by decide, by decide, by simp⟩, by decide, by decide, by decide⟩,
    by decide⟩

end LogLine
end VerifierTrace
