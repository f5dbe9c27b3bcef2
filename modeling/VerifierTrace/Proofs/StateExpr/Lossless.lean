import VerifierTrace.Proofs.LogLine.Parts
import VerifierTrace.Proofs.StateExpr.Printed

/-!
# VerifierTrace.Proofs.StateExpr.Lossless

Whatever a text says, reading facts from it takes it apart without loss.

Each round of the reader takes a key, `=`, a value and the white space behind it from the front of the
text, so at least two characters, and stops at the first text that does not begin with a key. Nothing
is assumed of the text: parentheses may be unbalanced and values empty. The scan for the end of a
value keeps count of the open parentheses (`splitValue_encloses`), so no space in a value stands
outside of them, and what comes behind it is a space or nothing at all; that is why white space is
missing behind the last fact only, and only at the end of the text.

* `Piece`: a fact as it stands in a text, with the white space behind it.
* `Splits`: a text is the name of a frame, pieces, and a rest that is no fact.
* `Lossless`, `BareLossless`: what becomes of a text. A numeral of too many digits is refused.
* `blocks_lossless`: so it is for all blocks, and for all lines without an instruction.
-/

namespace VerifierTrace
namespace StateExpr

/-! ## Values and keys -/

/-- In a value, with `depth` parentheses open before it, all spaces are enclosed, and it goes on to
the end of the text or to a space that is not. -/
theorem splitValue_encloses (depth : Nat) (cs : List Char) :
    (∀ before after, (splitValue depth cs).1 = before ++ ' ' :: after →
        0 < before.foldl nest depth) ∧
      Ends ((splitValue depth cs).1.foldl nest depth) (splitValue depth cs).2 := by
  fun_induction splitValue depth cs with
  | case1 depth => exact ⟨fun before after h => absurd h (by simp), ends_nil _⟩
  | case2 depth c rest hstop =>
    obtain ⟨rfl, rfl⟩ := hstop
    exact ⟨fun before after h => absurd h (by simp), ends_space rest⟩
  | case3 depth c rest hgo depth' value more hsplit ih =>
    rw [hsplit] at ih
    obtain ⟨hspaces, hends⟩ := ih
    refine ⟨?_, hends⟩
    intro before after h
    cases before with
    | nil =>
      -- the first character is a space, so the scan went on because a parenthesis is open
      obtain ⟨rfl, -⟩ := List.cons.inj h
      exact Nat.pos_of_ne_zero fun hzero => hgo ⟨rfl, hzero⟩
    | cons d before =>
      obtain ⟨rfl, hvalue⟩ := List.cons.inj h
      exact hspaces before after hvalue

/-- The text begins with a key and `=`. -/
def BeginsFact (cs : List Char) : Prop :=
  ∃ key rest, key ≠ [] ∧ Text.Unmarked '=' key ∧ cs = key ++ '=' :: rest

theorem enclosed_nil : Enclosed [] := by
  intro before after h
  cases before <;> cases h

theorem not_beginsFact_of_split? {cs : List Char} (h : split? cs = none) : ¬ BeginsFact cs := by
  rintro ⟨key, rest, hne, hplain, rfl⟩
  let p : Printed := ⟨key, [], 0, hne, hplain, enclosed_nil⟩
  obtain ⟨k, ks, hkey⟩ := List.exists_cons_of_ne_nil hne
  have hfront : (key ++ '=' :: rest).takeWhile isKeyChar = k :: ks :=
    (p.takeWhile_key rest).trans hkey
  have hbehind : (key ++ '=' :: rest).dropWhile isKeyChar = '=' :: rest := p.dropWhile_key rest
  rw [split?, hfront, hbehind] at h
  cases h

/-! ## Facts -/

/-- A key, `=`, a value, and the white space behind it. -/
structure Piece where
  key : List Char
  value : List Char
  space : List Char
  nonempty : key ≠ []
  plain : Text.Unmarked '=' key
  enclosed : Enclosed value
  blank : Text.Blank space

namespace Piece

def text (p : Piece) : List Char := p.key ++ '=' :: (p.value ++ p.space)

/-- The fact, in the frame that its block names. -/
def fact (frame : Option Nat) (p : Piece) : StateExpr where
  slot := Slot.ofKey (String.ofList p.key)
  value := if String.ofList p.value = "fp0" then "fp-0" else String.ofList p.value
  key := String.ofList p.key
  frame := frame

def textAll (ps : List Piece) : List Char := ps.flatMap text

/-- White space stands behind every piece, but for one at the end of the text. -/
def Spaced (rest : List Char) : List Piece → Prop
  | [] => True
  | p :: more => (p.space = [] → more = [] ∧ rest = []) ∧ Spaced rest more

theorem two_le_length_text (p : Piece) : 2 ≤ p.text.length := by
  have hkey := List.length_pos_iff.mpr p.nonempty
  simp only [text, List.length_append, List.length_cons]
  omega

theorem length_textAll_le (ps : List Piece) : 2 * ps.length ≤ (textAll ps).length := by
  induction ps with
  | nil => exact Nat.le_refl 0
  | cons p more ih =>
    have hp := p.two_le_length_text
    simp only [textAll, List.flatMap_cons, List.length_append, List.length_cons] at ih ⊢
    omega

end Piece

theorem parts_of_split? {cs key value rest : List Char} (h : split? cs = some (key, value, rest)) :
    key ≠ [] ∧ Text.Unmarked '=' key ∧ Enclosed value ∧ Ends (openParens value) rest := by
  have hkey := isKeyChar_of_split? h
  have hplain : Text.Unmarked '=' key := by
    intro c hc
    simpa [isKeyChar] using hkey c hc
  unfold split? at h
  split at h
  · next k tail behind _ _ =>
    simp only [Option.some.injEq, Prod.mk.injEq] at h
    obtain ⟨rfl, hcut⟩ := h
    have hencloses := splitValue_encloses 0 behind
    rw [hcut] at hencloses
    exact ⟨List.cons_ne_nil k tail, hplain, hencloses⟩
  · cases h

theorem exists_space {depth : Nat} {rest : List Char} (h : Ends depth rest) :
    ∃ space, Text.Blank space ∧ rest = space ++ Text.skipBlanks rest ∧ (space = [] → rest = []) := by
  obtain ⟨space, hblank, hspace⟩ := Text.exists_eq_skipBlanks rest
  refine ⟨space, hblank, hspace, ?_⟩
  rintro rfl
  cases rest with
  | nil => rfl
  | cons c rest =>
    obtain ⟨rfl, -⟩ := h c rfl
    have hskipped := Text.isBlank_head?_skipBlanks (' ' :: rest) ' '
    rw [List.nil_append] at hspace
    rw [← hspace] at hskipped
    exact absurd (hskipped rfl) (by decide)

/-- A fact that is read is a piece, if the white space behind it is taken along. There is some, unless
the text is at its end. -/
theorem exists_piece_of_read? {frame : Option Nat} {cs rest : List Char} {e : StateExpr}
    (h : read? frame cs = some (e, rest)) : ∃ p : Piece,
      p.text ++ Text.skipBlanks rest = cs ∧ p.fact frame = e ∧ (p.space = [] → rest = []) := by
  unfold read? at h
  split at h
  · next key value more hsplit =>
    simp only [Option.some.injEq, Prod.mk.injEq] at h
    obtain ⟨rfl, rfl⟩ := h
    obtain ⟨hne, hplain, hvalue, hrest⟩ := parts_of_split? hsplit
    obtain ⟨space, hblank, hspace, hend⟩ := exists_space hrest
    refine ⟨⟨key, value, space, hne, hplain, hvalue, hblank⟩, ?_, rfl, hend⟩
    rw [← split?_append hsplit]
    conv => rhs; rw [hspace]
    simp [Piece.text]
  · cases h

/-- Facts are read piece by piece, up to a text that is none. -/
theorem readAll_pieces (frame : Option Nat) (cs : List Char) : ∃ ps : List Piece,
    Piece.textAll ps ++ (readAll frame cs).2 = cs ∧ (readAll frame cs).1 = ps.map (Piece.fact frame) ∧
      Piece.Spaced (readAll frame cs).2 ps ∧ ¬ BeginsFact (readAll frame cs).2 := by
  fun_induction readAll frame cs with
  | case1 cs hnone =>
    refine ⟨[], rfl, rfl, trivial, not_beginsFact_of_split? ?_⟩
    unfold read? at hnone
    split at hnone
    · cases hnone
    · next hsplit => exact hsplit
  | case2 cs e rest hread more ih =>
    obtain ⟨p, htext, hfact, hspace⟩ := exists_piece_of_read? hread
    obtain ⟨ps, hmore, hfacts, hspaced, hstop⟩ := ih
    refine ⟨p :: ps, ?_, ?_, ⟨?_, hspaced⟩, hstop⟩
    · rw [← htext, ← hmore, Piece.textAll, List.flatMap_cons, List.append_assoc]
      rfl
    · rw [List.map_cons, hfact, ← hfacts]
    · intro hnone
      have hnil := hspace hnone
      rw [hnil, Text.skipBlanks_nil] at hmore
      obtain ⟨hps, hrest⟩ := List.append_eq_nil_iff.mp hmore
      refine ⟨?_, ?_⟩
      · have hlength := Piece.length_textAll_le ps
        rw [hps, List.length_nil] at hlength
        exact List.eq_nil_of_length_eq_zero (by omega)
      · simpa [more, hnil] using hrest

/-! ## Frames -/

/-- The name of a frame as it stands in front of facts. -/
def frameName (digits : Decimal.Digits) : List Char :=
  "frame".toList ++ (digits.chars ++ [':', ' '])

/-- What stands in front of facts for their frame, nothing if they have none. -/
def frameText (frame : Option Decimal.Digits) : List Char := (frame.map frameName).getD []

def frameNumber (frame : Option Decimal.Digits) : Option Nat :=
  frame.map fun digits => Decimal.value digits.chars

/-- The text is the name of a frame, if it has one in front, then pieces, then the rest. -/
structure Splits (frame : Option Decimal.Digits) (ps : List Piece) (cs rest : List Char) : Prop where
  text : frameText frame ++ (Piece.textAll ps ++ rest) = cs
  bounded : ∀ digits ∈ frame, digits.chars.length ≤ Decimal.maxDigits
  named : frame = none → ∀ digits, ¬ frameName digits <+: cs
  spaced : Piece.Spaced rest ps
  /-- No more facts could be read. -/
  maximal : ¬ BeginsFact rest
  /-- Each round of the reader takes two characters or more. -/
  rounds : 2 * ps.length + rest.length ≤ cs.length

/-- What becomes of a text with facts: it is split into what is read and what is left, or it begins
with the name of a frame whose number is too long. -/
def Lossless (cs : List Char) : Except NumeralFault (List StateExpr × List Char) → Prop
  | .ok (exprs, rest) => ∃ frame ps, Splits frame ps cs rest ∧
      exprs = ps.map (Piece.fact (frameNumber frame))
  | .error fault => ∃ digits : Decimal.Digits, frameName digits <+: cs ∧
      Decimal.maxDigits < digits.chars.length ∧ fault = .unreadable digits.chars.length

theorem frameName_append (digits : Decimal.Digits) (rest : List Char) :
    frameName digits ++ rest = "frame".toList ++ (digits.chars ++ ':' :: ' ' :: rest) := by
  change "frame".toList ++ (digits.chars ++ [':', ' ']) ++ rest = _
  rw [List.append_assoc, List.append_assoc]
  rfl

theorem frameDigits?_frameName (digits : Decimal.Digits) (rest : List Char) :
    frameDigits? (frameName digits ++ rest) = some (digits.chars, rest) := by
  have hcolon : Decimal.NoDigitHead (':' :: ' ' :: rest) := Decimal.noDigitHead_cons (by decide)
  rw [frameName_append, frameDigits?, isPrefixOf?_append]
  simp only [digits.run?_append hcolon]

theorem exists_frameName_of_frameDigits? {cs ds rest : List Char}
    (h : frameDigits? cs = some (ds, rest)) :
    ∃ digits : Decimal.Digits, digits.chars = ds ∧ frameName digits ++ rest = cs := by
  unfold frameDigits? at h
  split at h
  · cases h
  · next behind hword =>
    split at h
    · next ds' tail hrun =>
      cases h
      obtain ⟨digits, hdigits, htext⟩ := Decimal.digits_of_run? hrun
      refine ⟨digits, hdigits, ?_⟩
      rw [frameName_append, htext]
      exact List.isPrefixOf?_eq_some_iff_append_eq.mp hword
    · cases h

theorem splits_readAll (frame : Option Decimal.Digits) {cs behind : List Char}
    (htext : frameText frame ++ behind = cs)
    (hbounded : ∀ digits ∈ frame, digits.chars.length ≤ Decimal.maxDigits)
    (hnamed : frame = none → ∀ digits, ¬ frameName digits <+: cs) :
    Lossless cs (.ok (readAll (frameNumber frame) behind)) := by
  obtain ⟨ps, hpieces, hfacts, hspaced, hstop⟩ := readAll_pieces (frameNumber frame) behind
  have hlength := Piece.length_textAll_le ps
  have hbehind := congrArg List.length hpieces
  have hcs := congrArg List.length htext
  rw [List.length_append] at hbehind hcs
  refine ⟨frame, ps, ⟨?_, hbounded, hnamed, hspaced, hstop, by omega⟩, hfacts⟩
  rw [hpieces, htext]

theorem readFramed_lossless (cs : List Char) : Lossless cs (readFramed cs) := by
  unfold readFramed readFrame
  cases hframe : frameDigits? cs with
  | none =>
    refine splits_readAll none rfl (by simp) ?_
    rintro - digits ⟨rest, rfl⟩
    rw [frameDigits?_frameName] at hframe
    cases hframe
  | some found =>
    obtain ⟨ds, behind⟩ := found
    obtain ⟨digits, rfl, htext⟩ := exists_frameName_of_frameDigits? hframe
    simp only [Decimal.read]
    by_cases hbounded : digits.chars.length ≤ Decimal.maxDigits
    · rw [if_pos hbounded]
      refine splits_readAll (some digits) htext ?_ (by simp)
      rintro digits' ⟨⟩
      exact hbounded
    · rw [if_neg hbounded]
      exact ⟨digits, ⟨behind, htext⟩, Nat.lt_of_not_le hbounded, rfl⟩

/-! ## Blocks and lines without an instruction -/

/-- The text behind the number of an instruction, with the white space before the number and behind
it. -/
structure Numbered (digits : Decimal.Digits) (cs behind : List Char) : Prop where
  text : ∃ front space, cs = front ++ (digits.chars ++ ':' :: (space ++ behind)) ∧
    Text.Blank front ∧ Text.Blank space
  skipped : ∀ c ∈ behind.head?, Text.isBlank c = false

/-- What becomes of a line without an instruction: it begins with no number and is left whole, or
facts are read behind its number. A number that is too long is refused. -/
def BareLossless (cs : List Char) : Except NumeralFault Bare → Prop
  | .ok ⟨none, exprs, rest⟩ => (∀ digits behind, ¬ Numbered digits cs behind) ∧ exprs = [] ∧ rest = cs
  | .ok ⟨some pc, exprs, rest⟩ => ∃ digits behind, Numbered digits cs behind ∧
      digits.chars.length ≤ Decimal.maxDigits ∧ pc = Decimal.value digits.chars ∧
      Lossless behind (.ok (exprs, rest))
  | .error fault => ∃ digits behind, Numbered digits cs behind ∧
      (Decimal.maxDigits < digits.chars.length ∧ fault = .unreadable digits.chars.length ∨
        Lossless behind (.error fault))

theorem pcDigits?_of_numbered {digits : Decimal.Digits} {cs behind : List Char}
    (h : Numbered digits cs behind) : ∃ rest,
      pcDigits? (Text.skipBlanks cs) = some (digits.chars, rest) ∧ Text.skipBlanks rest = behind := by
  obtain ⟨⟨front, space, rfl, hfront, hspace⟩, hskipped⟩ := h
  refine ⟨space ++ behind, ?_, ?_⟩
  · have hcolon : Decimal.NoDigitHead (':' :: (space ++ behind)) :=
      Decimal.noDigitHead_cons (by decide)
    have hhead : ∀ c ∈ (digits.chars ++ ':' :: (space ++ behind)).head?, Text.isBlank c = false := by
      obtain ⟨d, ds, hd⟩ := List.exists_cons_of_ne_nil digits.nonempty
      rw [hd]
      rintro c ⟨⟩
      exact isBlank_of_isDigit (digits.decimal d (by rw [hd]; simp))
    rw [Text.skipBlanks_append hfront, Text.skipBlanks_of_head hhead, pcDigits?,
      digits.run?_append hcolon]
    rfl
  · rw [Text.skipBlanks_append hspace, Text.skipBlanks_of_head hskipped]

theorem numbered_of_pcDigits? {cs ds rest : List Char}
    (h : pcDigits? (Text.skipBlanks cs) = some (ds, rest)) :
    ∃ digits : Decimal.Digits, digits.chars = ds ∧ Numbered digits cs (Text.skipBlanks rest) := by
  unfold pcDigits? at h
  split at h
  · next ds' tail hrun =>
    cases h
    obtain ⟨digits, hdigits, htext⟩ := Decimal.digits_of_run? hrun
    obtain ⟨front, hfront, hcs⟩ := Text.exists_eq_skipBlanks cs
    obtain ⟨space, hspace, hrest⟩ := Text.exists_eq_skipBlanks rest
    refine ⟨digits, hdigits, ⟨front, space, ?_, hfront, hspace⟩, Text.isBlank_head?_skipBlanks rest⟩
    rw [← hrest, htext, ← hcs]
  · cases h

theorem readBare_lossless (cs : List Char) : BareLossless cs (readBare cs) := by
  unfold readBare
  cases hpc : pcDigits? (Text.skipBlanks cs) with
  | none =>
    refine ⟨?_, rfl, rfl⟩
    intro digits behind h
    obtain ⟨rest, hsome, -⟩ := pcDigits?_of_numbered h
    rw [hpc] at hsome
    cases hsome
  | some found =>
    obtain ⟨ds, rest⟩ := found
    obtain ⟨digits, rfl, hnumbered⟩ := numbered_of_pcDigits? hpc
    have hframed := readFramed_lossless (Text.skipBlanks rest)
    simp only [Decimal.read]
    by_cases hbounded : digits.chars.length ≤ Decimal.maxDigits
    · rw [if_pos hbounded]
      cases hread : readFramed (Text.skipBlanks rest) with
      | error fault =>
        rw [hread] at hframed
        exact ⟨digits, _, hnumbered, .inr hframed⟩
      | ok found =>
        rw [hread] at hframed
        exact ⟨digits, _, hnumbered, hbounded, rfl, hframed⟩
    · rw [if_neg hbounded]
      exact ⟨digits, _, hnumbered, .inl ⟨Nat.lt_of_not_le hbounded, rfl⟩⟩

/-- Whatever the text, a block of facts is taken apart behind its marker, or from the front of it
if there is none; where a marker is required, a text without one is left whole. A line without an
instruction is taken apart behind its number. Only a numeral of too many digits is refused. -/
theorem blocks_lossless (cs : List Char) :
    (∀ required : Bool,
      (∃ behind, cs = marker ++ behind ∧ Lossless behind (readBlock required cs)) ∨
        ¬ marker <+: cs ∧ if required then readBlock required cs = .ok ([], cs)
          else Lossless cs (readBlock required cs)) ∧
      BareLossless cs (readBare cs) := by
  refine ⟨fun required => ?_, readBare_lossless cs⟩
  unfold readBlock
  cases hmark : marker.isPrefixOf? cs with
  | some behind =>
    refine .inl ⟨behind, (List.isPrefixOf?_eq_some_iff_append_eq.mp hmark).symm, ?_⟩
    exact readFramed_lossless behind
  | none =>
    refine .inr ⟨?_, ?_⟩
    · rintro ⟨behind, rfl⟩
      rw [isPrefixOf?_append] at hmark
      cases hmark
    · cases required with
      | true => rfl
      | false => exact readFramed_lossless cs

/-- A block of the frame 0, in 4301 digits. -/
def paddedBlock : PrintedBlock where
  marked := false
  frame := some ⟨'0' :: List.replicate 4300 '0', List.cons_ne_nil _ _, by
    refine List.forall_mem_cons.mpr ⟨by decide, fun c hc => ?_⟩
    rw [List.eq_of_mem_replicate hc]
    decide⟩
  facts := [⟨"R1".toList, ['0'], 0, by decide, by decide, by decide⟩]
  closed := by decide

/-- Nothing is read from it, nor from a line with it behind a number. -/
theorem paddedBlock_refused :
    paddedBlock.text = "frame0".toList ++ (List.replicate 4300 '0' ++ ": R1=0".toList) ∧
      (¬ ∃ exprs rest, readBlock false paddedBlock.text = .ok (exprs, rest)) ∧
      ¬ ∃ b, readBare ("7: ".toList ++ paddedBlock.text) = .ok b := by
  have hnumber : paddedBlock.frameNumber = .error (.unreadable 4301) := by
    rw [PrintedBlock.frameNumber, paddedBlock]
    simp only [List.length_cons, List.length_replicate, Decimal.maxDigits]
    rfl
  have hframed : readFramed paddedBlock.framedText = .error (.unreadable 4301) := by
    rw [PrintedBlock.readFramed_framedText, hnumber]
    rfl
  have htext : paddedBlock.text = paddedBlock.framedText := rfl
  have hblock : readBlock false paddedBlock.framedText = .error (.unreadable 4301) := by
    rw [readBlock, PrintedBlock.isPrefixOf?_framedText]
    simp only [hframed, Bool.false_eq_true, if_false]
  have hbare : readBare ("7: ".toList ++ paddedBlock.framedText) = .error (.unreadable 4301) := by
    have hpc : pcDigits? (Text.skipBlanks ("7: ".toList ++ paddedBlock.framedText)) =
        some (['7'], ' ' :: paddedBlock.framedText) := rfl
    have hskip : Text.skipBlanks (' ' :: paddedBlock.framedText) = paddedBlock.framedText := rfl
    rw [readBare, hpc]
    simp only [hskip, hframed]
    rfl
  refine ⟨rfl, ?_, ?_⟩
  · rw [htext, hblock]
    rintro ⟨exprs, rest, hread⟩
    cases hread
  · rw [htext, hbare]
    rintro ⟨b, hread⟩
    cases hread

end StateExpr
end VerifierTrace
