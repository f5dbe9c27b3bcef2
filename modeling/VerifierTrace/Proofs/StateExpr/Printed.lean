import Mathlib.Data.List.Infix
import VerifierTrace.Proofs.Instruction.Operands
import VerifierTrace.Proofs.Text.Blank
import VerifierTrace.StateExpr

/-!
# VerifierTrace.Proofs.StateExpr.Printed

Printed blocks of facts are read back.

Inside parentheses a value may hold spaces, and the scan that counts parentheses stops exactly at the
end of such a value (`splitValue_of_ends`). A key has neither white space nor `=`, so in the text of a
fact `=` comes before any space. The marker and the name of a frame have it the other way round, and
are never seen in the text of a fact (`dropWhile_textAll`).

* `Printed`, `Printed.fact`: a fact as it is printed, and the fact that it is.
* `PrintedBlock`: a marker, a frame and facts, of which the first two may be left out.
* `readBlock_printed`: such a block is read back, unless the number of its frame is too long.
-/

namespace VerifierTrace
namespace StateExpr

/-! ## Values -/

/-- The open parentheses behind a character. A closing one counts only if one is open. -/
def nest (depth : Nat) (c : Char) : Nat :=
  if c = '(' then depth + 1 else if c = ')' then depth - 1 else depth

/-- The open parentheses at the end of a text. -/
def openParens (cs : List Char) : Nat := cs.foldl nest 0

/-- All spaces of the text stand inside parentheses. -/
def Enclosed (cs : List Char) : Prop :=
  ∀ before after, cs = before ++ ' ' :: after → 0 < openParens before

theorem enclosed_iff {cs : List Char} :
    Enclosed cs ↔ ∀ i < cs.length, cs[i]? = some ' ' → 0 < openParens (cs.take i) := by
  constructor
  · intro h i hi hspace
    refine h (cs.take i) (cs.drop (i + 1)) ?_
    have hget : cs[i] = ' ' := by simpa [hi] using hspace
    rw [← hget, ← List.drop_eq_getElem_cons hi, List.take_append_drop]
  · rintro h before after rfl
    simpa using h before.length (by simp) (by simp)

instance (cs : List Char) : Decidable (Enclosed cs) := decidable_of_iff _ enclosed_iff.symm

/-- The text behind a value whose parentheses are open to a depth: none, or a space if they are all
closed. -/
def Ends (depth : Nat) (rest : List Char) : Prop := ∀ c ∈ rest.head?, c = ' ' ∧ depth = 0

theorem ends_nil (depth : Nat) : Ends depth [] := by
  intro c hc
  cases hc

theorem ends_space (rest : List Char) : Ends 0 (' ' :: rest) := by
  intro c hc
  cases hc
  exact ⟨rfl, rfl⟩

/-- A value is cut off exactly, `depth` being the parentheses that are open before it. -/
theorem splitValue_of_ends {depth : Nat} {value rest : List Char}
    (hvalue : ∀ before after, value = before ++ ' ' :: after → 0 < before.foldl nest depth)
    (hrest : Ends (value.foldl nest depth) rest) :
    splitValue depth (value ++ rest) = (value, rest) := by
  induction value generalizing depth with
  | nil =>
    cases rest with
    | nil => rfl
    | cons c rest =>
      obtain ⟨rfl, hdepth⟩ := hrest c rfl
      have hzero : depth = 0 := hdepth
      rw [List.nil_append, splitValue, if_pos ⟨rfl, hzero⟩]
  | cons c value ih =>
    have hspace : ¬(c = ' ' ∧ depth = 0) := by
      rintro ⟨rfl, rfl⟩
      exact absurd (hvalue [] value rfl) (by simp)
    have hmore : splitValue (nest depth c) (value ++ rest) = (value, rest) :=
      ih (fun before after heq => hvalue (c :: before) after (by rw [heq, List.cons_append])) hrest
    rw [nest] at hmore
    rw [List.cons_append, splitValue, if_neg hspace]
    simp only [hmore]

/-! ## Facts -/

/-- A key and a value, and how many spaces more than one stand before the next fact. -/
structure Printed where
  key : List Char
  value : List Char
  gap : Nat
  nonempty : key ≠ []
  plain : Text.Unmarked '=' key
  enclosed : Enclosed value

namespace Printed

def text (p : Printed) : List Char := p.key ++ '=' :: p.value

def fact (frame : Option Nat) (p : Printed) : StateExpr where
  slot := Slot.ofKey (String.ofList p.key)
  value := if String.ofList p.value = "fp0" then "fp-0" else String.ofList p.value
  key := String.ofList p.key
  frame := frame

/-- Facts with spaces between them. -/
def textAll : List Printed → List Char
  | [] => []
  | [p] => p.text
  | p :: q :: more => p.text ++ ' ' :: (List.replicate p.gap ' ' ++ textAll (q :: more))

variable (p : Printed)

theorem isKeyChar_of_mem {p : Printed} : ∀ c ∈ p.key, isKeyChar c = true := by
  intro c hc
  obtain ⟨hblank, hequals⟩ := p.plain c hc
  simp [isKeyChar, hblank, hequals]

theorem dropWhile_key (rest : List Char) :
    (p.key ++ '=' :: rest).dropWhile isKeyChar = '=' :: rest := by
  rw [List.dropWhile_append_of_pos isKeyChar_of_mem, List.dropWhile_cons]
  rfl

theorem takeWhile_key (rest : List Char) :
    (p.key ++ '=' :: rest).takeWhile isKeyChar = p.key := by
  have hequals : ('=' :: rest).takeWhile isKeyChar = [] := List.takeWhile_cons
  rw [List.takeWhile_append_of_pos isKeyChar_of_mem, hequals, List.append_nil]

theorem read?_text {rest : List Char} (h : Ends (openParens p.value) rest)
    (frame : Option Nat) : read? frame (p.text ++ rest) = some (p.fact frame, rest) := by
  have hsplit : split? (p.text ++ rest) = some (p.key, p.value, rest) := by
    have hvalue := splitValue_of_ends p.enclosed h
    rw [text, List.append_assoc, List.cons_append]
    obtain ⟨k, ks, hkey⟩ := List.exists_cons_of_ne_nil p.nonempty
    unfold split?
    rw [takeWhile_key, dropWhile_key, hkey]
    simp only [hvalue]
  rw [read?, hsplit]
  rfl

/-- In the text of facts `=` comes before any white space. -/
theorem dropWhile_textAll {facts : List Printed} (h : facts ≠ []) :
    ∃ rest, (textAll facts).dropWhile isKeyChar = '=' :: rest := by
  match facts with
  | [p] => exact ⟨_, p.dropWhile_key p.value⟩
  | p :: q :: more =>
    rw [textAll, text, List.append_assoc, List.cons_append]
    exact ⟨_, p.dropWhile_key _⟩

theorem skipBlanks_textAll (facts : List Printed) :
    Text.skipBlanks (textAll facts) = textAll facts := by
  have hkey : ∀ (p : Printed) (rest : List Char),
      Text.skipBlanks (p.text ++ rest) = p.text ++ rest := by
    intro p rest
    obtain ⟨k, ks, hkey⟩ := List.exists_cons_of_ne_nil p.nonempty
    have hplain := p.plain k (by rw [hkey]; exact List.mem_cons_self)
    rw [text, hkey]
    refine Text.skipBlanks_of_head ?_
    rintro c ⟨⟩
    exact hplain.1
  match facts with
  | [] => rfl
  | [p] => simpa [textAll] using hkey p []
  | p :: q :: more => exact hkey p _

end Printed

theorem readAll_of_read? {frame : Option Nat} {cs rest : List Char} {e : StateExpr}
    (h : read? frame cs = some (e, rest)) : readAll frame cs =
      (e :: (readAll frame (Text.skipBlanks rest)).1, (readAll frame (Text.skipBlanks rest)).2) := by
  rw [readAll]
  split
  · next hnone =>
    rw [h] at hnone
    cases hnone
  · next hsome =>
    rw [h] at hsome
    cases hsome
    rfl

/-- Facts between spaces are read one by one; all but the last must close their parentheses. -/
theorem readAll_textAll (frame : Option Nat) {facts : List Printed}
    (h : ∀ p ∈ facts.dropLast, openParens p.value = 0) :
    readAll frame (Printed.textAll facts) = (facts.map (Printed.fact frame), []) := by
  induction facts with
  | nil =>
    rw [Printed.textAll, readAll]
    rfl
  | cons p more ih =>
    cases more with
    | nil =>
      have hread := p.read?_text (ends_nil _) frame
      have hnil := ih (by simp)
      rw [List.append_nil] at hread
      rw [Printed.textAll, readAll_of_read? hread, Text.skipBlanks_nil]
      rw [Printed.textAll] at hnil
      rw [hnil]
      rfl
    | cons q more =>
      have hends : ∀ rest, Ends (openParens p.value) (' ' :: rest) := by
        rw [h p (by simp)]
        exact ends_space
      have hmore := ih fun p' hp' => h p' (by simpa using Or.inr hp')
      have hread := p.read?_text
        (hends (List.replicate p.gap ' ' ++ Printed.textAll (q :: more))) frame
      have hskip := Text.skipBlanks_append (Text.blank_replicate (p.gap + 1))
        (Printed.textAll (q :: more))
      rw [List.replicate_succ, List.cons_append, Printed.skipBlanks_textAll] at hskip
      rw [Printed.textAll, readAll_of_read? hread, hskip, hmore]
      rfl

/-! ## Blocks -/

/-- A text with a space before any `=` does not begin with facts. -/
theorem textAll_ne {facts : List Printed} {front rest : List Char}
    (hfront : ∀ c ∈ front, isKeyChar c = true) : Printed.textAll facts ≠ front ++ ' ' :: rest := by
  intro heq
  have hspace : (Printed.textAll facts).dropWhile isKeyChar = ' ' :: rest := by
    rw [heq, List.dropWhile_append_of_pos hfront, List.dropWhile_cons]
    rfl
  by_cases hnil : facts = []
  · subst hnil
    cases hspace
  · obtain ⟨more, hequals⟩ := Printed.dropWhile_textAll hnil
    rw [hequals] at hspace
    cases hspace

theorem append_of_frameDigits? {cs ds more : List Char} (h : frameDigits? cs = some (ds, more)) :
    "frame".toList ++ (ds ++ ':' :: ' ' :: more) = cs ∧ ∀ c ∈ ds, c.isDigit = true := by
  unfold frameDigits? at h
  split at h
  · cases h
  · next rest hword =>
    split at h
    · next digits tail hrun =>
      cases h
      refine ⟨?_, Decimal.isDigit_of_run? hrun⟩
      rw [Decimal.append_of_run? hrun]
      exact List.isPrefixOf?_eq_some_iff_append_eq.mp hword
    · cases h

theorem frameDigits?_textAll (facts : List Printed) :
    frameDigits? (Printed.textAll facts) = none := by
  cases h : frameDigits? (Printed.textAll facts) with
  | none => rfl
  | some found =>
    obtain ⟨ds, more⟩ := found
    obtain ⟨heq, hdigits⟩ := append_of_frameDigits? h
    have hfront : ∀ c ∈ "frame".toList ++ (ds ++ [':']), isKeyChar c = true := by
      have hframe : ∀ c ∈ "frame".toList, isKeyChar c = true := List.all_eq_true.mp (by decide)
      have hcolon : ∀ c ∈ [':'], isKeyChar c = true := List.all_eq_true.mp (by decide)
      have hds : ∀ c ∈ ds, isKeyChar c = true := by
        intro c hc
        simp [isKeyChar, isBlank_of_isDigit (hdigits c hc),
          ne_of_isDigit (hdigits c hc) (d := '=') (by decide)]
      exact List.forall_mem_append.mpr ⟨hframe, List.forall_mem_append.mpr ⟨hds, hcolon⟩⟩
    have htext : Printed.textAll facts = "frame".toList ++ (ds ++ [':']) ++ ' ' :: more := by
      simp [← heq]
    exact absurd htext (textAll_ne hfront)

/-- A block as it is printed. -/
structure PrintedBlock where
  marked : Bool
  frame : Option Decimal.Digits
  facts : List Printed
  closed : ∀ p ∈ facts.dropLast, openParens p.value = 0

namespace PrintedBlock

def framedText (b : PrintedBlock) : List Char :=
  match b.frame with
  | none => Printed.textAll b.facts
  | some digits => "frame".toList ++ (digits.chars ++ ':' :: ' ' :: Printed.textAll b.facts)

def text (b : PrintedBlock) : List Char := (if b.marked then marker else []) ++ b.framedText

def frameNumber (b : PrintedBlock) : Except NumeralFault (Option Nat) :=
  match b.frame with
  | none => .ok none
  | some digits =>
    if digits.chars.length ≤ Decimal.maxDigits then .ok (some (Decimal.value digits.chars))
    else .error (.unreadable digits.chars.length)

variable (b : PrintedBlock)

theorem framedText_of_none (h : b.frame = none) : b.framedText = Printed.textAll b.facts := by
  rw [framedText, h]

theorem frameDigits?_framedText {digits : Decimal.Digits} (h : b.frame = some digits) :
    frameDigits? b.framedText = some (digits.chars, Printed.textAll b.facts) := by
  have hcolon : Decimal.NoDigitHead (':' :: ' ' :: Printed.textAll b.facts) :=
    Decimal.noDigitHead_cons (by decide)
  unfold framedText
  rw [h]
  simp only [frameDigits?, isPrefixOf?_append, digits.run?_append hcolon]

theorem readFramed_framedText : readFramed b.framedText =
    b.frameNumber.map fun frame => (b.facts.map (Printed.fact frame), []) := by
  cases hframe : b.frame with
  | none =>
    rw [b.framedText_of_none hframe, readFramed, readFrame, frameDigits?_textAll, frameNumber, hframe]
    simp only [readAll_textAll none b.closed]
    rfl
  | some digits =>
    rw [readFramed, readFrame, b.frameDigits?_framedText hframe, frameNumber, hframe]
    simp only [Decimal.read]
    by_cases hlen : digits.chars.length ≤ Decimal.maxDigits
    · simp only [if_pos hlen, readAll_textAll _ b.closed]
      rfl
    · simp only [if_neg hlen]
      rfl

theorem isPrefixOf?_framedText : marker.isPrefixOf? b.framedText = none := by
  cases hframe : b.frame with
  | none =>
    rw [b.framedText_of_none hframe]
    cases h : marker.isPrefixOf? (Printed.textAll b.facts) with
    | none => rfl
    | some rest =>
      have hmark : ∀ c ∈ [';'], isKeyChar c = true := List.all_eq_true.mp (by decide)
      have heq := List.isPrefixOf?_eq_some_iff_append_eq.mp h
      exact absurd heq.symm (textAll_ne hmark)
  | some digits =>
    unfold framedText
    rw [hframe]
    rfl

end PrintedBlock

/-- A printed block is read to its end: its facts are found in order, all of the frame that the block
names. Only a number of a frame that is too long is refused. -/
theorem readBlock_printed (b : PrintedBlock) : readBlock false b.text =
    b.frameNumber.map fun frame => (b.facts.map (Printed.fact frame), []) := by
  unfold readBlock PrintedBlock.text
  cases b.marked with
  | true =>
    rw [if_pos rfl, isPrefixOf?_append]
    exact b.readFramed_framedText
  | false =>
    rw [if_neg Bool.false_ne_true, List.nil_append, b.isPrefixOf?_framedText]
    exact b.readFramed_framedText

example : ∃ b : PrintedBlock,
    String.ofList b.text = "; frame1: R1_w=scalar(var_off=(0x0; 0xff)) refs=   R10=fp0" := by
  let range : Printed :=
    ⟨"R1_w".toList, "scalar(var_off=(0x0; 0xff))".toList, 0, by decide, by decide, by decide⟩
  let empty : Printed := ⟨"refs".toList, [], 2, by decide, by decide, by decide⟩
  let base : Printed := ⟨"R10".toList, "fp0".toList, 0, by decide, by decide, by decide⟩
  exact ⟨⟨true, some ⟨['1'], by simp, by simp⟩, [range, empty, base], by decide⟩, by decide⟩

/-- A block of the frame with the number `10 ^ 4300`. -/
def distantBlock : PrintedBlock where
  marked := true
  frame := some ⟨'1' :: List.replicate 4300 '0', List.cons_ne_nil _ _, by
    refine List.forall_mem_cons.mpr ⟨by decide, fun c hc => ?_⟩
    rw [List.eq_of_mem_replicate hc]
    decide⟩
  facts := [⟨"R1_w".toList, ['1'], 0, by decide, by decide, by decide⟩]
  closed := by decide

/-- It is not read: the number has 4301 digits. -/
theorem distantBlock_unread :
    distantBlock.text =
        "; frame1".toList ++ (List.replicate 4300 '0' ++ ": R1_w=1".toList) ∧
      readBlock false distantBlock.text = .error (.unreadable 4301) := by
  have hlen : ('1' :: List.replicate 4300 '0').length = 4301 := by
    rw [List.length_cons, List.length_replicate]
  have hnumber : distantBlock.frameNumber = .error (.unreadable 4301) := by
    rw [PrintedBlock.frameNumber, distantBlock]
    simp only [hlen, Decimal.maxDigits]
    rfl
  have htext : distantBlock.text = marker ++ distantBlock.framedText := rfl
  refine ⟨rfl, ?_⟩
  rw [htext, readBlock, isPrefixOf?_append]
  simp only [PrintedBlock.readFramed_framedText, hnumber]
  rfl

end StateExpr
end VerifierTrace
