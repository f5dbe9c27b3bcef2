import VerifierTrace.Proofs.Instruction.Brief
import VerifierTrace.Proofs.LogLine.Announced
import VerifierTrace.Proofs.StateExpr.Printed

/-!
# VerifierTrace.Proofs.LogLine.Brief

Lines read from texts without long numerals.

Numerals are read in the number of an instruction, in the offset of an operand, and in the numbers
of frames, source lines and functions. All of them stand in the text as they are, so over brief
texts (`yields_read`) none is too long, and neither are those in the slots and values that are
reported.

* `StateExpr.Brief n`, `Content.Brief n`: facts and lines in which no numeral has more than `n`
  digits.
-/

namespace VerifierTrace

open Decimal

/-- No numeral in the slot or in the value has more than `n` digits. -/
structure StateExpr.Brief (n : Nat) (e : StateExpr) : Prop where
  slot : Decimal.Brief n e.slot.toList
  value : Decimal.Brief n e.value.toList

/-- What the line hands on to the machine has no numeral of more than `n` digits. -/
def Content.Brief (n : Nat) : Content → Prop
  | .instruction ins exprs => ins.action.Below n ∧ ∀ e ∈ exprs, e.Brief n
  | .notice (.stateBlock _ exprs) => ∀ e ∈ exprs, e.Brief n
  | .notice (.globalFunction ..) | .source _ | .unrecognized _ => True

namespace StateExpr

variable {n : Nat} {cs : List Char}

theorem brief_ofPair (frame : Option Nat) {key value : List Char} (hkey : Decimal.Brief n key)
    (hvalue : Decimal.Brief n value) : (ofPair frame key value).Brief n := by
  constructor
  · simp only [ofPair]
    exact Slot.brief_ofKey hkey
  · simp only [ofPair]
    refine Slot.brief_canonical ?_
    rw [String.toList_ofList]
    exact hvalue

theorem brief_read? {frame : Option Nat} {e : StateExpr} {more : List Char}
    (h : read? frame cs = some (e, more)) (hcs : Decimal.Brief n cs) :
    e.Brief n ∧ Decimal.Brief n more := by
  unfold read? at h
  split at h
  · next key value rest hsplit =>
    simp only [Option.some.injEq, Prod.mk.injEq] at h
    obtain ⟨rfl, rfl⟩ := h
    have hparts := split?_append hsplit
    have hkey : key <:+: cs := ⟨[], '=' :: value ++ rest, by simpa using hparts⟩
    have hvalue : value <:+: cs := ⟨key ++ ['='], rest, by simpa using hparts⟩
    have hrest : rest <:+: cs := ⟨key ++ '=' :: value, [], by simpa using hparts⟩
    exact ⟨brief_ofPair frame (hcs.of_part hkey) (hcs.of_part hvalue), hcs.of_part hrest⟩
  · cases h

theorem brief_readAll (frame : Option Nat) (hcs : Decimal.Brief n cs) :
    ∀ e ∈ (readAll frame cs).1, e.Brief n := by
  fun_induction readAll frame cs with
  | case1 => simp
  | case2 cs e rest hread _ ih =>
    obtain ⟨he, hrest⟩ := brief_read? hread hcs
    intro e' he'
    rcases List.mem_cons.mp he' with rfl | he'
    · exact he
    · exact ih (brief_skipBlanks hrest) e' he'

theorem frameDigits?_eq_some {ds more : List Char} (h : frameDigits? cs = some (ds, more)) :
    Occurs ds cs ∧ more <:+ cs := by
  obtain ⟨rfl, hdigits⟩ := append_of_frameDigits? h
  exact ⟨⟨hdigits, "frame".toList, ':' :: ' ' :: more, by simp⟩,
    "frame".toList ++ (ds ++ [':', ' ']), by simp⟩

theorem yields_readFrame (hcs : Decimal.Brief n cs) :
    Yields n (fun p => Decimal.Brief n p.2) (readFrame cs) := by
  unfold readFrame
  split
  · exact hcs
  · next digits rest hdigits =>
    obtain ⟨hoccurs, hrest⟩ := frameDigits?_eq_some hdigits
    have hread := yields_read hoccurs hcs (Nat.le_max_left n maxDigits)
    cases hi : Decimal.read digits with
    | error fault => exact hread.of_error hi
    | ok frame => exact hcs.of_part hrest.isInfix

theorem yields_readFramed (hcs : Decimal.Brief n cs) :
    Yields n (fun p => ∀ e ∈ p.1, e.Brief n) (readFramed cs) := by
  have hframe := yields_readFrame hcs
  unfold readFramed
  cases hread : readFrame cs with
  | error fault => exact hframe.of_error hread
  | ok p => exact brief_readAll p.1 (hframe.of_ok hread)

theorem yields_readBlock (markerRequired : Bool) (hcs : Decimal.Brief n cs) :
    Yields n (fun p => ∀ e ∈ p.1, e.Brief n) (readBlock markerRequired cs) := by
  unfold readBlock
  split
  · next rest hmarker =>
    exact yields_readFramed (hcs.of_part (suffix_of_isPrefixOf? hmarker).isInfix)
  · split
    · simp
    · exact yields_readFramed hcs

theorem pcDigits?_eq_some {ds more : List Char} (h : pcDigits? cs = some (ds, more)) :
    Occurs ds cs ∧ more <:+ cs := by
  unfold pcDigits? at h
  split at h
  · next hrun =>
    cases h
    exact ⟨occurs_of_run? hrun, (List.suffix_cons ':' more).trans (suffix_of_run? hrun)⟩
  · cases h

theorem yields_readBare (hcs : Decimal.Brief n cs) :
    Yields n (fun b => ∀ e ∈ b.exprs, e.Brief n) (readBare cs) := by
  unfold readBare
  split
  · simp
  · next digits rest hdigits =>
    have hskip := brief_skipBlanks hcs
    obtain ⟨hoccurs, hrest⟩ := pcDigits?_eq_some hdigits
    have hread := yields_read hoccurs hskip (Nat.le_max_left n maxDigits)
    have hframed := yields_readFramed (brief_skipBlanks (hskip.of_part hrest.isInfix))
    cases hi : Decimal.read digits with
    | error fault => exact hread.of_error hi
    | ok pc =>
      cases hf : readFramed (Text.skipBlanks rest) with
      | error fault => exact hframed.of_error hf
      | ok p => exact hframed.of_ok hf

end StateExpr

theorem brief_trim {n : Nat} {cs : List Char} (h : Decimal.Brief n cs) :
    Decimal.Brief n (Text.trim cs) := h.of_part (Text.trim_infix cs)

variable {n : Nat} {raw : List Char}

theorem SourceNote.occurs_of_split? {cs content file digits : List Char}
    (h : split? cs = some (content, file, digits)) : Occurs digits cs := by
  obtain ⟨hparts, rfl⟩ := split?_eq_some_iff.mp h
  exact ⟨hparts.decimal, ';' :: (content ++ ' ' :: '@' :: ' ' :: (file ++ [':'])), [], by simp [core]⟩

theorem SourceNote.yields_read (hraw : Brief n raw) :
    Yields n (fun _ => True) (SourceNote.read raw) := by
  unfold SourceNote.read
  split
  · trivial
  · next content file digits hsplit =>
    have hread := Decimal.yields_read (occurs_of_split? hsplit) (brief_trim hraw)
      (Nat.le_max_left n maxDigits)
    cases hi : Decimal.read digits with
    | error fault => exact hread.of_error hi
    | ok number => trivial

theorem Notice.occurs_of_globalFunction? {cs digits name : List Char}
    (h : globalFunction? cs = some (digits, name)) : Occurs digits cs := by
  unfold globalFunction? at h
  simp only [Option.bind_eq_bind, Option.bind_eq_some_iff] at h
  obtain ⟨c₁, hword, ⟨ds, c₂⟩, hrun, c₃, -, c₄, -, h⟩ := h
  split at h
  · cases h
  · cases h
    exact (occurs_of_run? hrun).of_part (suffix_of_isPrefixOf? hword).isInfix

theorem Notice.yields_read (hraw : Brief n raw) :
    Yields n (fun found => ∀ w ∈ found, (Content.notice w).Brief n) (Notice.read raw) := by
  unfold Notice.read
  split
  · next digits name hglobal =>
    have hread := Decimal.yields_read (occurs_of_globalFunction? hglobal) (brief_trim hraw)
      (Nat.le_max_left n maxDigits)
    cases hi : Decimal.read digits with
    | error fault => exact hread.of_error hi
    | ok id =>
      rintro w ⟨⟩
      trivial
  · have hbare := StateExpr.yields_readBare hraw
    split
    · next fault hfault => exact hbare.of_error hfault
    · next pc e more rest hfound =>
      rintro w ⟨⟩
      exact hbare.of_ok hfound
    · rintro w ⟨⟩

theorem Instruction.yields_finish {digits rest : List Char} (opcode : Opcode) {action : Action}
    (hraw : Brief n raw) (hdigits : Occurs digits raw) (haction : action.Below n)
    (hrest : Brief n rest) :
    Yields n (fun p => (Content.instruction p.1 p.2).Brief n)
      (Instruction.finish digits opcode action rest) := by
  have hblock := StateExpr.yields_readBlock true hrest
  have hread := Decimal.yields_read hdigits hraw (Nat.le_max_left n maxDigits)
  unfold Instruction.finish
  cases hb : StateExpr.readBlock true rest with
  | error fault => exact hblock.of_error hb
  | ok p =>
    cases hi : Decimal.read digits with
    | error fault => exact hread.of_error hi
    | ok pc => exact ⟨haction, hblock.of_ok hb⟩

theorem Instruction.head?_part {digits body : List Char} {opcode : Opcode}
    (h : Instruction.head? raw = some (digits, opcode, body)) :
    Occurs digits raw ∧ body <:+ raw := by
  unfold Instruction.head? at h
  simp only [Option.bind_eq_bind, Option.bind_eq_some_iff] at h
  obtain ⟨⟨ds, behindPc⟩, hpc, ⟨o, behindOpcode⟩, hopcode, heq⟩ := h
  cases heq
  obtain ⟨hdigits, hbehind⟩ := StateExpr.pcDigits?_eq_some hpc
  have hskip := Text.skipBlanks_suffix raw
  have hopcode : behindOpcode <:+ Text.skipBlanks behindPc := by
    unfold Instruction.opcode? at hopcode
    split at hopcode
    · next high low rest heq =>
      split at hopcode
      · obtain ⟨o, -, hpair⟩ := Option.map_eq_some_iff.mp hopcode
        cases hpair
        rw [heq]
        exact List.suffix_append ['(', high, low, ')'] behindOpcode
      · cases hopcode
    · cases hopcode
  refine ⟨hdigits.of_part hskip.isInfix, ?_⟩
  exact (Text.skipBlanks_suffix _).trans <| hopcode.trans <|
    (Text.skipBlanks_suffix _).trans (hbehind.trans hskip)

namespace Content

theorem yields_readNotice (hraw : Decimal.Brief n raw) :
    Yields n (Content.Brief n) (readNotice raw) := by
  have hnotice := Notice.yields_read hraw
  unfold readNotice
  cases hread : Notice.read raw with
  | error fault => exact hnotice.of_error hread
  | ok found =>
    cases found with
    | none => trivial
    | some w => exact hnotice.of_ok hread w rfl

theorem yields_readInstruction (hraw : Decimal.Brief n raw) :
    Yields n (Content.Brief n) (readInstruction raw) := by
  unfold readInstruction
  split
  · exact yields_readNotice hraw
  · next digits opcode body hhead =>
    obtain ⟨hdigits, hbody⟩ := Instruction.head?_part hhead
    have haccepts := Action.accepts_read opcode (hraw.of_part hbody.isInfix)
    match hread : Action.read opcode body with
    | .error (.body fault) => trivial
    | .error (.numeral fault) =>
      rw [hread] at haccepts
      exact haccepts
    | .ok (action, rest) =>
      rw [hread] at haccepts
      obtain ⟨haction, hrest⟩ := haccepts
      have hfinish := Instruction.yields_finish opcode hraw hdigits haction hrest
      simp only
      cases hf : Instruction.finish digits opcode action rest with
      | error fault => exact hfinish.of_error hf
      | ok p => exact hfinish.of_ok hf

/-- A line over a brief text is read, whatever it holds, unless a numeral is beyond the bound. -/
theorem yields_read (hraw : Decimal.Brief n raw) :
    Yields n (Content.Brief n) (Content.read raw) := by
  have hnote := SourceNote.yields_read hraw
  unfold Content.read
  cases hread : SourceNote.read raw with
  | error fault => exact hnote.of_error hread
  | ok found =>
    cases found with
    | none => exact yields_readInstruction hraw
    | some note => trivial

end Content

theorem LogLine.yields_read {raw : String} (hraw : Brief n raw.toList) (idx : Int) :
    Yields n (fun l => l.content.Brief n) (LogLine.read raw idx) := by
  have hcontent := Content.yields_read hraw
  unfold LogLine.read
  cases hread : Content.read raw.toList with
  | error fault => exact hcontent.of_error hread
  | ok content => exact hcontent.of_ok hread

end VerifierTrace
