import VerifierTrace.Proofs.Instruction.Tail
import VerifierTrace.Proofs.LogLine.Brief

/-!
# VerifierTrace.Proofs.LogLine.Parts

What a line holds comes from parts of its text.

The reader makes up nothing: keys, values, names and the content of a source note stand in the line
as they are, a number is what some digits of the line spell, and the text at which an instruction does
not fit is the end of the line.

* `Content.PartOf raw`: that, for each form of a line.
* `Content.partOf_of_read`: so is whatever is read.
-/

namespace VerifierTrace

/-- The number is what digits in the text spell. -/
def Decimal.Spelled (cs : List Char) (n : Nat) : Prop := ∃ ds, Occurs ds cs ∧ Decimal.read ds = .ok n

theorem Decimal.Spelled.writable {cs : List Char} {n : Nat} (h : Spelled cs n) : Writable n := by
  obtain ⟨ds, hds, hread⟩ := h
  obtain ⟨hlen, rfl⟩ := read_ok_iff.mp hread
  refine writable_natCast (Nat.lt_of_lt_of_le (value_lt hds.1) ?_)
  exact Nat.pow_le_pow_right (by decide) hlen

/-- The key and the value of the fact stand in the text, and the key has the characters of keys. -/
def StateExpr.PartOf (cs : List Char) (e : StateExpr) : Prop :=
  ∃ frame key value, e = ofPair frame key value ∧ (∀ c ∈ key, isKeyChar c = true) ∧
    key <:+: cs ∧ value <:+: cs

/-- What the line holds stands in the text. -/
def Content.PartOf (raw : List Char) : Content → Prop
  | .instruction ins exprs => (∀ pc ∈ ins.pc, Decimal.Spelled raw pc) ∧ ∀ e ∈ exprs, e.PartOf raw
  | .source note => note.file.toList <:+: raw ∧ note.content.toList <:+: raw ∧
      Decimal.Spelled raw note.number
  | .notice (.globalFunction id name) => name.toList <:+: raw ∧ Decimal.Spelled raw id
  | .notice (.stateBlock pc exprs) => Decimal.Spelled raw pc ∧ ∀ e ∈ exprs, e.PartOf raw
  | .unrecognized fault? => ∀ fault ∈ fault?, fault.text <:+ raw

variable {raw cs part : List Char}

theorem Decimal.Spelled.of_part {n : Nat} (h : Spelled part n) (hpart : part <:+: cs) :
    Spelled cs n := by
  obtain ⟨ds, hds, hread⟩ := h
  exact ⟨ds, hds.of_part hpart, hread⟩

namespace StateExpr

theorem PartOf.of_part {e : StateExpr} (h : PartOf part e) (hpart : part <:+: cs) : PartOf cs e := by
  obtain ⟨frame, key, value, rfl, hchars, hkey, hvalue⟩ := h
  exact ⟨frame, key, value, rfl, hchars, hkey.trans hpart, hvalue.trans hpart⟩

theorem isKeyChar_of_split? {key value rest : List Char}
    (h : split? cs = some (key, value, rest)) : ∀ c ∈ key, isKeyChar c = true := by
  unfold split? at h
  split at h
  · next k tail more hkey _ =>
    simp only [Option.some.injEq, Prod.mk.injEq] at h
    obtain ⟨rfl, -⟩ := h
    rw [← hkey]
    exact fun c hc => List.mem_takeWhile_imp hc
  · cases h

theorem partOf_of_read? {frame : Option Nat} {e : StateExpr} {rest : List Char}
    (h : read? frame cs = some (e, rest)) : e.PartOf cs ∧ rest <:+ cs := by
  unfold read? at h
  split at h
  · next key value more hsplit =>
    simp only [Option.some.injEq, Prod.mk.injEq] at h
    obtain ⟨rfl, rfl⟩ := h
    have hparts := split?_append hsplit
    refine ⟨⟨frame, key, value, rfl, isKeyChar_of_split? hsplit, ?_, ?_⟩, key ++ '=' :: value,
      hparts⟩
    · exact ⟨[], '=' :: value ++ more, by simpa using hparts⟩
    · exact ⟨key ++ ['='], more, by simpa using hparts⟩
  · cases h

theorem partOf_readAll (frame : Option Nat) (cs : List Char) :
    ∀ e ∈ (readAll frame cs).1, e.PartOf cs := by
  fun_induction readAll frame cs with
  | case1 => simp
  | case2 cs e rest hread _ ih =>
    obtain ⟨he, hrest⟩ := partOf_of_read? hread
    intro e' he'
    rcases List.mem_cons.mp he' with rfl | he'
    · exact he
    · exact (ih e' he').of_part ((Text.skipBlanks_suffix rest).trans hrest).isInfix

theorem partOf_of_readFramed {p : List StateExpr × List Char} (h : readFramed cs = .ok p) :
    ∀ e ∈ p.1, e.PartOf cs := by
  unfold readFramed readFrame at h
  split at h
  · cases h
  · next frame rest hframe =>
    cases h
    have hrest : rest <:+ cs := by
      split at hframe
      · cases hframe
        exact List.suffix_refl _
      · next hdigits =>
        split at hframe
        · cases hframe
        · cases hframe
          exact (frameDigits?_eq_some hdigits).2
    intro e he
    exact (partOf_readAll frame rest e he).of_part hrest.isInfix

theorem partOf_of_readBlock {required : Bool} {p : List StateExpr × List Char}
    (h : readBlock required cs = .ok p) : ∀ e ∈ p.1, e.PartOf cs := by
  unfold readBlock at h
  split at h
  · next rest hmarker =>
    intro e he
    exact (partOf_of_readFramed h e he).of_part (suffix_of_isPrefixOf? hmarker).isInfix
  · split at h
    · cases h
      intro e he
      cases he
    · exact partOf_of_readFramed h

theorem partOf_of_readBare {b : Bare} (h : readBare cs = .ok b) :
    (∀ pc ∈ b.pc, Decimal.Spelled cs pc) ∧ ∀ e ∈ b.exprs, e.PartOf cs := by
  unfold readBare at h
  split at h
  · cases h
    simp
  · next digits rest hdigits =>
    obtain ⟨hoccurs, hrest⟩ := pcDigits?_eq_some hdigits
    have hskip := Text.skipBlanks_suffix cs
    split at h
    · cases h
    · next pc hpc =>
      split at h
      · cases h
      · next exprs more hframed =>
        cases h
        constructor
        · rintro pc' ⟨⟩
          exact ⟨digits, hoccurs.of_part hskip.isInfix, hpc⟩
        · intro e he
          refine (partOf_of_readFramed hframed e he).of_part ?_
          exact ((Text.skipBlanks_suffix rest).trans (hrest.trans hskip)).isInfix

end StateExpr

theorem SourceNote.part_of_split? {content file digits : List Char}
    (h : split? cs = some (content, file, digits)) : content <:+: cs ∧ file <:+: cs := by
  obtain ⟨-, rfl⟩ := split?_eq_some_iff.mp h
  exact ⟨⟨[';'], ' ' :: '@' :: ' ' :: (file ++ ':' :: digits), by simp [core]⟩,
    ';' :: (content ++ [' ', '@', ' ']), ':' :: digits, by simp [core]⟩

theorem SourceNote.partOf_of_read {note : SourceNote} (h : SourceNote.read raw = .ok (some note)) :
    (Content.source note).PartOf raw := by
  unfold SourceNote.read at h
  split at h
  · cases h
  · next content file digits hsplit =>
    obtain ⟨hcontent, hfile⟩ := part_of_split? hsplit
    have htrim := Text.trim_infix raw
    split at h
    · cases h
    · next number hnumber =>
      cases h
      refine ⟨?_, ?_, digits, (occurs_of_split? hsplit).of_part htrim, hnumber⟩
      · rw [String.toList_ofList]
        exact hfile.trans htrim
      · rw [String.toList_ofList]
        exact (Text.trim_infix content).trans (hcontent.trans htrim)

theorem Notice.part_of_globalFunction? {digits name : List Char}
    (h : globalFunction? cs = some (digits, name)) : name <:+: cs := by
  unfold globalFunction? at h
  simp only [Option.bind_eq_bind, Option.bind_eq_some_iff] at h
  obtain ⟨c₁, hword, ⟨ds, c₂⟩, hrun, c₃, hquote, c₄, -, h⟩ := h
  split at h
  · cases h
  · cases h
    have hc₃ : c₃ <:+ cs := (suffix_of_isPrefixOf? hquote).trans <|
      (suffix_of_run? hrun).trans (suffix_of_isPrefixOf? hword)
    exact (List.takeWhile_prefix _).isInfix.trans hc₃.isInfix

theorem Notice.partOf_of_read {w : Notice} (h : Notice.read raw = .ok (some w)) :
    (Content.notice w).PartOf raw := by
  unfold Notice.read at h
  split at h
  · next digits name hglobal =>
    have htrim := Text.trim_infix raw
    split at h
    · cases h
    · next id hid =>
      cases h
      refine ⟨?_, digits, (occurs_of_globalFunction? hglobal).of_part htrim, hid⟩
      rw [String.toList_ofList]
      exact (part_of_globalFunction? hglobal).trans htrim
  · split at h
    · cases h
    · next pc e more rest hbare =>
      cases h
      obtain ⟨hpc, hexprs⟩ := StateExpr.partOf_of_readBare hbare
      exact ⟨hpc pc rfl, hexprs⟩
    · cases h

theorem Instruction.partOf_of_finish {digits rest : List Char} {opcode : Opcode} {action : Action}
    {p : Instruction × List StateExpr} (hdigits : Decimal.Occurs digits raw) (hrest : rest <:+ raw)
    (h : Instruction.finish digits opcode action rest = .ok p) :
    (Content.instruction p.1 p.2).PartOf raw := by
  unfold Instruction.finish at h
  split at h
  · cases h
  · next exprs more hblock =>
    split at h
    · cases h
    · next pc hpc =>
      cases h
      constructor
      · rintro pc' ⟨⟩
        exact ⟨digits, hdigits, hpc⟩
      · intro e he
        exact (StateExpr.partOf_of_readBlock hblock e he).of_part hrest.isInfix

namespace Content

theorem partOf_of_readNotice {content : Content} (h : readNotice raw = .ok content) :
    content.PartOf raw := by
  unfold readNotice at h
  split at h
  · cases h
  · next w hread =>
    cases h
    exact Notice.partOf_of_read hread
  · cases h
    rintro fault ⟨⟩

theorem partOf_of_readInstruction {content : Content} (h : readInstruction raw = .ok content) :
    content.PartOf raw := by
  unfold readInstruction at h
  split at h
  · exact partOf_of_readNotice h
  · next digits opcode body hhead =>
    obtain ⟨hdigits, hbody⟩ := Instruction.head?_part hhead
    have htails := Action.tails_read opcode body
    split at h
    · next fault hread =>
      cases h
      rw [hread] at htails
      rintro fault' ⟨⟩
      exact htails.trans hbody
    · cases h
    · next action rest hread =>
      rw [hread] at htails
      split at h
      · cases h
      · next ins exprs hfinish =>
        cases h
        exact Instruction.partOf_of_finish hdigits (htails.trans hbody) hfinish

/-- What is read of a line stands in it. -/
theorem partOf_of_read {content : Content} (h : Content.read raw = .ok content) :
    content.PartOf raw := by
  unfold Content.read at h
  split at h
  · cases h
  · next note hread =>
    cases h
    exact SourceNote.partOf_of_read hread
  · exact partOf_of_readInstruction h

end Content
end VerifierTrace
