import VerifierTrace.Form
import VerifierTrace.Proofs.Analysis.Pass
import VerifierTrace.Proofs.LogLine.Characters
import VerifierTrace.Proofs.SourceMap.Specified

/-!
# VerifierTrace.Proofs.Form.Restored

The forms of lines and of the source map, read back.

Whatever a line says, its form has bare symbols, texts, and numbers, and its lists lie at most three
deep in each other, so it is restored from what is written of it. No text leaks a line feed, and if
the lines of the log had no line break at all, neither have their forms. Numbers have at most
`Decimal.maxDigits` digits, so the index of a line has to stay below that (`Decimal.Writable`); all
other numbers are read from the log and do so anyway.

* `LogLine.readable_form`, `SourceMap.readable_form`: the forms can be read back.
* `Analysis.Restored`, `Analysis.restored`: what the export of a pass gives back.
-/

namespace VerifierTrace

open Sexp (Readable keyword texts)

variable {P : Char → Prop} {Q : Int → Prop}

/-! ## Lines -/

theorem Sexp.readable_texts {n : Nat} {xs : List String} (h : ∀ x ∈ xs, ∀ c ∈ x.toList, P c) :
    Readable P Q (n + 1) (texts xs) := by
  refine .list fun e he => ?_
  obtain ⟨x, hx, rfl⟩ := List.mem_map.mp he
  exact .text (h x hx)

theorem StateExpr.readable_forms {n : Nat} {exprs : List StateExpr} (h : ∀ e ∈ exprs, e.Over P) :
    Readable P Q (n + 2) (StateExpr.forms exprs) := by
  refine .list fun e he => ?_
  obtain ⟨x, hx, rfl⟩ := List.mem_map.mp he
  refine Sexp.readable_texts ?_
  simp only [List.forall_mem_cons]
  exact ⟨(h x hx).slot, (h x hx).value, by simp⟩

theorem Action.isBare_fineLabel (a : Action) : Sexp.isBare a.fineLabel.toList = true := by
  have hlabels : ∀ label ∈ ["ALU", "ADDR_SPACE_CAST", "EXIT", "UNCONDITIONAL_GOTO", "MAY_GOTO",
      "GOTO_OR_NOP", "CONDITIONAL_GOTO", "HELPER_CALL", "SUBPROGRAM_CALL"],
      Sexp.isBare label.toList = true := by decide
  refine hlabels _ ?_
  cases a with
  | goto word target extent => cases word <;> simp [fineLabel, GotoWord.label]
  | compute | cast | exit | branch | callHelper | callSubprogram => simp [fineLabel]

theorem SourceNote.over_id (hP : Text.Closed P) {note : SourceNote}
    (h : ∀ c ∈ note.file.toList, P c) : ∀ c ∈ note.id.toList, P c := by
  have hnumber : toString note.number = toString (note.number : Int) := rfl
  rw [id, hnumber]
  simp only [String.toList_append, List.forall_mem_append]
  refine ⟨⟨h, fun c hc => hP.ascii c ?_⟩, fun c hc => hP.ascii c ?_⟩
  · rw [List.mem_singleton.mp hc]
    decide
  · exact Text.isPrintableAscii_of_mem_toString hc

namespace LogLine

variable (hP : Text.Closed P) (hQ : ∀ n : Nat, Decimal.Writable n → Q n)

include hP hQ

theorem readable_contentForm {raw : String} {content : Content} (hraw : ∀ c ∈ raw.toList, P c)
    (h : content.Over P) : ∀ e ∈ contentForm raw content, Readable P Q 2 e := by
  match content with
  | .instruction ins exprs =>
    have hpc : Q (ins.pc.getD 0 : Nat) := by
      cases hpc : ins.pc with
      | none => exact hQ 0 Decimal.writable_zero
      | some pc => exact hQ pc (h.1 pc hpc)
    have hreads : ∀ k ∈ ins.reads, ∀ c ∈ k.toList, P c :=
      fun k hk => (Action.isAscii_of_mem_reads hk).over hP
    have hwrites : ∀ k ∈ ins.writes, ∀ c ∈ k.toList, P c :=
      fun k hk => (Action.isAscii_of_mem_writes hk).over hP
    simp only [contentForm, List.forall_mem_cons]
    exact ⟨.symbol (by decide), .symbol (by decide), .number hpc, .symbol (by decide),
      .symbol ins.action.isBare_fineLabel, .symbol (by decide), Sexp.readable_texts hreads,
      .symbol (by decide), Sexp.readable_texts hwrites, .symbol (by decide),
      StateExpr.readable_forms h.2, .symbol (by decide), .text hraw, by simp⟩
  | .source note =>
    obtain ⟨hfile, hcontent, -⟩ := h
    simp only [contentForm, List.forall_mem_append, List.forall_mem_cons]
    refine ⟨⟨.symbol (by decide), .symbol (by decide), .text (SourceNote.over_id hP hfile),
      .symbol (by decide), .text hcontent, by simp⟩, ?_⟩
    split
    · rw [List.forall_mem_singleton]
      exact .symbol (by decide)
    · simp
  | .notice (.globalFunction id name) =>
    simp only [contentForm, List.forall_mem_cons]
    exact ⟨.symbol (by decide), .symbol (by decide), .text h.1, .symbol (by decide),
      .number (hQ id h.2), by simp⟩
  | .notice (.stateBlock pc exprs) =>
    simp only [contentForm, List.forall_mem_cons]
    exact ⟨.symbol (by decide), .symbol (by decide), StateExpr.readable_forms h.2,
      .symbol (by decide), .number (hQ pc h.1), by simp⟩
  | .unrecognized fault =>
    simp only [contentForm, List.forall_mem_cons]
    exact ⟨.symbol (by decide), .symbol (by decide), .text hraw, by simp⟩

theorem readable_form {l : LogLine} (hraw : ∀ c ∈ l.raw.toList, P c) (h : l.content.Over P)
    (hidx : Q l.idx) : Readable P Q 3 l.form := by
  refine .list ?_
  rw [List.forall_mem_cons, List.forall_mem_cons]
  exact ⟨.symbol (by decide), .number hidx, readable_contentForm hP hQ hraw h⟩

end LogLine

/-! ## Source maps -/

namespace SourceMap

/-- The numbers of log lines and of source lines in the map are of `Q`. -/
structure Within (Q : Int → Prop) (m : SourceMap) : Prop where
  lines : ∀ id, ∀ i ∈ m.logLines id, Q i
  ranges : ∀ file range, m.range? file = some range → Q range.1 ∧ Q range.2

variable {m : SourceMap}

theorem within_widen {range : Option (Nat × Nat)} {n : Nat}
    (h : ∀ r, range = some r → Q r.1 ∧ Q r.2) (hn : Q n) :
    Q (widen range n).1 ∧ Q (widen range n).2 := by
  cases range with
  | none => exact ⟨hn, hn⟩
  | some r =>
    obtain ⟨hlow, hhigh⟩ := h r rfl
    simp only [widen, Nat.min_def, Nat.max_def]
    constructor
    · split
      · exact hlow
      · exact hn
    · split
      · exact hn
      · exact hhigh

theorem Within.add (h : m.Within Q) {a : Announcement} (ha : Q a.note.number) {idxs : List Int}
    (hidxs : ∀ i ∈ idxs, Q i) : (m.add a idxs).Within Q where
  lines := by
    intro id i hi
    rcases (mem_logLines_add m a idxs id i).mp hi with hi | ⟨-, hi⟩
    · exact h.lines id i hi
    · exact hidxs i hi
  ranges := by
    intro file range hrange
    rw [range?_add] at hrange
    split at hrange
    · cases hrange
      exact within_widen (h.ranges file) ha
    · exact h.ranges file range hrange

/-- The map has no numbers but those of lines and of source notes. -/
theorem within_ofLines {lines : List LogLine} (hn : LogLine.Numbered lines)
    (hidx : ∀ l ∈ lines, Q l.idx) (hnotes : ∀ a ∈ notes lines, Q a.note.number) :
    (ofLines lines).Within Q := by
  induction lines using List.reverseRecOn with
  | nil =>
    constructor
    · rintro id i hi
      cases hi
    · rintro file range hrange
      cases hrange
  | append_singleton lines line ih =>
    rw [notes_concat] at hnotes
    simp only [List.forall_mem_append] at hidx hnotes
    have hfront := hn.of_concat.1
    have hm := ih hfront hidx.1 hnotes.1
    rw [ofLines_concat hfront]
    unfold absorb
    split
    · next a hnote =>
      exact hm.add (hnotes.2 a (by rw [hnote]; simp)) (by simp)
    · next a _ hforce =>
      split
      · exact hm.add (hnotes.1 a (mem_notes_of_inForce? hforce)) (by simpa using hidx.2)
      · exact hm
    · exact hm

theorem readable_form (h : m.Within Q) : Readable (fun _ => True) Q 4 m.form := by
  have htext : ∀ {n : Nat} (s : String), Readable (fun _ => True) Q n (.text s) :=
    fun s => .text fun _ _ => trivial
  have hsources : ∀ e ∈ m.sources.entries.map fun e => Sexp.list [.text e.1, .text e.2.note.content,
      .list ((m.logLines e.1).map .number)], Readable (fun _ => True) Q 2 e := by
    intro e he
    obtain ⟨x, -, rfl⟩ := List.mem_map.mp he
    refine .list ?_
    simp only [List.forall_mem_cons]
    refine ⟨htext _, htext _, .list ?_, by simp⟩
    intro e he
    obtain ⟨i, hi, rfl⟩ := List.mem_map.mp he
    exact .number (h.lines x.1 i hi)
  have hranges : ∀ e ∈ m.ranges.entries.map fun e => Sexp.list [.text e.1, .number (e.2.1 : Nat),
      .number (e.2.2 : Nat)], Readable (fun _ => True) Q 2 e := by
    intro e he
    obtain ⟨x, hx, rfl⟩ := List.mem_map.mp he
    obtain ⟨hlow, hhigh⟩ := h.ranges x.1 x.2 ((Table.mem_entries_iff _ _ _).mp hx)
    refine .list ?_
    simp only [List.forall_mem_cons]
    exact ⟨htext _, .number hlow, .number hhigh, by simp⟩
  refine .list ?_
  simp only [List.forall_mem_cons]
  exact ⟨.symbol (by decide), .symbol (by decide), .list hsources, .symbol (by decide),
    .list hranges, by simp⟩

theorem load_writeForm (h : m.Within Decimal.Writable) :
    Sexp.load m.writeForm.toList = .ok m.form.plain := by
  rw [writeForm, Sexp.write, String.toList_ofList]
  exact (readable_form h).load_chars (by decide)

end SourceMap

/-! ## A pass -/

namespace Analysis

variable {config : Config} {raws : List String} {a : Analysis}

/-- The lines of a pass have the texts of the log, in a class of characters that the texts are of. -/
theorem over_of_run (hP : Text.Closed P) (h : run config raws = .ok a)
    (hraws : ∀ raw ∈ raws, ∀ c ∈ raw.toList, P c) :
    ∀ l ∈ a.lines, (∀ c ∈ l.raw.toList, P c) ∧ l.content.Over P := by
  obtain ⟨read, hread, hlines, -⟩ := run_ok h
  obtain ⟨htexts, hcontents⟩ := read_of_readFrom hread
  have hraw : ∀ l ∈ read, ∀ c ∈ l.raw.toList, P c := by
    intro l hl
    exact hraws l.raw (htexts ▸ List.mem_map_of_mem hl)
  have hover : ∀ l ∈ read, l.content.Over P := fun l hl =>
    Content.over_of_partOf hP (hraw l hl) (Content.partOf_of_read (hcontents l hl))
  intro l hl
  have hmem : l.raw ∈ raws := map_raw_of_run h ▸ List.mem_map_of_mem hl
  rw [hlines] at hl
  exact ⟨hraws l.raw hmem, Notice.over_settled hover l hl⟩

theorem length_lines_of_run (h : run config raws = .ok a) : a.lines.length = raws.length := by
  rw [← map_raw_of_run h, List.length_map]

/-- The pieces of the export of the lines between its line feeds. -/
def pieces (a : Analysis) : List (List Char) := (LogLine.writeForms a.lines).toList.splitOn '\n'

/-- What the export of the lines of a pass, and that of its source map, give back. -/
structure Restored (raws : List String) (a : Analysis) : Prop where
  /-- Every line of the log has its piece. -/
  count : a.pieces.length = raws.length
  /-- A piece is read as the form of its line, if the index of the line can be written at all. -/
  line : ∀ i < raws.length, Decimal.Writable i →
    ∃ l piece, a.lines[i]? = some l ∧ a.pieces[i]? = some piece ∧ Sexp.load piece = .ok l.form.plain
  /-- If the log is a text taken line by line, the export has no line breaks but those between its
  pieces. -/
  rows : ∀ text, raws = Text.linesOf text →
    Text.lines (LogLine.writeForms a.lines).toList = a.pieces
  sourceMap : raws.length ≤ 10 ^ Decimal.maxDigits →
    Sexp.load a.sourceMap.writeForm.toList = .ok a.sourceMap.form.plain

theorem readable_of_run (hP : Text.Closed P) (hQ : ∀ n : Nat, Decimal.Writable n → Q n)
    (h : run config raws = .ok a) (hraws : ∀ raw ∈ raws, ∀ c ∈ raw.toList, P c) {l : LogLine}
    (hl : l ∈ a.lines) (hidx : Q l.idx) : Readable P Q 3 l.form := by
  obtain ⟨hraw, hcontent⟩ := over_of_run hP h hraws l hl
  exact LogLine.readable_form hP hQ hraw hcontent hidx

theorem pieces_of_run (h : run config raws = .ok a) (hne : raws ≠ []) :
    a.pieces = a.lines.map fun l => l.form.chars := by
  have hlines : a.lines ≠ [] := by
    intro hnil
    have hlength := length_lines_of_run h
    rw [hnil] at hlength
    exact hne (List.eq_nil_of_length_eq_zero hlength.symm)
  have hforms : ∀ e ∈ a.lines.map LogLine.form, Readable (fun _ => True) (fun _ => True) 3 e := by
    intro e he
    obtain ⟨l, hl, rfl⟩ := List.mem_map.mp he
    exact readable_of_run Text.closed_true (fun _ _ => trivial) h (fun _ _ _ _ => trivial) hl trivial
  rw [pieces, LogLine.writeForms, Sexp.splitOn_writeLines (by simpa using hlines) hforms,
    List.map_map]
  rfl

/-- The forms of unbroken lines are the lines of what they make up. -/
theorem lines_of_run (h : run config raws = .ok a)
    (hraws : ∀ raw ∈ raws, Text.Unbroken raw.toList) :
    Text.lines (LogLine.writeForms a.lines).toList = a.lines.map fun l => l.form.chars := by
  rw [LogLine.writeForms, Sexp.toList_writeLines, List.map_map, Text.lines_intercalate]
  · rfl
  · intro part hpart
    obtain ⟨l, hl, rfl⟩ := List.mem_map.mp hpart
    have hform : Readable (fun c => Text.isLineBreak c = false) (fun _ => True) 3 l.form :=
      readable_of_run Text.closed_unbroken (fun _ _ => trivial) h hraws hl trivial
    refine ⟨by simp [LogLine.form, Sexp.chars], fun c hc => ?_⟩
    rcases hform.mem_chars hc with hc | ⟨hc, -⟩
    · exact Text.closed_unbroken.ascii c hc
    · exact hc

theorem within_sourceMap (h : run config raws = .ok a)
    (hcount : raws.length ≤ 10 ^ Decimal.maxDigits) : a.sourceMap.Within Decimal.Writable := by
  have hover := over_of_run Text.closed_true h fun _ _ _ _ => trivial
  refine SourceMap.within_ofLines (numbered_of_run h) ?_ ?_
  · intro l hl
    obtain ⟨i, hi⟩ := List.mem_iff_getElem?.mp hl
    obtain ⟨hlt, -⟩ := List.getElem?_eq_some_iff.mp hi
    rw [numbered_of_run h i l hi]
    rw [length_lines_of_run h] at hlt
    exact Nat.lt_of_lt_of_le hlt hcount
  · intro note hnote
    obtain ⟨l, hl, hnote⟩ := List.mem_filterMap.mp hnote
    obtain ⟨-, hcontent⟩ := hover l hl
    unfold LogLine.announcement? at hnote
    split at hnote
    · next hsource =>
      cases hnote
      rw [hsource] at hcontent
      exact hcontent.2.2
    · cases hnote

/-- Nothing of a log that a pass goes through is lost in its export, and nothing of any source map
whose numbers can be written. -/
theorem restored (h : run config raws = .ok a) (hne : raws ≠ []) :
    Restored raws a ∧ ∀ m : SourceMap, m.Within Decimal.Writable →
      Sexp.load m.writeForm.toList = .ok m.form.plain := by
  have hpieces := pieces_of_run h hne
  have hlength := length_lines_of_run h
  refine ⟨⟨?count, ?line, ?rows, ?sourceMap⟩, fun m hm => SourceMap.load_writeForm hm⟩
  case count => rw [hpieces, List.length_map, hlength]
  case line =>
    intro i hi hwritable
    rw [← hlength] at hi
    obtain ⟨l, hl⟩ : ∃ l, a.lines[i]? = some l := ⟨_, List.getElem?_eq_getElem hi⟩
    refine ⟨l, l.form.chars, hl, ?_, ?_⟩
    · rw [hpieces, List.getElem?_map, hl]
      rfl
    · have hform : Readable (fun _ => True) Decimal.Writable 3 l.form := by
        refine readable_of_run Text.closed_true (fun _ hn => hn) h (fun _ _ _ _ => trivial)
          (List.mem_of_getElem? hl) ?_
        rw [numbered_of_run h i l hl]
        exact hwritable
      exact hform.load_chars (by decide)
  case rows =>
    rintro text rfl
    rw [hpieces]
    refine lines_of_run h fun raw hraw => ?_
    obtain ⟨cs, hcs, rfl⟩ := List.mem_map.mp hraw
    rw [String.toList_ofList]
    exact Text.unbroken_of_mem_lines hcs
  case sourceMap =>
    intro hcount
    exact SourceMap.load_writeForm (within_sourceMap h hcount)

/-- A log with quotes, backslashes, brackets and a semicolon in its texts. -/
def escapingLog : List String :=
  ["; x = \"a\\n\"; @ f.c:3", "0: (b7) r2 = 1 ; R2_w=(\"\\\";) fp0=\\", "1: (85) call pc+1",
    "Func#1 ('(x\\\"') is global and assumed valid.", "?\x01\n\t", ""]

theorem escapingLog_restored : ∃ a, run {} escapingLog = .ok a ∧ a.sourceMap.sources.size = 1 ∧
    Restored escapingLog a ∧ Sexp.load a.sourceMap.writeForm.toList = .ok a.sourceMap.form.plain := by
  have hrun : run {} escapingLog = .ok (ofLog {} escapingLog) := run_ofLog (by decide +kernel)
  obtain ⟨hrestored, hmap⟩ := restored hrun (by decide)
  have hcount : escapingLog.length ≤ 10 ^ Decimal.maxDigits :=
    Nat.le_of_lt (Decimal.writable_of_le (by decide))
  exact ⟨_, hrun, by decide +kernel, hrestored, hmap _ (within_sourceMap hrun hcount)⟩

end Analysis
end VerifierTrace
