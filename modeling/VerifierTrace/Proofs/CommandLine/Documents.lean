import Mathlib.Data.List.Forall2
import VerifierTrace.CommandLine.Answer
import VerifierTrace.Proofs.Form.Restored
import VerifierTrace.Proofs.Json.RoundTrip

/-!
# VerifierTrace.Proofs.CommandLine.Documents

What the documents about the origin of a value look like, character by character.

Every line that the origin names is found in the log, so there is a row or a form for each of them,
and in their order. No document ends in a line feed, so the one that closes the last line is added to
all of them.

* `ShowsRow`, `ShowsForm`: what stands for a line in a summary and among S-expressions.
* `Lists`: the whole text in a format.
* `lists_summary`, `lists_json`, `lists_sexp`: the answer, with its last line closed, is that text.
-/

namespace VerifierTrace

/-! ## The last line of a text -/

namespace Text

/-- The text ends in a character that is no line feed. -/
def Unclosed (s : String) : Prop := ∃ c, s.toList.getLast? = some c ∧ c ≠ '\n'

theorem Unclosed.closed_eq {s : String} (h : Unclosed s) : closed s = s ++ "\n" := by
  obtain ⟨c, hlast, hc⟩ := h
  rw [closed, if_neg]
  rw [hlast]
  exact fun hfeed => hc (Option.some.inj hfeed)

theorem Unclosed.append {t : String} (h : Unclosed t) (s : String) : Unclosed (s ++ t) := by
  obtain ⟨c, hlast, hc⟩ := h
  exact ⟨c, by rw [String.toList_append, List.getLast?_append, hlast, Option.some_or], hc⟩

theorem unclosed_of_not_mem {s : String} (hne : s.toList ≠ []) (h : '\n' ∉ s.toList) :
    Unclosed s := by
  refine ⟨s.toList.getLast hne, List.getLast?_eq_some_getLast hne, ?_⟩
  intro hlast
  exact h (hlast ▸ List.getLast_mem hne)

theorem unclosed_rows {r : String} {rs : List String} (h : ∀ x ∈ r :: rs, Unclosed x) :
    Unclosed (rows (r :: rs)) := by
  induction rs generalizing r with
  | nil =>
    rw [rows, String.intercalate_singleton]
    exact h r (by simp)
  | cons s rs ih =>
    have hmore := ih fun x hx => h x (List.mem_cons_of_mem r hx)
    rw [rows, String.intercalate_cons_cons]
    exact hmore.append _

/-- Rows are closed by one more line feed, also if there are none. -/
theorem closed_rows {rs : List String} (h : ∀ r ∈ rs, Unclosed r) :
    closed (rows rs) = String.intercalate "\n" rs ++ "\n" := by
  cases rs with
  | nil => rfl
  | cons r rs => exact (unclosed_rows h).closed_eq

end Text

namespace CommandLine

variable {config : Config} {raws : List String} {a : Analysis} {o : Origin}

/-! ## Rows and forms -/

/-- The index of a line at the right of six columns, two spaces, and the text of the line. -/
structure ShowsRow (raws : List String) (idx : Int) (row : String) : Prop where
  text : ∃ (i : Nat) (raw : String), idx = i ∧ raws[i]? = some raw ∧
    row = String.ofList (List.replicate (6 - (toString i).length) ' ') ++ toString i ++ "  " ++ raw
  unbroken : '\n' ∉ row.toList

/-- The form of a line begins with the index of the line, and it is read back if the index is not
too long to be written. -/
structure ShowsForm (a : Analysis) (idx : Int) (form : String) : Prop where
  text : ∃ (i : Nat) (more : String), idx = i ∧ form = "(line " ++ toString i ++ " " ++ more
  line : ∃ l, History.at? a.lines idx = some l ∧
    (Decimal.Writable idx → Sexp.load form.toList = .ok l.form.plain)
  unbroken : '\n' ∉ form.toList

theorem ShowsRow.unclosed {idx : Int} {row : String} (h : ShowsRow raws idx row) :
    Text.Unclosed row := by
  refine Text.unclosed_of_not_mem ?_ h.unbroken
  obtain ⟨i, raw, -, -, rfl⟩ := h.text
  simp

theorem ShowsForm.unclosed {idx : Int} {form : String} (h : ShowsForm a idx form) :
    Text.Unclosed form := by
  refine Text.unclosed_of_not_mem ?_ h.unbroken
  obtain ⟨i, more, -, rfl⟩ := h.text
  simp

/-- The text lists the lines of the origin in a format, in their order and no others. -/
def Lists (raws : List String) (a : Analysis) (o : Origin) (text : String) : Format → Prop
  | .summary => ∃ rows, List.Forall₂ (ShowsRow raws) o.lines rows ∧
      text = String.intercalate "\n" ((o.slot ++ " at line " ++ toString o.line ++ " (traced as " ++
        o.traced ++ "): " ++ toString o.lines.length ++ " line(s)") :: rows) ++ "\n"
  | .json => ∃ j, j = Json.object [("line", .int o.line), ("slot", .text (.plain o.slot)),
        ("traced_slot", .text (.plain o.traced)), ("dependencies", .list (o.lines.map .int))] ∧
      text = j.indented ++ "\n" ∧
        (raws.length ≤ 10 ^ Decimal.maxDigits → Json.read text.toList = .ok j)
  | .sexp => ∃ forms, List.Forall₂ (ShowsForm a) o.lines forms ∧
      text = String.intercalate "\n" forms ++ "\n"

section Lines

variable (hpass : Analysis.run config raws = .ok a) {i : Nat} {l : LogLine}
  (hl : a.lines[i]? = some l)

include hpass hl

theorem showsRow_shortRow (hraws : ∀ raw ∈ raws, Text.Unbroken raw.toList) :
    ShowsRow raws i l.shortRow := by
  have hraw : raws[i]? = some l.raw := by
    rw [← Analysis.map_raw_of_run hpass, List.getElem?_map, hl]
    rfl
  have hrow : l.shortRow =
      String.ofList (List.replicate (6 - (toString i).length) ' ') ++ toString i ++ "  " ++ l.raw := by
    rw [LogLine.shortRow, Analysis.numbered_of_run hpass i l hl]
    rfl
  refine ⟨⟨i, l.raw, rfl, hraw, hrow⟩, ?_⟩
  have hindex : '\n' ∉ Nat.toDigits 10 i := fun hmem =>
    absurd (Decimal.isDigit_of_mem_toDigits _ hmem) (by decide)
  have htext : '\n' ∉ l.raw.toList := fun hmem =>
    absurd (hraws l.raw (List.mem_of_getElem? hraw) '\n' hmem) (by decide)
  rw [hrow]
  simp [hindex, htext]

theorem showsForm_write : ShowsForm a i l.form.write := by
  have hmem := List.mem_of_getElem? hl
  have hidx := Analysis.numbered_of_run hpass i l hl
  have hwrite : l.form.write.toList = l.form.chars := String.toList_ofList
  refine ⟨?text, ⟨l, by rw [History.at?_natCast, hl], fun hwritable => ?line⟩, ?unbroken⟩
  case text =>
    obtain ⟨e, es, hcontent⟩ : ∃ e es, LogLine.contentForm l.raw l.content = e :: es := by
      match l.content with
      | .instruction .. | .source _ | .notice (.globalFunction ..) | .notice (.stateBlock ..)
      | .unrecognized _ => exact ⟨_, _, rfl⟩
    have hchars : l.form.chars = "(line ".toList ++
        ((toString i).toList ++ ' ' :: (Sexp.spaced (Sexp.itemChars (e :: es)) ++ [')'])) := by
      rw [LogLine.form, hcontent, hidx, ← List.append_nil (Sexp.chars _), Sexp.chars_list_append,
        Sexp.spaced_cons_cons_append, Sexp.spaced_cons_cons_append]
      rfl
    refine ⟨i, String.ofList (Sexp.spaced (Sexp.itemChars (e :: es)) ++ [')']), rfl, ?_⟩
    have hspace : (" ":String).toList = [' '] := rfl
    rw [← String.toList_inj, hwrite, hchars]
    simp only [String.toList_append, String.toList_ofList, hspace, List.append_assoc,
      List.cons_append, List.nil_append]
  case line =>
    have hform : Sexp.Readable (fun _ => True) Decimal.Writable 3 l.form :=
      Analysis.readable_of_run Text.closed_true (fun _ hn => hn) hpass (fun _ _ _ _ => trivial)
        hmem (by rwa [hidx])
    rw [hwrite]
    exact hform.load_chars (by decide)
  case unbroken =>
    have hform : Sexp.Readable (fun _ => True) (fun _ => True) 3 l.form :=
      Analysis.readable_of_run Text.closed_true (fun _ _ => trivial) hpass
        (fun _ _ _ _ => trivial) hmem trivial
    rw [hwrite]
    exact hform.feed_not_mem_chars

end Lines

/-! ## Documents -/

/-- The line that was asked for and the lines of the origin are lines of the log. -/
structure InLog (a : Analysis) (o : Origin) : Prop where
  line : ∃ i : Nat, o.line = i ∧ i < a.lines.length
  lines : ∀ idx ∈ o.lines, ∃ (i : Nat) (l : LogLine), idx = i ∧ a.lines[i]? = some l

theorem forall₂_logLines (h : InLog a o) : List.Forall₂
    (fun (idx : Int) l => ∃ i : Nat, idx = i ∧ a.lines[i]? = some l) o.lines (o.logLines a) := by
  have hlines := h.lines
  unfold Origin.logLines
  generalize o.lines = idxs at hlines
  induction idxs with
  | nil => exact .nil
  | cons idx more ih =>
    obtain ⟨⟨i, l, rfl, hl⟩, hmore⟩ := List.forall_mem_cons.mp hlines
    rw [List.filterMap_cons, History.at?_natCast, hl]
    exact .cons ⟨i, rfl, hl⟩ (ih hmore)

theorem exists_of_mem_logLines {l : LogLine} (hl : l ∈ o.logLines a) :
    ∃ i : Nat, a.lines[i]? = some l := by
  obtain ⟨idx, -, hat⟩ := List.mem_filterMap.mp hl
  obtain ⟨i, -, hi⟩ := History.at?_eq_some hat
  exact ⟨i, hi⟩

theorem lists_summary (hpass : Analysis.run config raws = .ok a)
    (hraws : ∀ raw ∈ raws, Text.Unbroken raw.toList) (ho : InLog a o) :
    Lists raws a o (Text.closed (Answer.origin a o .summary)) .summary := by
  refine ⟨(o.logLines a).map LogLine.shortRow, ?_, ?_⟩
  · refine List.forall₂_map_right_iff.mpr ((forall₂_logLines ho).imp ?_)
    rintro _ l ⟨i, rfl, hl⟩
    exact showsRow_shortRow hpass hl hraws
  · refine Text.closed_rows (List.forall_mem_cons.mpr ⟨?_, List.forall_mem_map.mpr fun l hl => ?_⟩)
    · exact Text.Unclosed.append ⟨')', rfl, by decide⟩ _
    · obtain ⟨i, hi⟩ := exists_of_mem_logLines hl
      exact (showsRow_shortRow hpass hi hraws).unclosed

theorem lists_sexp (hpass : Analysis.run config raws = .ok a) (ho : InLog a o) :
    Lists raws a o (Text.closed (Answer.origin a o .sexp)) .sexp := by
  refine ⟨(o.logLines a).map fun l => l.form.write, ?_, ?_⟩
  · refine List.forall₂_map_right_iff.mpr ((forall₂_logLines ho).imp ?_)
    rintro _ l ⟨i, rfl, hl⟩
    exact showsForm_write hpass hl
  · have hrows : Answer.origin a o .sexp = Text.rows ((o.logLines a).map fun l => l.form.write) := by
      rw [Answer.origin, LogLine.writeForms, Sexp.writeLines, List.map_map]
      rfl
    rw [hrows]
    refine Text.closed_rows (List.forall_mem_map.mpr fun l hl => ?_)
    obtain ⟨i, hi⟩ := exists_of_mem_logLines hl
    exact (showsForm_write hpass hi).unclosed

theorem lists_json (hpass : Analysis.run config raws = .ok a) (ho : InLog a o) :
    Lists raws a o (Text.closed (Answer.origin a o .json)) .json := by
  have hclosed : Text.closed o.record.indented = o.record.indented ++ "\n" := by
    obtain ⟨front, hfront⟩ : ∃ front, o.record.indented = front ++ "\x7d" := ⟨_, rfl⟩
    refine Text.Unclosed.closed_eq ?_
    rw [hfront]
    exact Text.Unclosed.append ⟨'\x7d', rfl, by decide⟩ _
  refine ⟨o.record, rfl, hclosed, fun hcount => ?_⟩
  have hwritable : ∀ i : Nat, i < a.lines.length → Decimal.Writable i := by
    intro i hi
    rw [Analysis.length_lines_of_run hpass] at hi
    exact Decimal.writable_natCast (Nat.lt_of_lt_of_le hi hcount)
  have hreadable : Json.Readable Json.maxDepth o.record := by
    show Json.Readable (986 + 1 + 1) o.record
    obtain ⟨i, hi, hlt⟩ := ho.line
    refine .object (show ["line", "slot", "traced_slot", "dependencies"].Nodup by decide) ?_
    simp only [List.forall_mem_cons]
    refine ⟨.int (by rw [hi]; exact hwritable i hlt), .text, .text, .list ?_, by simp⟩
    refine List.forall_mem_map.mpr fun idx hidx => .int ?_
    obtain ⟨i, l, rfl, hl⟩ := ho.lines idx hidx
    exact hwritable i (List.getElem?_eq_some_iff.mp hl).1
  rw [Answer.origin, hclosed, String.toList_append]
  exact hreadable.read_append (by simp [Json.isSpace])

end CommandLine
end VerifierTrace
