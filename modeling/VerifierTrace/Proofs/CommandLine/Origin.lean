import VerifierTrace.Proofs.CommandLine.Documents
import VerifierTrace.Proofs.CommandLine.Outcome
import VerifierTrace.Proofs.Provenance.Bounded

/-!
# VerifierTrace.Proofs.CommandLine.Origin

The command that asks where a value came from.

It can say no for two reasons, a slot without a name and a line that the log does not have, and both
are checked before the answer is made. The answer cannot fail: it looks up the lines that the trace
reports, and these are lines with instructions whatever was asked (`History.trace_bounded`), so no
row is missing from any of the documents.

* `normalSlot`: the slot that a user means by a text, and when there is none.
* `Reported`: the origin that is to be told.
* `AllOrNothing`: what requests come to; `origin_all_or_nothing` shows it of every log.
-/

namespace VerifierTrace

/-! ## Slots that users name -/

theorem Text.Lower.go_eq_nil_iff {before cs : List Char} : go before cs = [] ↔ cs = [] := by
  constructor
  · intro h
    unfold go at h
    split at h
    · rfl
    all_goals cases h
  · rintro rfl
    rfl

theorem Slot.canonical_eq_empty_iff {name : String} : canonical name = "" ↔ name = "" := by
  unfold canonical
  split
  · next h => simp [h, base]
  · exact Iff.rfl

theorem Slot.dropWritten_eq_nil_iff {key : List Char} :
    dropWritten key = [] ↔ key = [] ∨ key = ['_', 'w'] := by
  constructor
  · intro h
    unfold dropWritten at h
    split at h
    · next hsuffix =>
      obtain ⟨front, rfl⟩ := List.isSuffixOf_iff_suffix.mp hsuffix
      have hfront : front = [] := by simpa using h
      exact .inr (by rw [hfront]; rfl)
    · exact .inl h
  · rintro (rfl | rfl) <;> rfl

namespace CommandLine

/-- The slot that a text names, in its normal form. The name of all memory is in its normal form. -/
def normalSlot (name : String) : Slot :=
  let name := String.ofList (Text.trim name.toList)
  if name = Slot.memory then name else Slot.ofKey name

theorem slotOf_some (name : String) : slotOf (some name) =
    if normalSlot name = "" then .error (.query .emptySlot) else .ok (normalSlot name) := by
  have hslot : slotOf (some name) =
      if (normalSlot name).isEmpty then .error (.query .emptySlot) else .ok (normalSlot name) := rfl
  rw [hslot]
  by_cases h : normalSlot name = ""
  · rw [if_pos h, if_pos (String.isEmpty_iff.mpr h)]
  · rw [if_neg h, if_neg (mt String.isEmpty_iff.mp h)]

/-- No slot is named by white space, nor by the mark of a value that was just written. -/
theorem normalSlot_eq_empty_iff (name : String) : normalSlot name = "" ↔
    Text.trim name.toList = [] ∨ Text.trim name.toList = ['_', 'w'] := by
  unfold normalSlot
  simp only
  split
  · next hmemory =>
    have htrim : Text.trim name.toList = Slot.memory.toList := by
      rw [← hmemory, String.toList_ofList]
    rw [htrim]
    decide
  · rw [Slot.ofKey, Slot.canonical_eq_empty_iff, String.toList_ofList, String.ofList_eq_empty_iff,
      Text.lower, Text.Lower.go_eq_nil_iff, Slot.dropWritten_eq_nil_iff]

end CommandLine

/-! ## Lines in order -/

namespace History

theorem mem_descending {idxs : List Int} {idx : Int} : idx ∈ descending idxs ↔ idx ∈ idxs :=
  List.mem_mergeSort

theorem pairwise_descending {idxs : List Int} (h : idxs.Nodup) :
    (descending idxs).Pairwise (· > ·) := by
  have hsorted : (descending idxs).Pairwise fun a b => decide (b ≤ a) = true := by
    refine List.pairwise_mergeSort ?_ ?_ idxs
    · intro a b c hab hbc
      simp only [decide_eq_true_eq] at hab hbc ⊢
      omega
    · intro a b
      simp only [Bool.or_eq_true, decide_eq_true_eq]
      omega
  have hnodup : (descending idxs).Pairwise (· ≠ ·) := (List.mergeSort_perm idxs _).nodup_iff.mpr h
  refine hsorted.imp₂ (fun a b hle hne => ?_) hnodup
  simp only [decide_eq_true_eq] at hle
  omega

end History

namespace CommandLine

/-- The origin to be told of a slot at a line. -/
structure Reported (a : Analysis) (line : Int) (slot : Slot) (exact : Bool) (o : Origin) : Prop where
  line_eq : o.line = line
  slot_eq : o.slot = slot
  traced_eq : o.traced = if exact then slot else a.retarget line slot
  descending : o.lines.Pairwise (· > ·)
  mem_iff : ∀ idx, idx ∈ o.lines ↔
    idx ∈ if exact then a.dependencies line slot else a.selection line slot
  instructions : ∀ idx ∈ o.lines, ∃ (i : Nat) (l : LogLine), idx = i ∧ a.lines[i]? = some l ∧
    l.isInstruction = true

theorem reported_ofAnalysis (a : Analysis) (line : Int) (slot : Slot) (exact : Bool) :
    Reported a line slot exact (Origin.ofAnalysis a line slot exact) := by
  have hdeps : ∀ start, let deps := a.history.dependencies line start
      (History.descending deps).Pairwise (· > ·) ∧
        ∀ idx ∈ History.descending deps, ∃ (i : Nat) (l : LogLine), idx = i ∧
          a.lines[i]? = some l ∧ l.isInstruction = true := by
    intro start
    refine ⟨History.pairwise_descending (nodup_firstOnes _), fun idx hidx => ?_⟩
    exact (History.bounded_dependencies a.history line start).instructions idx
      (History.mem_descending.mp hidx)
  cases exact with
  | true =>
    obtain ⟨hdescending, hinstructions⟩ := hdeps slot
    exact ⟨rfl, rfl, rfl, hdescending, fun _ => History.mem_descending, hinstructions⟩
  | false =>
    obtain ⟨hdescending, hinstructions⟩ := hdeps (a.history.retarget line slot)
    exact ⟨rfl, rfl, rfl, hdescending, fun _ => History.mem_descending, hinstructions⟩

/-! ## Requests -/

theorem unbroken_of_readLog {s : Surroundings} {name : String} {raws : List String}
    (h : readLog s name = .ok raws) : ∀ raw ∈ raws, Text.Unbroken raw.toList := by
  have hlines : ∃ text : List Char, raws = (Text.lines text).map String.ofList := by
    unfold readLog at h
    split at h
    · cases h
      exact ⟨_, rfl⟩
    · split at h
      · cases h
      · cases h
        exact ⟨_, rfl⟩
  obtain ⟨text, rfl⟩ := hlines
  refine List.forall_mem_map.mpr fun line hline => ?_
  rw [String.toList_ofList]
  exact Text.unbroken_of_mem_lines hline

variable {s : Surroundings} {source : Source} {raws : List String} {a : Analysis}
  {line : Int} {name : String} {exact : Bool} {format : Format} {r : Request}

/-- The log that a command names can be read, and so can its configuration, and the pass over the log
goes through. -/
structure Analyzed (s : Surroundings) (source : Source) (raws : List String) (a : Analysis) :
    Prop where
  log : readLog s source.log = .ok raws
  pass : ∃ config, (readConfig s source.config).result = .ok config ∧
    Analysis.run (adjust source config) raws = .ok a

theorem Analyzed.result (h : Analyzed s source raws a) : (analyze s source).result = .ok a := by
  obtain ⟨config, hconfig, hpass⟩ := h.pass
  simp only [analyze, Told.result_andThen, Told.result_silent, h.log, hconfig, hpass, Except.bind,
    Except.mapError]

/-- The request asks where the value of a slot at a line came from. -/
def Asks (source : Source) (line : Int) (name : String) (exact : Bool) (format : Format)
    (r : Request) : Prop :=
  r.task = .analyze source (.origin (some line) (some name) exact) format

/-- There is a slot with the name, and the log has the line. -/
def Answerable (raws : List String) (line : Int) (name : String) : Prop :=
  normalSlot name ≠ "" ∧ 0 ≤ line ∧ line < raws.length

/-- The checks come first, that of the slot before that of the line; then there is an answer. -/
theorem perform_origin (h : Analyzed s source raws a) :
    (perform s (.analyze source (.origin (some line) (some name) exact) format)).result =
      if normalSlot name = "" then .error (.query .emptySlot)
      else if 0 ≤ line ∧ line < raws.length then
        .ok (Answer.origin a (Origin.ofAnalysis a line (normalSlot name) exact) format)
      else .error (outOfRange a line) := by
  obtain ⟨config, -, hpass⟩ := h.pass
  have hlength := Analysis.length_lines_of_run hpass
  simp only [perform, answer, Told.result_andThen, Told.result_silent, Told.result_map, h.result,
    slotOf_some, lineOf]
  split
  · rfl
  · simp only [Except.bind, originAt]
    split
    · next hat =>
      have hout : ¬(0 ≤ line ∧ line < raws.length) := by
        intro hin
        rw [History.at?, if_pos hin.1, List.getElem?_eq_none_iff] at hat
        omega
      rw [if_neg hout]
      rfl
    · next l hat =>
      obtain ⟨i, rfl, hi⟩ := History.at?_eq_some hat
      have hlt := (List.getElem?_eq_some_iff.mp hi).1
      have hin : 0 ≤ (i : Int) ∧ (i : Int) < raws.length := by omega
      rw [if_pos hin]
      rfl

theorem result_of_answerable (h : Analyzed s source raws a) (hcan : Answerable raws line name)
    (hr : Asks source line name exact format r) : (perform s r.task).result =
      .ok (Answer.origin a (Origin.ofAnalysis a line (normalSlot name) exact) format) := by
  rw [hr, perform_origin h, if_neg hcan.1, if_pos hcan.2]

theorem result_of_not_answerable (h : Analyzed s source raws a)
    (hnot : ¬ Answerable raws line name) (hr : Asks source line name exact format r) :
    ∃ fault, (perform s r.task).result = .error (.query fault) := by
  rw [hr, perform_origin h]
  by_cases hslot : normalSlot name = ""
  · exact ⟨_, if_pos hslot⟩
  · rw [if_neg hslot, if_neg fun hline => hnot ⟨hslot, hline⟩]
    exact ⟨_, rfl⟩

theorem lists_of_reported (h : Analyzed s source raws a) {o : Origin} {slot : Slot}
    (hline : 0 ≤ line ∧ line < raws.length) (ho : Reported a line slot exact o)
    (format : Format) : Lists raws a o (Text.closed (Answer.origin a o format)) format := by
  obtain ⟨config, -, hpass⟩ := h.pass
  have hlength := Analysis.length_lines_of_run hpass
  have hin : InLog a o := by
    refine ⟨⟨line.toNat, by rw [ho.line_eq]; omega, by omega⟩, fun idx hidx => ?_⟩
    obtain ⟨i, l, hi, hl, -⟩ := ho.instructions idx hidx
    exact ⟨i, l, hi, hl⟩
  cases format with
  | summary => exact lists_summary hpass (unbroken_of_readLog h.log) hin
  | json => exact lists_json hpass hin
  | sexp => exact lists_sexp hpass hin

/-- What requests come to that ask where the value of a slot at a line came from. -/
structure AllOrNothing (s : Surroundings) (source : Source) (raws : List String) (a : Analysis)
    (line : Int) (name : String) (exact : Bool) : Prop where
  refused : ∀ format r, Asks source line name exact format r →
    ((fulfil s r).exit = 1 ↔ ¬ Answerable raws line name)
  nothing : ¬ Answerable raws line name → ∀ format r, Asks source line name exact format r →
    Unwritten s (fulfil s r)
  /-- All formats tell of the same lines. -/
  all : Answerable raws line name → ∃ o, Reported a line (normalSlot name) exact o ∧
    ∀ format r, Asks source line name exact format r → Open s r.output →
      ∃ text, Lists raws a o text format ∧ Written s r.output text (fulfil s r)

/-- Of every log that is read, the origin of a value is told as a whole or not at all. -/
theorem origin_all_or_nothing (h : Analyzed s source raws a) (line : Int) (name : String)
    (exact : Bool) : AllOrNothing s source raws a line name exact := by
  refine ⟨fun format r hr => ?_, fun hnot format r hr => ?_, fun hcan => ?_⟩
  · rw [exit_eq_one_iff]
    constructor
    · rintro ⟨fault, hfault⟩ hcan
      rw [result_of_answerable h hcan hr] at hfault
      cases hfault
    · exact fun hnot => result_of_not_answerable h hnot hr
  · obtain ⟨fault, hfault⟩ := result_of_not_answerable h hnot hr
    exact (fulfil_of_error hfault).2
  · have hreported := reported_ofAnalysis a line (normalSlot name) exact
    refine ⟨_, hreported, fun format r hr hopen => ?_⟩
    exact ⟨_, lists_of_reported h hcan.2 hreported format,
      fulfil_of_ok (result_of_answerable h hcan hr) hopen⟩

/-- A command that reads from a pipe a log with a copy. -/
def copyingPipe : Surroundings where
  stdin := "0: (b7) r1 = 1\n1: (bf) r2 = r1\n".toList
  files := .empty ⟨.top, ["work"]⟩
  homes := []
  platform := ""

/-- The standard input, with the default configuration. -/
def pipeSource : Source := ⟨"-", "", false, false⟩

theorem copyingPipe_answered : ∃ a o text,
    Analyzed copyingPipe pipeSource ["0: (b7) r1 = 1", "1: (bf) r2 = r1"] a ∧
      Reported a 1 "r2" false o ∧
      Lists ["0: (b7) r1 = 1", "1: (bf) r2 = r1"] a o text .json ∧
      Written copyingPipe .unset text (fulfil copyingPipe
        ⟨0, .unset, .analyze pipeSource (.origin (some 1) (some " R2_w ") false) .json⟩) := by
  have hlog : readLog copyingPipe pipeSource.log = .ok ["0: (b7) r1 = 1", "1: (bf) r2 = r1"] := by
    have hlines : Text.linesOf (String.ofList copyingPipe.stdin) =
        ["0: (b7) r1 = 1", "1: (bf) r2 = r1"] := by decide +kernel
    rw [← hlines]
    rfl
  have hanalyzed : Analyzed copyingPipe pipeSource ["0: (b7) r1 = 1", "1: (bf) r2 = r1"]
      (Analysis.ofLog {} ["0: (b7) r1 = 1", "1: (bf) r2 = r1"]) :=
    ⟨hlog, {}, rfl, Analysis.run_ofLog (by decide +kernel)⟩
  have hslot : normalSlot " R2_w " = "r2" := by decide +kernel
  obtain ⟨o, hreported, hall⟩ := (origin_all_or_nothing hanalyzed 1 " R2_w " false).all
    ⟨by rw [hslot]; decide, by decide, by decide⟩
  rw [hslot] at hreported
  obtain ⟨text, hlists, hwritten⟩ := hall .json ⟨0, .unset, .analyze pipeSource
    (.origin (some 1) (some " R2_w ") false) .json⟩ rfl trivial
  exact ⟨_, o, text, hanalyzed, hreported, hlists, hwritten⟩

end CommandLine
end VerifierTrace
