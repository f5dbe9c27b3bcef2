import VerifierTrace.Proofs.Machine.Renumber
import VerifierTrace.Proofs.Notice.Settled
import VerifierTrace.Proofs.Provenance.Simulated
import VerifierTrace.Proofs.SourceMap.Attribution

/-!
# VerifierTrace.Proofs.Analysis.Pass

A pass by its phases.

* `run_ok`, `run_of_trace`: the lines of a pass are those that were read, as the lines behind them
  leave them, and the machine ran over these.
* `grounded_of_run`, `sourceId?_of_run`: what holds of the trace and of the source map of any pass.
* `readFrom_append`, `readFrom_renumber`: texts are read one by one, and their numbers do not matter.
-/

namespace VerifierTrace
namespace Analysis

variable {config : Config} {raws : List String} {a : Analysis} {read : List LogLine}

theorem run_ok (h : run config raws = .ok a) :
    ∃ read, readLines raws = .ok read ∧ a.lines = Notice.settled config read ∧
      Machine.run config.setup a.lines = .ok a.machines := by
  unfold run at h
  split at h
  · cases h
  · next read hread =>
    unfold ofLines at h
    simp only at h
    split at h
    · cases h
    · next machines hrun =>
      cases h
      exact ⟨read, hread, Notice.settleAll_eq config read, hrun⟩

theorem run_of_trace (hread : readLines raws = .ok read) {ms : List Machine}
    (hms : Machine.run config.setup (Notice.settled config read) = .ok ms) :
    ∃ a, run config raws = .ok a ∧ a.lines = Notice.settled config read ∧ a.machines = ms := by
  refine ⟨⟨config, Notice.settled config read, (Notice.settleAll config read).2, ms⟩, ?_, rfl, rfl⟩
  simp only [run, hread, ofLines, Notice.settleAll_eq, hms]

/-- The pass over a log; it has no lines if it fails. -/
def ofLog (config : Config) (raws : List String) : Analysis :=
  (run config raws).toOption.getD ⟨config, [], [], []⟩

theorem run_ofLog (h : (run config raws).toOption.isSome) :
    run config raws = .ok (ofLog config raws) := Machine.ok_of_isSome_toOption _ h

theorem numbered_of_run (h : run config raws = .ok a) : LogLine.Numbered a.lines := by
  obtain ⟨read, hread, hlines, -⟩ := run_ok h
  rw [hlines, ← Notice.settleAll_eq]
  exact LogLine.numbered_settleAll config (LogLine.numbered_of_readLines hread)

/-- The states of a pass are those of the machine over its lines. -/
theorem states_of_run (h : run config raws = .ok a) :
    Machine.states config.setup a.lines = .ok a.states := by
  obtain ⟨-, -, -, hrun⟩ := run_ok h
  rw [Machine.states, hrun]
  rfl

theorem grounded_of_run (h : run config raws = .ok a) : a.history.Grounded :=
  Machine.grounded_of_states (numbered_of_run h) (states_of_run h)

theorem sourceId?_of_run (h : run config raws = .ok a) (idx : Int) :
    a.sourceMap.sourceId? idx = SourceMap.closest? a.lines idx :=
  SourceMap.sourceId?_ofLines (numbered_of_run h) idx

/-! ## Reading -/

theorem readFrom_cons_ok {start : Int} {raw : String} {more : List String} {lines : List LogLine}
    (h : readFrom start (raw :: more) = .ok lines) :
    ∃ line rest, LogLine.read raw start = .ok line ∧ readFrom (start + 1) more = .ok rest ∧
      lines = line :: rest := by
  unfold readFrom at h
  split at h
  · cases h
  · next line hline =>
    split at h
    · cases h
    · next rest hrest =>
      cases h
      exact ⟨line, rest, hline, hrest, rfl⟩

theorem length_readFrom {start : Int} {lines : List LogLine} (h : readFrom start raws = .ok lines) :
    lines.length = raws.length := by
  induction raws generalizing start lines with
  | nil =>
    cases h
    rfl
  | cons raw more ih =>
    obtain ⟨line, rest, -, hrest, rfl⟩ := readFrom_cons_ok h
    rw [List.length_cons, List.length_cons, ih hrest]

theorem read_of_readFrom {start : Int} {lines : List LogLine} (h : readFrom start raws = .ok lines) :
    lines.map LogLine.raw = raws ∧ ∀ l ∈ lines, Content.read l.raw.toList = .ok l.content := by
  induction raws generalizing start lines with
  | nil =>
    cases h
    simp
  | cons raw more ih =>
    obtain ⟨line, rest, hline, hrest, rfl⟩ := readFrom_cons_ok h
    obtain ⟨hraws, hcontents⟩ := ih hrest
    unfold LogLine.read at hline
    split at hline
    · cases hline
    · next content hcontent =>
      cases hline
      exact ⟨by rw [List.map_cons, hraws], List.forall_mem_cons.mpr ⟨hcontent, hcontents⟩⟩

theorem map_raw_of_run (h : run config raws = .ok a) : a.lines.map LogLine.raw = raws := by
  obtain ⟨read, hread, hlines, -⟩ := run_ok h
  rw [hlines, Notice.map_raw_settled, (read_of_readFrom hread).1]

theorem readFrom_append {start : Int} {first second : List String} {xs ys : List LogLine}
    (hxs : readFrom start first = .ok xs) (hys : readFrom (start + first.length) second = .ok ys) :
    readFrom start (first ++ second) = .ok (xs ++ ys) := by
  induction first generalizing start xs with
  | nil =>
    cases hxs
    simpa using hys
  | cons raw first ih =>
    obtain ⟨line, rest, hline, hrest, rfl⟩ := readFrom_cons_ok hxs
    have hmore := ih hrest (by
      rw [← hys, List.length_cons]
      congr 1
      omega)
    rw [List.cons_append, readFrom, hline]
    simp only [hmore, List.cons_append]

theorem readFrom_append_ok {start : Int} {first second : List String} {lines : List LogLine}
    (h : readFrom start (first ++ second) = .ok lines) :
    ∃ xs ys, readFrom start first = .ok xs ∧ readFrom (start + first.length) second = .ok ys ∧
      lines = xs ++ ys := by
  induction first generalizing start lines with
  | nil => exact ⟨[], lines, rfl, by simpa using h, rfl⟩
  | cons raw first ih =>
    obtain ⟨line, rest, hline, hrest, rfl⟩ := readFrom_cons_ok h
    obtain ⟨xs, ys, hxs, hys, rfl⟩ := ih hrest
    refine ⟨line :: xs, ys, ?_, ?_, rfl⟩
    · rw [readFrom, hline]
      simp only [hxs]
    · rw [← hys, List.length_cons]
      congr 1
      omega

theorem read_renumber {raw : String} {idx : Int} {line : LogLine}
    (h : LogLine.read raw idx = .ok line) (f : Int → Int) :
    LogLine.read raw (f idx) = .ok (line.renumber f) := by
  unfold LogLine.read at h ⊢
  split at h
  · cases h
  · next content hcontent =>
    cases h
    rfl

theorem readFrom_renumber {start start' : Int} {lines : List LogLine}
    (h : readFrom start raws = .ok lines) {f : Int → Int}
    (hf : ∀ i : Nat, i < raws.length → f (start + i) = start' + i) :
    readFrom start' raws = .ok (lines.map (LogLine.renumber f)) := by
  induction raws generalizing start start' lines with
  | nil =>
    cases h
    rfl
  | cons raw more ih =>
    obtain ⟨line, rest, hline, hrest, rfl⟩ := readFrom_cons_ok h
    have hfirst : f start = start' := by
      have := hf 0 (by simp)
      simpa using this
    have hmore : readFrom (start' + 1) more = .ok (rest.map (LogLine.renumber f)) := by
      refine ih hrest fun i hi => ?_
      have := hf (i + 1) (by simpa using hi)
      push_cast at this
      rw [show start + 1 + (i : Int) = start + (i + 1) by omega, this]
      omega
    have hread := read_renumber hline f
    rw [hfirst] at hread
    rw [readFrom, hread]
    simp only [hmore, List.map_cons]

end Analysis
end VerifierTrace
