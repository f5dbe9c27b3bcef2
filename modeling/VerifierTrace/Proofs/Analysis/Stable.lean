import Mathlib.Data.List.TakeWhile
import VerifierTrace.Proofs.Analysis.Pass
import VerifierTrace.Proofs.Machine.Renumber
import VerifierTrace.Proofs.Provenance.Renumber

/-!
# VerifierTrace.Proofs.Analysis.Stable

What a pass over the beginning of a log says stays right.

Notices reach back to the last instruction line and no further, so what comes later can change that
line, but none before it. Up to there a pass over the whole log has the same lines and states, and
says the same about where values come from (`stable`).

* `stableUpTo`: the first line that may change.
* `SameAt`: two passes say the same about a line.
-/

namespace VerifierTrace

/-! ## Lines -/

namespace Notice

variable (config : Config)

/-- An instruction keeps the facts behind it from the lines before it. -/
theorem blocksAhead_append {rest : List LogLine} (h : ∃ l ∈ rest, l.isInstruction = true)
    (more : List LogLine) : blocksAhead (rest ++ more) = blocksAhead rest := by
  obtain ⟨l, hl, hins⟩ := h
  have hends : (rest.takeWhile fun l => !l.isInstruction).length ≠ rest.length := by
    intro hlen
    have hall := List.takeWhile_eq_self_iff.mp ((List.takeWhile_prefix _).eq_of_length hlen) l hl
    rw [hins] at hall
    cases hall
  rw [blocksAhead, blocksAhead, List.takeWhile_append, if_neg hends]

theorem settledBy_append {rest : List LogLine} (h : ∃ l ∈ rest, l.isInstruction = true)
    (line : LogLine) (more : List LogLine) :
    line.settledBy config (rest ++ more) = line.settledBy config rest := by
  have hfacts : factsAhead config (rest ++ more) = factsAhead config rest := by
    rw [factsAhead, factsAhead, blocksAhead_append h]
  have hname : nameAhead? config (rest ++ more) = nameAhead? config rest := by
    obtain ⟨l, hl, -⟩ := h
    cases rest with
    | nil => cases hl
    | cons first rest => rfl
  rw [LogLine.settledBy, LogLine.settledBy, hfacts, hname]

end Notice

namespace LogLine

/-- The index of the last instruction line, and the number of lines if there is none. -/
def stableUpTo (lines : List LogLine) : Int :=
  ((lines.filter isInstruction).map idx).getLast?.getD lines.length

/-- A line before that one holds no instruction, or another one follows. -/
theorem of_lt_stableUpTo {lines : List LogLine} (hn : Numbered lines) {i : Nat}
    (h : (i : Int) < stableUpTo lines) :
    i < lines.length ∧ ∀ line, lines[i]? = some line → line.isInstruction = true →
      ∃ l ∈ lines.drop (i + 1), l.isInstruction = true := by
  unfold stableUpTo at h
  cases hlast : (lines.filter isInstruction).getLast? with
  | none =>
    have hnone := List.getLast?_eq_none_iff.mp hlast
    rw [hnone] at h
    refine ⟨by simpa using h, fun line hline hins => ?_⟩
    exact absurd hins (List.filter_eq_nil_iff.mp hnone line (List.mem_of_getElem? hline))
  | some l =>
    obtain ⟨hl, hins⟩ := List.mem_filter.mp (List.mem_of_getLast? hlast)
    obtain ⟨j, hj⟩ := List.mem_iff_getElem?.mp hl
    have hlt := (List.getElem?_eq_some_iff.mp hj).1
    have hij : i < j := by
      rw [List.getLast?_map, hlast, Option.map_some, Option.getD_some, hn j l hj] at h
      omega
    refine ⟨by omega, fun _ _ _ => ⟨l, List.mem_of_getElem? (i := j - (i + 1)) ?_, hins⟩⟩
    rw [List.getElem?_drop, show i + 1 + (j - (i + 1)) = j by omega, hj]

theorem idx_settledBy (config : Config) (line : LogLine) (rest : List LogLine) :
    (line.settledBy config rest).idx = line.idx := by
  unfold settledBy
  split
  · rfl
  · rfl

theorem stableUpTo_settled (config : Config) (lines : List LogLine) :
    stableUpTo (Notice.settled config lines) = stableUpTo lines := by
  have hmap : ((Notice.settled config lines).filter isInstruction).map idx =
      (lines.filter isInstruction).map idx := by
    induction lines with
    | nil => rfl
    | cons line rest ih =>
      rw [Notice.settled, List.filter_cons, List.filter_cons, isInstruction_settledBy]
      split
      · rw [List.map_cons, List.map_cons, ih, idx_settledBy]
      · exact ih
  rw [stableUpTo, stableUpTo, hmap, Notice.length_settled]

/-- Lines to come change no line before the last instruction. -/
theorem settled_append {config : Config} {lines : List LogLine} (hn : Numbered lines) {i : Nat}
    (h : (i : Int) < stableUpTo lines) (more : List LogLine) :
    (Notice.settled config (lines ++ more))[i]? = (Notice.settled config lines)[i]? := by
  obtain ⟨hi, hahead⟩ := of_lt_stableUpTo hn h
  have hline : lines[i]? = some lines[i] := List.getElem?_eq_getElem hi
  rw [Notice.getElem?_settled, Notice.getElem?_settled, List.getElem?_append_left hi, hline,
    Option.map_some, Option.map_some, List.drop_append_of_le_length (by omega)]
  congr 1
  cases hins : lines[i].isInstruction with
  | false =>
    rw [Notice.settledBy_of_not_isInstruction config hins,
      Notice.settledBy_of_not_isInstruction config hins]
  | true => exact Notice.settledBy_append config (hahead _ hline hins) _ more

end LogLine

namespace Analysis

/-! ## Passes -/

/-- Two passes say the same about a line. -/
structure SameAt (a b : Analysis) (idx : Int) : Prop where
  line : History.at? b.lines idx = History.at? a.lines idx
  state : History.at? b.states idx = History.at? a.states idx
  source : b.sourceMap.sourceId? idx = a.sourceMap.sourceId? idx
  dependencies : ∀ slot, b.dependencies idx slot = a.dependencies idx slot
  selection : ∀ slot, b.selection idx slot = a.selection idx slot

section Front

variable {config : Config} {raws raws' : List String} {a b : Analysis}
  (ha : run config raws = .ok a) (hb : run config raws' = .ok b)

include ha hb

theorem states_of_front {front xs ys : List LogLine} (hxs : a.lines = front ++ xs)
    (hys : b.lines = front ++ ys) :
    ∃ first second second', first.length = front.length ∧ a.states = first ++ second ∧
      b.states = first ++ second' := by
  obtain ⟨-, -, -, hrun⟩ := run_ok ha
  obtain ⟨-, -, -, hrun'⟩ := run_ok hb
  rw [hxs] at hrun
  rw [hys] at hrun'
  obtain ⟨ms, more, hms, -, heq⟩ := Machine.trace_append_ok hrun
  obtain ⟨ms', more', hms', -, heq'⟩ := Machine.trace_append_ok hrun'
  rw [hms] at hms'
  cases hms'
  refine ⟨ms.map Machine.state, more.map Machine.state, more'.map Machine.state, ?_, ?_, ?_⟩
  · rw [List.length_map, Machine.length_trace hms]
  · rw [states, heq, List.map_append]
  · rw [states, heq', List.map_append]

/-- Passes whose lines begin in the same way say the same about these lines. -/
theorem sameAt_of_front {front xs ys : List LogLine} (hxs : a.lines = front ++ xs)
    (hys : b.lines = front ++ ys) {idx : Int} (hidx : idx < front.length) : SameAt a b idx := by
  obtain ⟨first, second, second', hlen, hfirst, hfirst'⟩ := states_of_front ha hb hxs hys
  have hline : ∀ j < (front.length : Int), History.at? b.lines j = History.at? a.lines j := by
    intro j hj
    rw [hxs, hys, History.at?_append hj, History.at?_append hj]
  have hstate : ∀ j < (front.length : Int), History.at? b.states j = History.at? a.states j := by
    intro j hj
    rw [← hlen] at hj
    rw [hfirst, hfirst', History.at?_append hj, History.at?_append hj]
  have hinstruction : ∀ j < (front.length : Int),
      b.history.instructionAt? j = a.history.instructionAt? j := by
    intro j hj
    exact congrArg (Option.bind · LogLine.instruction?) (hline j hj)
  have hwriter : ∀ j < (front.length : Int), ∀ slot,
      b.history.writerAt? j slot = (a.history.writerAt? j slot).map id := by
    intro j hj slot
    rw [Option.map_id]
    exact congrArg (Option.bind · fun s => s.writerOf? slot) (hstate j hj)
  have hmirrors : History.Mirrors id front.length a.history b.history := by
    refine ⟨hinstruction, hwriter, fun j hj => hwriter (j - 1) (by omega), fun j hj slot => ?_⟩
    exact congrArg (Option.bind · fun s => s.effectOf? slot) (hstate j hj)
  have hdependencies : ∀ slot, b.dependencies idx slot = a.dependencies idx slot := by
    intro slot
    have hmap := History.dependencies_renumber (grounded_of_run ha) (grounded_of_run hb)
      Function.injective_id hmirrors hidx slot
    rwa [List.map_id] at hmap
  refine ⟨hline idx hidx, hstate idx hidx, ?_, hdependencies, fun slot => ?_⟩
  · rw [sourceId?_of_run ha, sourceId?_of_run hb, hxs, hys, SourceMap.closest?_append hidx,
      SourceMap.closest?_append hidx]
  · have hretarget : b.history.retarget idx slot = a.history.retarget idx slot := by
      rw [History.retarget, History.retarget, hinstruction idx hidx]
    rw [selection, selection, History.selection, History.selection, hretarget]
    exact hdependencies _

end Front

/-- What a pass says of the lines before the last instruction line stays when more lines are put
behind. -/
theorem stable {config : Config} {raws more : List String} {a b : Analysis}
    (ha : run config raws = .ok a) (hb : run config (raws ++ more) = .ok b) {idx : Int}
    (hidx : idx < LogLine.stableUpTo a.lines) : SameAt a b idx := by
  obtain ⟨read, hread, hlines, -⟩ := run_ok ha
  obtain ⟨read', hread', hlines', -⟩ := run_ok hb
  obtain ⟨first, second, hfirst, -, rfl⟩ := readFrom_append_ok hread'
  have hsame : first = read := by
    rw [readLines, hfirst] at hread
    cases hread
    rfl
  subst hsame
  have hn : LogLine.Numbered first := LogLine.numbered_of_readLines hfirst
  have hfront : b.lines.take (LogLine.stableUpTo a.lines).toNat =
      a.lines.take (LogLine.stableUpTo a.lines).toNat := by
    refine List.ext_getElem? fun i => ?_
    rw [List.getElem?_take, List.getElem?_take]
    split
    · have hi : (i : Int) < LogLine.stableUpTo first := by
        rw [hlines, LogLine.stableUpTo_settled] at *
        omega
      rw [hlines, hlines', LogLine.settled_append hn hi]
    · rfl
  refine sameAt_of_front ha hb (List.take_append_drop _ a.lines).symm
    (by rw [← hfront]; exact (List.take_append_drop _ b.lines).symm) ?_
  have hlt : idx.toNat < a.lines.length ∨ idx < 0 := by
    by_cases hneg : idx < 0
    · exact .inr hneg
    · exact .inl (LogLine.of_lt_stableUpTo (numbered_of_run ha) (by omega)).1
  rw [List.length_take]
  omega

/-- The beginning of a log, up to a call. -/
def callingLog : List String := ["0: (b7) r1 = 1", "1: (07) r1 += 2", "2: (85) call pc+1"]

/-- With a notice about the call behind it, the lines before the call stay; the call does not. -/
theorem callingLog_stable : ∃ a b, run {} callingLog = .ok a ∧
    run {} (callingLog ++ ["Func#1 ('f') is global and assumed valid.", "3: R0=7"]) = .ok b ∧
    SameAt a b 1 ∧ b.dependencies 1 "r1" = [0] ∧
    History.at? b.lines 2 ≠ History.at? a.lines 2 := by
  have ha : run {} callingLog = .ok (ofLog {} callingLog) := run_ofLog (by decide +kernel)
  have hb : run {} (callingLog ++ ["Func#1 ('f') is global and assumed valid.", "3: R0=7"]) =
      .ok (ofLog {} _) := run_ofLog (by decide +kernel)
  exact ⟨_, _, ha, hb, stable ha hb (by decide +kernel), by decide +kernel, by decide +kernel⟩

end Analysis
end VerifierTrace
