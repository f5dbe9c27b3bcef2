import Mathlib.Data.List.Induction
import VerifierTrace.Proofs.LogLine.Numbered
import VerifierTrace.Proofs.Provenance.Walk

/-!
# VerifierTrace.Proofs.SourceMap.Attribution

Which source line an instruction line belongs to.

The map is built with a delay: instruction lines wait until the next note, or the end of the log,
gives them to the note in force. `Builder.attributed?` looks through the delay, and each line changes
it in one place only (`attributed?_feed`). So an instruction line belongs to the closest note before
it, and no other line belongs to any (`sourceId?_ofLines`).
-/

namespace VerifierTrace
namespace SourceMap

/-- The source note in force after some lines. -/
def inForce? (lines : List LogLine) : Option Announcement :=
  (lines.filterMap LogLine.announcement?).getLast?

/-- The source line of an instruction line: the one announced last before it. -/
def closest? (lines : List LogLine) (idx : Int) : Option String :=
  if (History.at? lines idx).any LogLine.isInstruction then
    (inForce? (lines.take idx.toNat)).map Announcement.id
  else none

theorem closest?_append {lines : List LogLine} {idx : Int} (h : idx < lines.length)
    (more : List LogLine) : closest? (lines ++ more) idx = closest? lines idx := by
  rw [closest?, closest?, History.at?_append h, List.take_append_of_le_length (by omega)]

theorem closest?_eq_none {lines : List LogLine} {idx : Int} (h : lines.length ≤ idx) :
    closest? lines idx = none := by
  have hat : History.at? lines idx = none := by
    unfold History.at?
    split
    · rw [List.getElem?_eq_none (by omega)]
    · rfl
  rw [closest?, hat]
  rfl

theorem sourceId?_add (m : SourceMap) (a : Announcement) (idxs : List Int) (idx : Int) :
    (m.add a idxs).sourceId? idx = if idx ∈ idxs then some a.id else m.sourceId? idx := by
  have hinsert : ∀ (idxs : List Int) (t : Table Int String),
      (idxs.foldl (fun t idx => t.insert idx a.id) t).get? idx =
        if idx ∈ idxs then some a.id else t.get? idx := by
    intro idxs
    induction idxs with
    | nil => intro t; rfl
    | cons i idxs ih =>
      intro t
      rw [List.foldl_cons, ih, Table.get?_insert]
      by_cases hi : i = idx
      · subst hi
        simp
      · have hi' : ¬ idx = i := fun h => hi h.symm
        simp only [if_neg hi, List.mem_cons, hi', false_or]
  exact hinsert idxs m.sourceOf

namespace Builder

/-- The source line that a line of the log belongs to if no more lines come. -/
def attributed? (b : Builder) (idx : Int) : Option String := b.flush.map.sourceId? idx

theorem attributed?_eq (b : Builder) (idx : Int) :
    b.attributed? idx =
      if idx ∈ b.pending ∧ b.current.isSome then b.current.map Announcement.id
      else b.map.sourceId? idx := by
  unfold attributed? flush
  cases b.current with
  | none => simp
  | some a => simp [sourceId?_add]

theorem current_feed (b : Builder) (line : LogLine) :
    (b.feed line).current = line.announcement?.or b.current := by
  unfold feed LogLine.announcement?
  split <;> simp [*]

theorem pending_flush (b : Builder) : b.flush.pending = [] := by
  unfold flush
  cases b.current with
  | none => rfl
  | some a => rfl

/-- A line gives itself to the note in force if it holds an instruction, and changes nothing else. -/
theorem attributed?_feed {b : Builder} {line : LogLine}
    (hnew : line.isInstruction → b.attributed? line.idx = none) (idx : Int) :
    (b.feed line).attributed? idx =
      if idx = line.idx ∧ line.isInstruction then b.current.map Announcement.id
      else b.attributed? idx := by
  cases hcontent : line.content with
  | source a =>
    have hins : line.isInstruction = false := by
      rw [LogLine.isInstruction, LogLine.instruction?, hcontent]
      rfl
    have hfeed : b.feed line = { b.flush with current := some ⟨line.idx, line.raw, a⟩ } := by
      rw [feed, hcontent]
    rw [hfeed, attributed?_eq, hins]
    simp only [pending_flush, List.not_mem_nil, false_and, Bool.false_eq_true, and_false, if_false]
    rfl
  | instruction ins exprs =>
    have hins : line.isInstruction = true := by
      rw [LogLine.isInstruction, LogLine.instruction?, hcontent]
      rfl
    have hfeed : b.feed line = { b with pending := b.pending ++ [line.idx] } := by
      rw [feed, hcontent]
    replace hnew := hnew hins
    rw [attributed?_eq] at hnew
    rw [hfeed, attributed?_eq, attributed?_eq, hins]
    simp only [List.mem_append, List.mem_singleton, and_true]
    cases hcurrent : b.current with
    | none =>
      rw [hcurrent] at hnew
      by_cases hidx : idx = line.idx
      · subst hidx
        simpa using hnew
      · simp [hidx]
    | some a =>
      by_cases hidx : idx = line.idx
      · simp [hidx]
      · simp [hidx]
  | notice n | unrecognized fault =>
    have hins : line.isInstruction = false := by
      rw [LogLine.isInstruction, LogLine.instruction?, hcontent]
      rfl
    rw [feed, hcontent, hins]
    simp

end Builder

/-- The builder after some lines knows the note in force and the closest note of every line. -/
theorem feed_all {lines : List LogLine} (hn : LogLine.Numbered lines) :
    (lines.foldl Builder.feed Builder.empty).current = inForce? lines ∧
      ∀ idx, (lines.foldl Builder.feed Builder.empty).attributed? idx = closest? lines idx := by
  induction lines using List.reverseRecOn with
  | nil =>
    refine ⟨rfl, fun idx => ?_⟩
    have hnone : History.at? ([] : List LogLine) idx = none := by simp [History.at?]
    rw [closest?, hnone]
    rfl
  | append_singleton lines line ih =>
    obtain ⟨hbefore, hidx⟩ := hn.of_concat
    obtain ⟨hcurrent, hclosest⟩ := ih hbefore
    rw [List.foldl_append, List.foldl_cons, List.foldl_nil]
    generalize lines.foldl Builder.feed Builder.empty = b at hcurrent hclosest ⊢
    refine ⟨?_, fun idx => ?_⟩
    · rw [Builder.current_feed, hcurrent, inForce?, inForce?, List.filterMap_append,
        List.getLast?_append]
      congr 1
      cases h : line.announcement? with
      | none => simp [h]
      | some a => simp [h]
    · have hnone : closest? lines line.idx = none := closest?_eq_none (by omega)
      rw [Builder.attributed?_feed (fun _ => by rw [hclosest, hnone]), hcurrent, hclosest]
      rcases Int.lt_trichotomy idx lines.length with hlt | heq | hgt
      · rw [if_neg (by omega), closest?_append hlt]
      · have hlast : closest? (lines ++ [line]) idx =
            if line.isInstruction then (inForce? lines).map Announcement.id else none := by
          rw [closest?, heq, History.at?_natCast, List.getElem?_concat_length, Int.toNat_natCast,
            List.take_left, Option.any_some]
        rw [hlast, closest?_eq_none (by omega), hidx]
        simp only [heq, true_and]
      · rw [if_neg (by omega), closest?_eq_none (by omega), closest?_eq_none]
        rw [List.length_append, List.length_singleton]
        omega

theorem sourceId?_ofLines {lines : List LogLine} (hn : LogLine.Numbered lines) (idx : Int) :
    (ofLines lines).sourceId? idx = closest? lines idx :=
  (feed_all hn).2 idx

end SourceMap
end VerifierTrace
