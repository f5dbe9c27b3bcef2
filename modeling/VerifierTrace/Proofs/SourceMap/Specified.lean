import VerifierTrace.Proofs.SourceMap.Attribution
import VerifierTrace.Proofs.Table

/-!
# VerifierTrace.Proofs.SourceMap.Specified

The map of a log, told from its source notes.

Seen through the delay with which the builder gives instruction lines to notes, every line of the log
adds to the map at once: a note adds itself, and an instruction adds itself to the note in force
(`ofLines_concat`). So the four tables of the map can be followed line by line.

* `SourceMap.notes`: the source notes of a log in order.
* `SourceMap.absorb`: what one more line adds to a map.
* `Specified lines m`: the map `m` holds what the lines say; `ofLines_specified` shows it of the map
  that is built.
-/

namespace VerifierTrace
namespace SourceMap

def notes (lines : List LogLine) : List Announcement := lines.filterMap LogLine.announcement?

/-- The line numbers under which a log announces lines of a file, blank lines and line zero apart. -/
def numbers (file : String) (lines : List LogLine) : List Nat :=
  ((notes lines).filter fun a => !a.note.ignored && decide (a.note.file = file)).map
    fun a => a.note.number

/-- The range goes from the least of the numbers to the greatest; without numbers there is none. -/
def Spans (ns : List Nat) : Option (Nat × Nat) → Prop
  | none => ns = []
  | some (low, high) => low ∈ ns ∧ high ∈ ns ∧ ∀ n ∈ ns, low ≤ n ∧ n ≤ high

theorem Spans.widen {ns ns' : List Nat} {range : Option (Nat × Nat)} {n : Nat}
    (h : Spans ns range) (hns : ∀ k, k ∈ ns' ↔ k ∈ ns ∨ k = n) :
    Spans ns' (some (widen range n)) := by
  cases range with
  | none =>
    have hnone : ns = [] := h
    subst hnone
    simp only [List.not_mem_nil, false_or] at hns
    refine ⟨(hns n).mpr rfl, (hns n).mpr rfl, ?_⟩
    intro k hk
    rw [(hns k).mp hk]
    exact ⟨Nat.le_refl n, Nat.le_refl n⟩
  | some p =>
    obtain ⟨low, high⟩ := p
    obtain ⟨hlow, hhigh, hall⟩ := h
    refine ⟨(hns _).mpr ?_, (hns _).mpr ?_, ?_⟩
    · rcases Nat.le_total low n with hle | hle
      · exact .inl (by rwa [Nat.min_eq_left hle])
      · exact .inr (Nat.min_eq_right hle)
    · rcases Nat.le_total high n with hle | hle
      · exact .inr (Nat.max_eq_right hle)
      · exact .inl (by rwa [Nat.max_eq_left hle])
    · intro k hk
      rcases (hns k).mp hk with hk | rfl
      · have := hall k hk
        omega
      · omega

/-! ## Adding to a map -/

variable (m : SourceMap) (a : Announcement)

theorem widen_widen (range : Option (Nat × Nat)) (n : Nat) :
    widen (some (widen range n)) n = widen range n := by
  cases range with
  | none => simp [widen]
  | some p => simp [widen]

theorem sourceLine?_add (idxs : List Int) (id : String) :
    (m.add a idxs).sourceLine? id =
      (m.sourceLine? id).or (if a.id = id then some a else none) := by
  show Table.get? (if m.sources.contains a.id then m.sources else m.sources.insert a.id a) id =
    (m.sources.get? id).or (if a.id = id then some a else none)
  by_cases hid : a.id = id
  · subst hid
    split
    · next hknown =>
      obtain ⟨first, hfirst⟩ := Option.isSome_iff_exists.mp hknown
      rw [hfirst]
      rfl
    · next hnew =>
      have hnone : m.sources.get? a.id = none := by simpa [Table.contains] using hnew
      rw [Table.get?_insert, hnone]
      rfl
  · rw [if_neg hid, Option.or_none]
    split
    · rfl
    · rw [Table.get?_insert, if_neg hid]

theorem mem_addTo {idx i : Int} {xs : List Int} : i ∈ addTo idx xs ↔ i ∈ xs ∨ i = idx := by
  induction xs with
  | nil => simp [addTo]
  | cons x rest ih =>
    unfold addTo
    split
    · simp only [List.mem_cons]
      exact or_comm
    · split
      · next hx =>
        subst hx
        simp only [List.mem_cons]
        constructor
        · exact .inl
        · rintro (h | h)
          · exact h
          · exact .inl h
      · simp only [List.mem_cons, ih, or_assoc]

theorem pairwise_addTo (idx : Int) {xs : List Int} (h : xs.Pairwise (· < ·)) :
    (addTo idx xs).Pairwise (· < ·) := by
  induction xs with
  | nil => simp [addTo]
  | cons x rest ih =>
    obtain ⟨hx, hrest⟩ := List.pairwise_cons.mp h
    unfold addTo
    split
    · next hlt =>
      refine List.pairwise_cons.mpr ⟨?_, h⟩
      intro y hy
      rcases List.mem_cons.mp hy with rfl | hy
      · exact hlt
      · exact Int.lt_trans hlt (hx y hy)
    · split
      · exact h
      · next hge hne =>
        refine List.pairwise_cons.mpr ⟨?_, ih hrest⟩
        intro y hy
        rcases mem_addTo.mp hy with hy | rfl
        · exact hx y hy
        · omega

theorem logLines_add (idxs : List Int) (id : String) :
    (m.add a idxs).logLines id =
      if a.id = id then idxs.foldl (fun xs idx => addTo idx xs) (m.logLines id)
      else m.logLines id := by
  simp only [logLines, add, Table.get?_insert]
  split
  · next hid =>
    subst hid
    rfl
  · rfl

theorem mem_logLines_add (idxs : List Int) (id : String) (i : Int) :
    i ∈ (m.add a idxs).logLines id ↔ i ∈ m.logLines id ∨ (a.id = id ∧ i ∈ idxs) := by
  have hfold : ∀ (idxs : List Int) (xs : List Int),
      i ∈ idxs.foldl (fun xs idx => addTo idx xs) xs ↔ i ∈ xs ∨ i ∈ idxs := by
    intro idxs
    induction idxs with
    | nil => simp
    | cons idx idxs ih =>
      intro xs
      rw [List.foldl_cons, ih, mem_addTo, List.mem_cons, or_assoc]
  rw [logLines_add]
  split
  · next hid => simp only [hfold, hid, true_and]
  · next hid => simp only [hid, false_and, or_false]

theorem pairwise_logLines_add (idxs : List Int) {id : String}
    (h : (m.logLines id).Pairwise (· < ·)) : ((m.add a idxs).logLines id).Pairwise (· < ·) := by
  have hfold : ∀ (idxs : List Int) (xs : List Int), xs.Pairwise (· < ·) →
      (idxs.foldl (fun xs idx => addTo idx xs) xs).Pairwise (· < ·) := by
    intro idxs
    induction idxs with
    | nil => exact fun xs hxs => hxs
    | cons idx idxs ih => exact fun xs hxs => ih _ (pairwise_addTo idx hxs)
  rw [logLines_add]
  split
  · exact hfold idxs _ h
  · exact h

theorem range?_add (idxs : List Int) (file : String) :
    (m.add a idxs).range? file =
      if a.note.ignored = false ∧ a.note.file = file then
        some (widen (m.range? file) a.note.number)
      else m.range? file := by
  simp only [range?, add]
  cases a.note.ignored with
  | true => simp
  | false =>
    rw [if_neg Bool.false_ne_true, Table.get?_insert]
    by_cases hfile : a.note.file = file
    · subst hfile
      simp
    · simp [hfile]

theorem eq_of_tables {m n : SourceMap} (hsources : m.sources = n.sources)
    (hsourceOf : m.sourceOf = n.sourceOf) (hlinesOf : m.linesOf = n.linesOf)
    (hranges : m.ranges = n.ranges) : m = n := by
  cases m
  cases n
  cases hsources
  cases hsourceOf
  cases hlinesOf
  cases hranges
  rfl

/-- Instruction lines may be added to a source line in two turns. -/
theorem add_append (first second : List Int) :
    m.add a (first ++ second) = (m.add a first).add a second := by
  have hknown : (m.add a first).sources.contains a.id = true := by
    show ((m.add a first).sourceLine? a.id).isSome
    rw [sourceLine?_add, if_pos rfl, Option.isSome_or]
    exact Bool.or_true _
  refine eq_of_tables (if_pos hknown).symm List.foldl_append ?_ ?_
  · show m.linesOf.insert a.id _ = (m.linesOf.insert a.id _).insert a.id
      (second.foldl (fun xs idx => addTo idx xs) ((m.add a first).logLines a.id))
    rw [Table.insert_insert, logLines_add, if_pos rfl, List.foldl_append]
  · show (if a.note.ignored then _ else _) = if a.note.ignored then (m.add a first).ranges else
      (m.add a first).ranges.insert a.note.file
        (widen ((m.add a first).range? a.note.file) a.note.number)
    rw [range?_add]
    cases hignored : a.note.ignored with
    | true => simp [add, hignored]
    | false => simp [add, hignored, widen_widen, Table.insert_insert]

/-! ## Line by line -/

/-- What one more line adds to a map while a note is in force. -/
def absorb (current : Option Announcement) (line : LogLine) : SourceMap :=
  match line.announcement?, current with
  | some a, _ => m.add a []
  | none, some a => if line.isInstruction then m.add a [line.idx] else m
  | none, none => m

namespace Builder

theorem map_flush_feed (b : Builder) (line : LogLine) :
    (b.feed line).flush.map = b.flush.map.absorb b.current line := by
  cases hcontent : line.content with
  | source note =>
    have hnote : line.announcement? = some ⟨line.idx, line.raw, note⟩ := by
      rw [LogLine.announcement?, hcontent]
    simp only [feed, hcontent, absorb, hnote]
    rw [flush, pending_flush]
  | instruction ins exprs =>
    have hnote : line.announcement? = none := by rw [LogLine.announcement?, hcontent]
    have hins : line.isInstruction = true := by
      rw [LogLine.isInstruction, LogLine.instruction?, hcontent]
      rfl
    simp only [feed, hcontent, absorb, hnote, flush]
    cases b.current with
    | none => rfl
    | some a => simp only [hins, if_true, add_append]
  | notice what | unrecognized fault =>
    have hnote : line.announcement? = none := by rw [LogLine.announcement?, hcontent]
    have hins : line.isInstruction = false := by
      rw [LogLine.isInstruction, LogLine.instruction?, hcontent]
      rfl
    simp only [feed, hcontent, absorb, hnote]
    cases b.current with
    | none => rfl
    | some a => simp only [hins, Bool.false_eq_true, if_false]

end Builder

/-- One line more adds itself to the map of the lines before it. -/
theorem ofLines_concat {lines : List LogLine} (hn : LogLine.Numbered lines) (line : LogLine) :
    ofLines (lines ++ [line]) = (ofLines lines).absorb (inForce? lines) line := by
  rw [← (feed_all hn).1]
  unfold ofLines
  rw [List.foldl_append]
  exact Builder.map_flush_feed _ line

/-! ## The whole map -/

/-- The map holds what the lines say. -/
structure Specified (lines : List LogLine) (m : SourceMap) : Prop where
  /-- An instruction line belongs to the closest note before it, any other line to none. -/
  sourceId? : ∀ i, m.sourceId? i = closest? lines i
  mem_logLines_iff : ∀ id i, i ∈ m.logLines id ↔ m.sourceId? i = some id
  ascending : ∀ id, (m.logLines id).Pairwise (· < ·)
  disjoint : ∀ id id', id ≠ id' → (m.logLines id).Disjoint (m.logLines id')
  mem_sources_iff : ∀ id, id ∈ m.sources.keys ↔ ∃ a ∈ notes lines, a.id = id
  mem_linesOf_iff : ∀ id, id ∈ m.linesOf.keys ↔ ∃ a ∈ notes lines, a.id = id
  /-- Of all notes of a source line the first is kept. -/
  sourceLine? : ∀ id, m.sourceLine? id = (notes lines).find? fun a => decide (a.id = id)
  range? : ∀ file, Spans (numbers file lines) (m.range? file)

theorem notes_concat (lines : List LogLine) (line : LogLine) :
    notes (lines ++ [line]) = notes lines ++ line.announcement?.toList := by
  rw [notes, notes, List.filterMap_append]
  cases h : line.announcement? with
  | none => simp [h]
  | some a => simp [h]

theorem mem_notes_of_inForce? {lines : List LogLine} {a : Announcement}
    (h : inForce? lines = some a) : a ∈ notes lines := List.mem_of_getLast? h

section Concat

variable {m : SourceMap} {lines : List LogLine} {line : LogLine}

theorem sourceLine?_absorb
    (h : ∀ id, m.sourceLine? id = (notes lines).find? fun a => decide (a.id = id)) (id : String) :
    (m.absorb (inForce? lines) line).sourceLine? id =
      (notes (lines ++ [line])).find? fun a => decide (a.id = id) := by
  rw [notes_concat, List.find?_append, ← h]
  unfold absorb
  split
  · next a hnote => rw [sourceLine?_add, hnote]; simp [List.find?_singleton]
  · next a hnote hforce =>
    rw [hnote, Option.toList_none, List.find?_nil, Option.or_none]
    split
    · rw [sourceLine?_add]
      split
      · next hid =>
        -- the note in force is there already
        have hsome : (m.sourceLine? id).isSome := by
          rw [h, List.find?_isSome]
          exact ⟨a, mem_notes_of_inForce? hforce, by simpa using hid⟩
        obtain ⟨first, hfirst⟩ := Option.isSome_iff_exists.mp hsome
        rw [hfirst]
        rfl
      · rw [Option.or_none]
    · rfl
  · next hnote hforce => rw [hnote, Option.toList_none, List.find?_nil, Option.or_none]

theorem mem_linesOf_absorb (h : ∀ id, id ∈ m.linesOf.keys ↔ ∃ a ∈ notes lines, a.id = id)
    (id : String) : id ∈ (m.absorb (inForce? lines) line).linesOf.keys ↔
      ∃ a ∈ notes (lines ++ [line]), a.id = id := by
  have hadd : ∀ (a : Announcement) (idxs : List Int),
      id ∈ (m.add a idxs).linesOf.keys ↔ (∃ b ∈ notes lines, b.id = id) ∨ a.id = id := by
    intro a idxs
    rw [← h, Table.mem_keys_iff, Table.mem_keys_iff]
    simp only [add, Table.get?_insert]
    split
    · next hid => simp [hid]
    · next hid => simp [hid]
  rw [notes_concat]
  unfold absorb
  split
  · next a hnote => rw [hadd, hnote]; simp [or_and_right, exists_or]
  · next a hnote hforce =>
    rw [hnote, Option.toList_none, List.append_nil]
    split
    · rw [hadd]
      exact or_iff_left_of_imp fun hid => ⟨a, mem_notes_of_inForce? hforce, hid⟩
    · exact h id
  · next hnote hforce =>
    rw [hnote, Option.toList_none, List.append_nil]
    exact h id

theorem range?_absorb (h : ∀ file, Spans (numbers file lines) (m.range? file)) (file : String) :
    Spans (numbers file (lines ++ [line])) ((m.absorb (inForce? lines) line).range? file) := by
  have hnumbers : numbers file (lines ++ [line]) = numbers file lines ++
      (line.announcement?.toList.filter fun a =>
        !a.note.ignored && decide (a.note.file = file)).map fun a => a.note.number := by
    rw [numbers, notes_concat, List.filter_append, List.map_append]
    rfl
  rw [hnumbers]
  unfold absorb
  split
  · next a hnote =>
    rw [range?_add, hnote]
    split
    · next hcounts =>
      refine (h file).widen fun k => ?_
      simp [hcounts]
    · next hnot =>
      have hnone : (!a.note.ignored && decide (a.note.file = file)) = false := by
        cases hignored : a.note.ignored with
        | true => rfl
        | false => simpa [hignored] using hnot
      simpa [hnone] using h file
  · next a hnote hforce =>
    rw [hnote, Option.toList_none, List.filter_nil, List.map_nil, List.append_nil]
    split
    · rw [range?_add]
      split
      · next hcounts =>
        -- the number of the note in force is among the numbers already
        have hmem : a.note.number ∈ numbers file lines :=
          List.mem_map.mpr ⟨a, List.mem_filter.mpr ⟨mem_notes_of_inForce? hforce, by
            simp [hcounts]⟩, rfl⟩
        refine (h file).widen fun k => (or_iff_left_of_imp ?_).symm
        rintro rfl
        exact hmem
      · exact h file
    · exact h file
  · next hnote hforce =>
    rw [hnote, Option.toList_none, List.filter_nil, List.map_nil, List.append_nil]
    exact h file

theorem mem_logLines_absorb (h : ∀ id i, i ∈ m.logLines id ↔ m.sourceId? i = some id)
    (hnew : line.isInstruction → m.sourceId? line.idx = none) (current : Option Announcement)
    (id : String) (i : Int) :
    i ∈ (m.absorb current line).logLines id ↔ (m.absorb current line).sourceId? i = some id := by
  unfold absorb
  split
  · rw [mem_logLines_add, sourceId?_add, h]
    simp
  · split
    · next hins =>
      rw [mem_logLines_add, sourceId?_add, h]
      by_cases hi : i = line.idx
      · subst hi
        simp [hnew hins]
      · simp [hi]
    · exact h id i
  · exact h id i

theorem pairwise_logLines_absorb (h : ∀ id, (m.logLines id).Pairwise (· < ·)) (id : String) :
    ((m.absorb (inForce? lines) line).logLines id).Pairwise (· < ·) := by
  unfold absorb
  split
  · exact pairwise_logLines_add _ _ _ (h id)
  · split
    · exact pairwise_logLines_add _ _ _ (h id)
    · exact h id
  · exact h id

end Concat

/-- The map of a log says of each instruction line to which note it belongs and of each source line
which instruction lines it has, these being one relation; it knows exactly the source lines that are
announced, with their first notes, and for each file the range of line numbers announced. -/
theorem ofLines_specified {lines : List LogLine} (hn : LogLine.Numbered lines) :
    Specified lines (ofLines lines) := by
  have hfollowed : (∀ id i, i ∈ (ofLines lines).logLines id ↔
        (ofLines lines).sourceId? i = some id) ∧
      (∀ id, ((ofLines lines).logLines id).Pairwise (· < ·)) ∧
      (∀ id, id ∈ (ofLines lines).linesOf.keys ↔ ∃ a ∈ notes lines, a.id = id) ∧
      (∀ id, (ofLines lines).sourceLine? id =
        (notes lines).find? fun a => decide (a.id = id)) ∧
      ∀ file, Spans (numbers file lines) ((ofLines lines).range? file) := by
    induction lines using List.reverseRecOn with
    | nil =>
      refine ⟨?_, ?_, ?_, fun _ => rfl, fun _ => rfl⟩
      · exact fun id i => ⟨fun h => (List.not_mem_nil h).elim, fun h => nomatch h⟩
      · exact fun id => .nil
      · exact fun id => ⟨fun h => (List.not_mem_nil h).elim,
          fun ⟨a, ha, _⟩ => (List.not_mem_nil ha).elim⟩
    | append_singleton lines line ih =>
      obtain ⟨hbefore, hidx⟩ := hn.of_concat
      obtain ⟨hmem, hpairwise, hkeys, hfirst, hranges⟩ := ih hbefore
      have hnew : (ofLines lines).sourceId? line.idx = none := by
        rw [sourceId?_ofLines hbefore, closest?_eq_none (by omega)]
      rw [ofLines_concat hbefore]
      exact ⟨mem_logLines_absorb hmem (fun _ => hnew) _, pairwise_logLines_absorb hpairwise,
        mem_linesOf_absorb hkeys, sourceLine?_absorb hfirst, range?_absorb hranges⟩
  obtain ⟨hmem, hpairwise, hkeys, hfirst, hranges⟩ := hfollowed
  refine ⟨sourceId?_ofLines hn, hmem, hpairwise, ?_, ?_, hkeys, hfirst, hranges⟩
  · intro id id' hne i hi hi'
    rw [hmem] at hi hi'
    exact hne (Option.some.inj (hi.symm.trans hi'))
  · intro id
    rw [Table.mem_keys_iff]
    show ((ofLines lines).sourceLine? id).isSome ↔ _
    rw [hfirst, List.find?_isSome]
    simp

/-- A log with an instruction before all notes, a source line that is announced twice, a blank one,
and one without instructions at the end. -/
def annotatedLog : List String :=
  ["0: (b7) r0 = 1", "; x = 1; @ a.c:9", "1: (b7) r1 = 1", "2: (b7) r2 = 2", "; @ a.c:30",
    "3: (b7) r3 = 3", "; x = 1; @ a.c:9", "verifier chatter", "4: (b7) r4 = 4", "; y(); @ a.c:12"]

theorem annotatedLog_specified :
    Specified (LogLine.ofLog annotatedLog) (ofLines (LogLine.ofLog annotatedLog)) ∧
      (ofLines (LogLine.ofLog annotatedLog)).logLines "a.c:9" = [2, 3, 8] ∧
      (ofLines (LogLine.ofLog annotatedLog)).sources.keys = ["a.c:9", "a.c:30", "a.c:12"] ∧
      (ofLines (LogLine.ofLog annotatedLog)).range? "a.c" = some (9, 12) :=
  ⟨ofLines_specified (LogLine.numbered_ofLog annotatedLog), by decide +kernel, by decide +kernel,
    by decide +kernel⟩

end SourceMap
end VerifierTrace
