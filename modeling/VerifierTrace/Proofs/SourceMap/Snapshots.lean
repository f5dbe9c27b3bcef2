import VerifierTrace.Proofs.SourceMap.Specified

/-!
# VerifierTrace.Proofs.SourceMap.Snapshots

The maps that a builder shows while it is at work.

A builder may be asked for its map at any time, and goes on afterwards without a note in force. What
it would show next changes by one line at a time, as the map of a whole log does: a call adds one
instruction line to one source line at most (`Builder.attributed?_call`). As long as no instruction
line comes twice, nothing that was shown is taken back.

* `Builder.maps`: the maps that a sequence of calls shows, in order.
* `m.KeptBy n`: all that the map `m` says is in the map `n` too.
* `Builder.Sound b calls`: what carries a sequence of calls along; `Sound.call` is the step.
* `Builder.maps_agree`: the maps shown agree with each other.
-/

namespace VerifierTrace
namespace SourceMap

/-! ## Maps that say more -/

/-- The two directions of a map are one relation between instruction lines and source lines. -/
def Matching (m : SourceMap) : Prop := ∀ id i, i ∈ m.logLines id ↔ m.sourceId? i = some id

/-- What the first map says, the second says too; ranges may have become wider. -/
structure KeptBy (m n : SourceMap) : Prop where
  sourceLine? : ∀ id a, m.sourceLine? id = some a → n.sourceLine? id = some a
  sourceId? : ∀ i id, m.sourceId? i = some id → n.sourceId? i = some id
  linesOf : ∀ id ∈ m.linesOf.keys, id ∈ n.linesOf.keys
  logLines : ∀ id, m.logLines id ⊆ n.logLines id
  range? : ∀ file low high, m.range? file = some (low, high) →
    ∃ low' high', n.range? file = some (low', high') ∧ low' ≤ low ∧ high ≤ high'

namespace KeptBy

variable {m n k : SourceMap}

theorem refl (m : SourceMap) : m.KeptBy m where
  sourceLine? _ _ h := h
  sourceId? _ _ h := h
  linesOf _ h := h
  logLines _ _ h := h
  range? _ low high h := ⟨low, high, h, Nat.le_refl low, Nat.le_refl high⟩

theorem trans (hmn : m.KeptBy n) (hnk : n.KeptBy k) : m.KeptBy k where
  sourceLine? id a h := hnk.sourceLine? id a (hmn.sourceLine? id a h)
  sourceId? i id h := hnk.sourceId? i id (hmn.sourceId? i id h)
  linesOf id h := hnk.linesOf id (hmn.linesOf id h)
  logLines id := List.Subset.trans (hmn.logLines id) (hnk.logLines id)
  range? file low high h := by
    obtain ⟨low', high', hn, hlow, hhigh⟩ := hmn.range? file low high h
    obtain ⟨low'', high'', hk, hlow', hhigh'⟩ := hnk.range? file low' high' hn
    exact ⟨low'', high'', hk, Nat.le_trans hlow' hlow, Nat.le_trans hhigh hhigh'⟩

theorem add (m : SourceMap) (a : Announcement) {idxs : List Int}
    (hnew : ∀ i ∈ idxs, m.sourceId? i = none) : m.KeptBy (m.add a idxs) where
  sourceLine? id first h := by rw [sourceLine?_add, h, Option.some_or]
  sourceId? i id h := by
    rw [sourceId?_add]
    split
    · next hi =>
      rw [hnew i hi] at h
      cases h
    · exact h
  linesOf id h := by
    show id ∈ (m.linesOf.insert a.id _).keys
    rw [Table.keys_insert]
    split
    · exact h
    · exact List.mem_append_left _ h
  logLines id i h := (mem_logLines_add m a idxs id i).mpr (.inl h)
  range? file low high h := by
    rw [range?_add, h]
    split
    · exact ⟨_, _, rfl, Nat.min_le_left low _, Nat.le_max_left high _⟩
    · exact ⟨low, high, rfl, Nat.le_refl low, Nat.le_refl high⟩

theorem absorb {line : LogLine} (hnew : line.isInstruction → m.sourceId? line.idx = none)
    (current : Option Announcement) : m.KeptBy (m.absorb current line) := by
  unfold SourceMap.absorb
  split
  · exact .add m _ fun i hi => (List.not_mem_nil hi).elim
  · next a _ =>
    split
    · next hins =>
      refine .add m a fun i hi => ?_
      rw [List.mem_singleton.mp hi]
      exact hnew hins
    · exact .refl m
  · exact .refl m

end KeptBy

/-! ## Calls -/

namespace Builder

/-- What a builder is asked for: to take a line, or to show its map. -/
inductive Call where
  | feed (line : LogLine)
  | build

namespace Call

def instruction? : Call → Option Int
  | .feed line => if line.isInstruction then some line.idx else none
  | .build => none

def announcement? : Call → Option Announcement
  | .feed line => line.announcement?
  | .build => none

end Call

def call (b : Builder) : Call → Builder
  | .feed line => b.feed line
  | .build => b.build

/-- The maps that the builder shows, in order. -/
def maps (b : Builder) : List Call → List SourceMap
  | [] => []
  | .feed line :: calls => (b.feed line).maps calls
  | .build :: calls => b.build.map :: b.build.maps calls

theorem maps_append (b : Builder) (calls more : List Call) :
    b.maps (calls ++ more) = b.maps calls ++ (calls.foldl call b).maps more := by
  induction calls generalizing b with
  | nil => rfl
  | cons c calls ih =>
    cases c with
    | feed line => exact ih (b.feed line)
    | build => exact congrArg (b.build.map :: ·) (ih b.build)

variable {b : Builder} {c : Call} {calls : List Call}

/-- Only the instruction line that is taken comes to a source line, that of the note in force. -/
theorem attributed?_call (hnew : ∀ i, c.instruction? = some i → b.attributed? i = none) (i : Int) :
    (b.call c).attributed? i =
      if c.instruction? = some i then b.current.map Announcement.id else b.attributed? i := by
  cases c with
  | feed line =>
    have hline : line.isInstruction → b.attributed? line.idx = none :=
      fun hins => hnew line.idx (if_pos hins)
    have htaken : (Call.feed line).instruction? = some i ↔ i = line.idx ∧ line.isInstruction := by
      simp only [Call.instruction?, Option.ite_none_right_eq_some, Option.some.injEq,
        eq_comm (a := i), and_comm]
    simp only [htaken]
    exact attributed?_feed hline i
  | build => rfl

theorem current_foldl_call (hb : b.current = none) (hnone : ∀ c ∈ calls, c.announcement? = none) :
    (calls.foldl call b).current = none := by
  induction calls generalizing b with
  | nil => exact hb
  | cons c calls ih =>
    refine ih ?_ fun c' hc' => hnone c' (List.mem_cons_of_mem _ hc')
    have hc : c.announcement? = none := hnone c List.mem_cons_self
    cases c with
    | feed line =>
      show (b.feed line).current = none
      rw [current_feed, hb, Option.or_none]
      exact hc
    | build => rfl

/-! ## What calls keep -/

/-- The map that the builder would show goes both ways, and the instruction lines to come are
different from each other and not in it. -/
structure Sound (b : Builder) (calls : List Call) : Prop where
  matching : b.flush.map.Matching
  distinct : (calls.filterMap Call.instruction?).Nodup
  fresh : ∀ i ∈ calls.filterMap Call.instruction?, b.attributed? i = none

namespace Sound

theorem empty (h : (calls.filterMap Call.instruction?).Nodup) : Sound Builder.empty calls where
  matching _ _ := ⟨fun h => (List.not_mem_nil h).elim, fun h => nomatch h⟩
  distinct := h
  fresh _ _ := rfl

theorem sublist {fewer : List Call} (h : Sound b calls) (hfewer : fewer.Sublist calls) :
    Sound b fewer where
  matching := h.matching
  distinct := h.distinct.sublist (hfewer.filterMap _)
  fresh i hi := h.fresh i ((hfewer.filterMap _).subset hi)

theorem instruction_new (h : Sound b (c :: calls)) (i : Int) (hi : c.instruction? = some i) :
    b.attributed? i = none :=
  h.fresh i (List.mem_filterMap.mpr ⟨c, List.mem_cons_self, hi⟩)

/-- A call keeps all that the map would say. -/
theorem keptBy_call (h : Sound b (c :: calls)) : b.flush.map.KeptBy (b.call c).flush.map := by
  cases c with
  | feed line =>
    show b.flush.map.KeptBy (b.feed line).flush.map
    rw [map_flush_feed]
    exact .absorb (fun hins => h.instruction_new line.idx (if_pos hins)) b.current
  | build => exact .refl b.flush.map

theorem call (h : Sound b (c :: calls)) : Sound (b.call c) calls where
  matching := by
    cases c with
    | feed line =>
      show (b.feed line).flush.map.Matching
      rw [map_flush_feed]
      exact mem_logLines_absorb h.matching
        (fun hins => h.instruction_new line.idx (if_pos hins)) b.current
    | build => exact h.matching
  distinct := (h.sublist (List.sublist_cons_self c calls)).distinct
  fresh i hi := by
    rw [attributed?_call h.instruction_new, if_neg]
    · exact (h.sublist (List.sublist_cons_self c calls)).fresh i hi
    · -- the line that is taken does not come again
      intro hc
      have hdistinct := h.distinct
      rw [List.filterMap_cons_some hc] at hdistinct
      exact (List.nodup_cons.mp hdistinct).1 hi

theorem foldl_call {before : List Call} (h : Sound b (before ++ calls)) :
    Sound (before.foldl Builder.call b) calls := by
  induction before generalizing b with
  | nil => exact h
  | cons c before ih => exact ih h.call

/-- Every map that is shown goes both ways and keeps what the builder would have said before. -/
theorem of_mem_maps (h : Sound b calls) {m : SourceMap} (hm : m ∈ b.maps calls) :
    b.flush.map.KeptBy m ∧ m.Matching := by
  induction calls generalizing b with
  | nil => exact (List.not_mem_nil hm).elim
  | cons c calls ih =>
    cases c with
    | feed line =>
      obtain ⟨hkept, hmatching⟩ := ih h.call hm
      exact ⟨h.keptBy_call.trans hkept, hmatching⟩
    | build =>
      rcases List.mem_cons.mp hm with rfl | hm
      · exact ⟨.refl b.flush.map, h.matching⟩
      · obtain ⟨hkept, hmatching⟩ := ih h.call hm
        exact ⟨hkept, hmatching⟩

theorem pairwise_maps (h : Sound b calls) : (b.maps calls).Pairwise KeptBy := by
  induction calls generalizing b with
  | nil => exact .nil
  | cons c calls ih =>
    cases c with
    | feed line => exact ih h.call
    | build => exact .cons (fun m hm => (h.call.of_mem_maps hm).1) (ih h.call)

theorem absent_of_mem_maps (h : Sound b calls) {i : Int} (hi : b.attributed? i = none)
    (hcalls : i ∉ calls.filterMap Call.instruction?) {m : SourceMap} (hm : m ∈ b.maps calls) :
    m.sourceId? i = none := by
  induction calls generalizing b with
  | nil => exact (List.not_mem_nil hm).elim
  | cons c calls ih =>
    have hrest : i ∉ calls.filterMap Call.instruction? :=
      fun hmem => hcalls (((List.sublist_cons_self c calls).filterMap _).subset hmem)
    have hstill : (b.call c).attributed? i = none := by
      rw [attributed?_call h.instruction_new, if_neg, hi]
      exact fun hc => hcalls (List.mem_filterMap.mpr ⟨c, List.mem_cons_self, hc⟩)
    cases c with
    | feed line => exact ih h.call hstill hrest hm
    | build =>
      rcases List.mem_cons.mp hm with rfl | hm
      · exact hi
      · exact ih h.call hstill hrest hm

end Sound

/-! ## The maps shown -/

/-- The map of a log is what is shown when the log has been taken as a whole. -/
theorem maps_ofLines (lines : List LogLine) :
    Builder.empty.maps (lines.map .feed ++ [.build]) = [ofLines lines] := by
  have hfeed : ∀ b : Builder, b.maps (lines.map .feed) = [] ∧
      (lines.map .feed).foldl call b = lines.foldl feed b := by
    induction lines with
    | nil => exact fun b => ⟨rfl, rfl⟩
    | cons line lines ih => exact fun b => ih (b.feed line)
  obtain ⟨hnone, hfed⟩ := hfeed Builder.empty
  rw [maps_append, hnone, hfed]
  rfl

/-- An instruction line that is taken after a build and before the next note is in no map. -/
theorem Sound.lost {before between after : List Call} {line : LogLine}
    (h : Sound Builder.empty ((before ++ .build :: between) ++ .feed line :: after))
    (hins : line.isInstruction) (hnone : ∀ c ∈ between, c.announcement? = none) {m : SourceMap}
    (hm : m ∈ Builder.empty.maps ((before ++ .build :: between) ++ .feed line :: after)) :
    m.sourceId? line.idx = none := by
  have htaken : (Call.feed line).instruction? = some line.idx := if_pos hins
  have hdistinct := h.distinct
  rw [List.filterMap_append, List.filterMap_cons_some htaken] at hdistinct
  have honce : line.idx ∉ (before ++ .build :: between).filterMap Call.instruction? ∧
      line.idx ∉ after.filterMap Call.instruction? := by
    obtain ⟨-, hafter, hdisjoint⟩ := List.nodup_append.mp hdistinct
    exact ⟨fun hmem => hdisjoint _ hmem _ List.mem_cons_self rfl, (List.nodup_cons.mp hafter).1⟩
  rw [maps_append] at hm
  rcases List.mem_append.mp hm with hearly | hlate
  · exact (h.sublist (List.sublist_append_left _ _)).absent_of_mem_maps rfl honce.1 hearly
  · -- no note is in force when the line is taken
    have hcurrent : ((before ++ .build :: between).foldl Builder.call Builder.empty).current =
        none := by
      rw [List.foldl_append, List.foldl_cons]
      exact current_foldl_call rfl hnone
    have hsound := h.foldl_call
    refine hsound.call.absent_of_mem_maps ?_ honce.2 hlate
    rw [attributed?_call hsound.instruction_new, if_pos htaken, hcurrent]
    rfl

/-- The maps that a builder shows agree: each goes both ways, and keeps what those before it say.
Building twice shows one map twice. What is taken between a build and the next note is lost. -/
theorem maps_agree {calls : List Call} (h : (calls.filterMap Call.instruction?).Nodup) :
    (∀ m ∈ Builder.empty.maps calls, m.Matching) ∧
      (Builder.empty.maps calls).Pairwise KeptBy ∧
      (∀ before after, calls = before ++ .build :: .build :: after →
        ∃ m later, Builder.empty.maps calls = Builder.empty.maps before ++ m :: m :: later) ∧
      ∀ before between line after,
        calls = before ++ .build :: between ++ .feed line :: after → line.isInstruction →
        (∀ c ∈ between, c.announcement? = none) → ∀ m ∈ Builder.empty.maps calls,
          m.sourceId? line.idx = none ∧ ∀ id, line.idx ∉ m.logLines id := by
  have hsound : Sound Builder.empty calls := .empty h
  refine ⟨fun m hm => (hsound.of_mem_maps hm).2, hsound.pairwise_maps, ?_, ?_⟩
  · rintro before after rfl
    let b := before.foldl call Builder.empty
    refine ⟨b.build.map, b.build.build.maps after, ?_⟩
    rw [maps_append]
    rfl
  · rintro before between line after rfl hins hnone m hm
    have hlost : m.sourceId? line.idx = none := hsound.lost hins hnone hm
    refine ⟨hlost, fun id hmem => ?_⟩
    rw [(hsound.of_mem_maps hm).2 id line.idx, hlost] at hmem
    cases hmem

/-- A source line is announced again after two builds in a row; the instruction line before them
comes after another build. -/
def interruptedCalls : List Call :=
  [.feed (.ofText 0 "; x = 1; @ a.c:9"), .feed (.ofText 1 "1: (b7) r1 = 1"), .build,
    .feed (.ofText 2 "2: (b7) r2 = 2"), .build, .build, .feed (.ofText 3 "; y(); @ a.c:12"),
    .feed (.ofText 4 "; x = 1; @ a.c:9"), .feed (.ofText 5 "3: (b7) r3 = 3"), .build]

theorem interruptedCalls_agree :
    (interruptedCalls.filterMap Call.instruction?).Nodup ∧
      (Builder.empty.maps interruptedCalls).Pairwise KeptBy ∧
      (∀ m ∈ Builder.empty.maps interruptedCalls, m.sourceId? 2 = none) ∧
      (Builder.empty.maps interruptedCalls).map (fun m => m.logLines "a.c:9") =
        [[1], [1], [1], [1, 5]] ∧
      (Builder.empty.maps interruptedCalls).map (fun m => m.range? "a.c") =
        [some (9, 9), some (9, 9), some (9, 9), some (9, 12)] := by
  have hdistinct : (interruptedCalls.filterMap Call.instruction?).Nodup := by decide +kernel
  obtain ⟨-, hkept, -, hlost⟩ := maps_agree hdistinct
  refine ⟨hdistinct, hkept, ?_, by decide +kernel, by decide +kernel⟩
  intro m hm
  exact (hlost (interruptedCalls.take 2) [] (.ofText 2 "2: (b7) r2 = 2")
    (interruptedCalls.drop 4) rfl (by decide +kernel)
    (fun c hc => (List.not_mem_nil hc).elim) m hm).1

end Builder
end SourceMap
end VerifierTrace
