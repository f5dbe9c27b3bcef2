import VerifierTrace.Proofs.Analysis.Pass
import VerifierTrace.Proofs.Notice.Inserted
import VerifierTrace.Proofs.Provenance.Renumber

/-!
# VerifierTrace.Proofs.Analysis.Noise

Lines that are not understood do not matter.

Such a line, put into a log at any position, moves the lines behind it one on. Otherwise the pass
finds out what it found without it (`noise`), as long as the line does not part a call from the
notice that folds it.

* `shift k`: where lines go when one is put in at position `k`.
* `ShiftedAt`: two passes say the same about a line, which the second has where it went.
-/

namespace VerifierTrace

/-- The index of a line after another one is put in at position `k`. -/
def shift (k : Nat) (idx : Int) : Int := if idx < k then idx else idx + 1

theorem shift_injective (k : Nat) : Function.Injective (shift k) := by
  intro i j h
  unfold shift at h
  split at h <;> split at h <;> omega

/-! ## Lists -/

theorem at?_insert {α β : Type} {R : α → β → Prop} {xs ys : List α} {xs' ys' : List β}
    (hxs : List.Forall₂ R xs xs') (hys : List.Forall₂ R ys ys') (u : β) (idx : Int) :
    Option.Rel R (History.at? (xs ++ ys) idx)
      (History.at? (xs' ++ u :: ys') (shift xs.length idx)) := by
  have hget : ∀ {zs : List α} {zs' : List β}, List.Forall₂ R zs zs' → ∀ i : Nat,
      Option.Rel R zs[i]? zs'[i]? := by
    intro zs zs' h
    induction h with
    | nil => exact fun i => .none
    | cons hab _ ih =>
      intro i
      cases i with
      | zero => exact .some hab
      | succ i => exact ih i
  have hlen := hxs.length_eq
  by_cases hneg : idx < 0
  · have hnone : ∀ {γ : Type} (zs : List γ), History.at? zs idx = none :=
      fun zs => if_neg (by omega)
    rw [shift, if_pos (by omega), hnone, hnone]
    exact .none
  · obtain ⟨i, rfl⟩ := Int.eq_ofNat_of_zero_le (Int.not_lt.mp hneg)
    rw [History.at?_natCast]
    unfold shift
    split
    · next hlt =>
      rw [History.at?_natCast, List.getElem?_append_left (by omega),
        List.getElem?_append_left (by omega)]
      exact hget hxs i
    · next hle =>
      have hcast : (i : Int) + 1 = (i + 1 : Nat) := by push_cast; rfl
      rw [hcast, History.at?_natCast, List.getElem?_append_right (by omega),
        List.getElem?_append_right (by omega), ← hlen,
        show i + 1 - xs.length = (i - xs.length) + 1 by omega, List.getElem?_cons_succ]
      exact hget hys _

theorem at?_map_insert {α β : Type} (g : α → β) (xs ys : List α) (u : β) (idx : Int) :
    History.at? (xs.map g ++ u :: ys.map g) (shift xs.length idx) =
      (History.at? (xs ++ ys) idx).map g := by
  have hmap : ∀ zs : List α, List.Forall₂ (fun a b => b = g a) zs (zs.map g) := by
    intro zs
    rw [List.forall₂_map_right_iff]
    exact List.forall₂_same.mpr fun _ _ => rfl
  have heq : ∀ {o : Option α} {o' : Option β}, Option.Rel (fun a b => b = g a) o o' →
      o' = o.map g := by
    intro o o' h
    cases h with
    | none => rfl
    | some h => rw [h]; rfl
  exact heq (at?_insert (hmap xs) (hmap ys) u idx)

/-! ## Source lines -/

namespace SourceMap

/-- The source lines that are announced, in order. -/
def announced (lines : List LogLine) : List String :=
  lines.filterMap fun l => l.announcement?.map Announcement.id

theorem id_inForce? (lines : List LogLine) :
    (inForce? lines).map Announcement.id = (announced lines).getLast? := by
  have hmap : announced lines = (lines.filterMap LogLine.announcement?).map Announcement.id := by
    rw [announced, List.map_filterMap]
  rw [hmap, List.getLast?_map]
  rfl

theorem announced_renumber (f : Int → Int) (lines : List LogLine) :
    announced (lines.map (LogLine.renumber f)) = announced lines := by
  rw [announced, announced, List.filterMap_map]
  congr 1
  funext l
  simp only [Function.comp_apply, LogLine.announcement?, LogLine.renumber]
  split
  · rfl
  · rfl

variable {u : LogLine} (hu : u.announcement? = none)

include hu

/-- A line that announces nothing does not come between a line and its note. -/
theorem announced_insert (f : Int → Int) (xs ys : List LogLine) (idx : Int) :
    announced ((xs.map (LogLine.renumber f) ++ u :: ys.map (LogLine.renumber f)).take
        (shift xs.length idx).toNat) = announced ((xs ++ ys).take idx.toNat) := by
  have happend : ∀ zs zs', announced (zs ++ zs') = announced zs ++ announced zs' :=
    fun zs zs' => List.filterMap_append
  unfold shift
  split
  · rw [List.take_append_of_le_length (by rw [List.length_map]; omega),
      List.take_append_of_le_length (by omega), ← List.map_take, announced_renumber]
  · have hnone : ∀ zs, announced (u :: zs) = announced zs := by
      intro zs
      rw [announced, List.filterMap_cons, hu]
      rfl
    have hfront : (xs.map (LogLine.renumber f)).take (idx + 1).toNat =
        xs.map (LogLine.renumber f) :=
      List.take_of_length_le (by rw [List.length_map]; omega)
    have hfront' : xs.take idx.toNat = xs := List.take_of_length_le (by omega)
    rw [List.take_append, List.take_append, hfront, hfront', List.length_map, happend, happend,
      announced_renumber, show (idx + 1).toNat - xs.length = (idx.toNat - xs.length) + 1 by omega,
      List.take_succ_cons, hnone, ← List.map_take, announced_renumber]

theorem closest?_insert (f : Int → Int) (xs ys : List LogLine) (idx : Int) :
    closest? (xs.map (LogLine.renumber f) ++ u :: ys.map (LogLine.renumber f))
      (shift xs.length idx) = closest? (xs ++ ys) idx := by
  have hins : (History.at? (xs.map (LogLine.renumber f) ++ u :: ys.map (LogLine.renumber f))
      (shift xs.length idx)).any LogLine.isInstruction =
        (History.at? (xs ++ ys) idx).any LogLine.isInstruction := by
    rw [at?_map_insert, Option.any_map]
    rfl
  rw [closest?, closest?, id_inForce?, id_inForce?, hins, announced_insert hu]

end SourceMap

namespace Analysis

/-! ## Passes -/

theorem read_insert {raws : List String} {read : List LogLine} (hread : readLines raws = .ok read)
    {k : Nat} (hk : k ≤ raws.length) {u : String} {fault : Option BodyFault}
    (hu : Content.read u.toList = .ok (.unrecognized fault)) :
    readLines (raws.take k ++ u :: raws.drop k) =
      .ok ((read.take k).map (LogLine.renumber (shift k)) ++
        ⟨k, u, .unrecognized fault⟩ :: (read.drop k).map (LogLine.renumber (shift k))) := by
  have hlen : (raws.take k).length = k := List.length_take_of_le hk
  rw [← List.take_append_drop k raws] at hread
  obtain ⟨xs, ys, hxs, hys, rfl⟩ := readFrom_append_ok hread
  have hxlen : xs.length = k := (length_readFrom hxs).trans hlen
  rw [← hxlen, List.take_left, List.drop_left, hxlen]
  have hfirst : readFrom 0 (raws.take k) = .ok (xs.map (LogLine.renumber (shift k))) := by
    refine readFrom_renumber hxs fun i hi => ?_
    rw [hlen] at hi
    rw [shift, if_pos (by omega)]
  have hline : LogLine.read u (0 + (raws.take k).length) = .ok ⟨k, u, .unrecognized fault⟩ := by
    rw [LogLine.read, hu, hlen, Int.zero_add]
  have hsecond : readFrom (0 + (raws.take k).length + 1) (raws.drop k) =
      .ok (ys.map (LogLine.renumber (shift k))) := by
    refine readFrom_renumber hys fun i _ => ?_
    rw [hlen, shift, if_neg (by omega)]
    omega
  refine readFrom_append hfirst ?_
  rw [readFrom, hline]
  simp only [hsecond]

/-- The second pass says about every line, where it went, what the first pass says. -/
structure Shifted (k : Nat) (a b : Analysis) : Prop where
  line : ∀ idx, History.at? b.lines (shift k idx) =
    (History.at? a.lines idx).map (LogLine.renumber (shift k))
  state : ∀ idx, Option.Rel (State.Mirrors (shift k)) (History.at? a.states idx)
    (History.at? b.states (shift k idx))
  source : ∀ idx, b.sourceMap.sourceId? (shift k idx) = a.sourceMap.sourceId? idx
  dependencies : ∀ idx slot,
    b.dependencies (shift k idx) slot = (a.dependencies idx slot).map (shift k)

theorem writerAt?_before (setup : Setup) {lines : List LogLine} {ms : List Machine}
    (k : Nat) (hk : k ≤ ms.length) (slot : Slot) :
    History.writerAt? ⟨lines, ms.map Machine.state⟩ (k - 1) slot =
      (Machine.last (.start setup) (ms.take k)).state.writerOf? slot := by
  cases k with
  | zero => rfl
  | succ k =>
    have hlast : Machine.last (.start setup) (ms.take (k + 1)) = ms[k] := by
      rw [Machine.last, List.take_succ_eq_append_getElem (by omega), List.getLast?_append]
      rfl
    have hcast : ((k + 1 : Nat) : Int) - 1 = k := by omega
    rw [hlast, History.writerAt?, History.stateAt?, hcast, History.at?_natCast, List.getElem?_map,
      List.getElem?_eq_getElem (by omega)]
    rfl

theorem dependencies_shift {a b : Analysis} {k : Nat} (ha : a.history.Grounded)
    (hb : b.history.Grounded)
    (hline : ∀ idx, History.at? b.lines (shift k idx) =
      (History.at? a.lines idx).map (LogLine.renumber (shift k)))
    (hstate : ∀ idx, Option.Rel (State.Mirrors (shift k)) (History.at? a.states idx)
      (History.at? b.states (shift k idx)))
    (hbetween : ∀ slot,
      b.history.writerAt? k slot = (a.history.writerAt? (k - 1) slot).map (shift k))
    (idx : Int) (slot : Slot) :
    b.dependencies (shift k idx) slot = (a.dependencies idx slot).map (shift k) := by
  have hwriter : ∀ j slot, b.history.writerAt? (shift k j) slot =
      (a.history.writerAt? j slot).map (shift k) := by
    intro j slot
    have hrel := hstate j
    show (History.at? b.states (shift k j)).bind (fun s => s.writerOf? slot) =
      ((History.at? a.states j).bind fun s => s.writerOf? slot).map (shift k)
    generalize History.at? a.states j = before, History.at? b.states (shift k j) = after at hrel ⊢
    cases hrel with
    | none => rfl
    | some h => exact h.resembles.writerOf? slot
  have hmirrors : History.Mirrors (shift k) (idx + 1) a.history b.history := by
    refine ⟨fun j _ => ?_, fun j _ slot => hwriter j slot, fun j _ slot => ?_, fun j _ slot => ?_⟩
    · show (History.at? b.lines (shift k j)).bind LogLine.instruction? =
        (History.at? a.lines j).bind LogLine.instruction?
      rw [hline]
      cases History.at? a.lines j with
      | none => rfl
      | some line => rfl
    · by_cases hj : j = k
      · subst hj
        rw [shift, if_neg (by omega), ← hbetween, show (k : Int) + 1 - 1 = k by omega]
      · have hbefore : shift k j - 1 = shift k (j - 1) := by
          unfold shift
          split <;> split <;> omega
        rw [hbefore, hwriter]
    · have hrel := hstate j
      show (History.at? b.states (shift k j)).bind (fun s => s.effectOf? slot) =
        (History.at? a.states j).bind fun s => s.effectOf? slot
      generalize History.at? a.states j = before, History.at? b.states (shift k j) = after
        at hrel ⊢
      cases hrel with
      | none => rfl
      | some h => simp only [Option.bind_some, State.effectOf?, h.values]
  exact History.dependencies_renumber ha hb (shift_injective k) hmirrors (by omega) slot

/-- With a line that is not understood the pass has the lines and the machines that it had, on both
sides of that line, unless the line parts a call from the notice that folds it. -/
theorem run_insert {config : Config} {raws : List String} {a : Analysis} {read : List LogLine}
    (ha : run config raws = .ok a) (hread : readLines raws = .ok read) {k : Nat}
    (hk : k ≤ raws.length) {u : String} {fault : Option BodyFault}
    (hu : Content.read u.toList = .ok (.unrecognized fault))
    (hfold : Notice.foldsAcross config (read.take k) (read.drop k) = false) :
    ∃ b first second ns v ns', run config (raws.take k ++ u :: raws.drop k) = .ok b ∧
      first.length = k ∧ a.lines = first ++ second ∧
      b.lines = first.map (LogLine.renumber (shift k)) ++
        ⟨k, u, .unrecognized fault⟩ :: second.map (LogLine.renumber (shift k)) ∧
      b.machines = ns ++ v :: ns' ∧
      List.Forall₂ (fun m n => State.Mirrors (shift k) m.state n.state) (a.machines.take k) ns ∧
      List.Forall₂ (fun m n => State.Mirrors (shift k) m.state n.state) (a.machines.drop k) ns' ∧
      v.state.writers = (Machine.last (.start config.setup)
        (a.machines.take k)).state.writers.mapValues (shift k) := by
  obtain ⟨read', hread', hlines, hrun⟩ := run_ok ha
  rw [hread] at hread'
  cases hread'
  let inserted : LogLine := ⟨k, u, .unrecognized fault⟩
  obtain ⟨first, hlen, hwithout, hwith⟩ :=
    Notice.settled_insert (shift k) (u := inserted) rfl hfold
  rw [List.length_take_of_le ((length_readFrom hread).symm ▸ hk)] at hlen
  rw [List.take_append_drop] at hwithout
  rw [hlines, hwithout] at hrun
  obtain ⟨ns, v, ns', htrace, hfirst, hsecond, hwriters⟩ :=
    Machine.trace_insert (Machine.resembles_start (shift k) config.setup) (u := inserted) rfl hrun
  rw [← hwith] at htrace
  obtain ⟨b, hb, hlines', hmachines⟩ := run_of_trace (read_insert hread hk hu) htrace
  rw [hlen] at hfirst hsecond hwriters
  exact ⟨b, first, _, ns, v, ns', hb, hlen, hlines.trans hwithout, hlines'.trans hwith, hmachines,
    hfirst, hsecond, hwriters⟩

/-- A line that is not understood, put into a log, changes nothing that the pass says about the
others, unless it parts a call from the notice that folds it. -/
theorem noise {config : Config} {raws : List String} {a : Analysis} {read : List LogLine}
    (ha : run config raws = .ok a) (hread : readLines raws = .ok read) {k : Nat}
    (hk : k ≤ raws.length) {u : String} {fault : Option BodyFault}
    (hu : Content.read u.toList = .ok (.unrecognized fault))
    (hfold : Notice.foldsAcross config (read.take k) (read.drop k) = false) :
    ∃ b, run config (raws.take k ++ u :: raws.drop k) = .ok b ∧ Shifted k a b := by
  obtain ⟨b, first, second, ns, v, ns', hb, hlen, hlines, hlines', hmachines, hfirst, hsecond,
    hwriters⟩ := run_insert ha hread hk hu hfold
  have hmlen : k ≤ a.machines.length := by
    obtain ⟨-, -, -, hrun⟩ := run_ok ha
    rw [Machine.length_trace hrun, hlines, List.length_append]
    omega
  have hnlen : ns.length = k := by
    rw [← hfirst.length_eq, List.length_take_of_le hmlen]
  have hstates' : b.states = ns.map Machine.state ++ v.state :: ns'.map Machine.state := by
    rw [states, hmachines, List.map_append, List.map_cons]
  have hline : ∀ idx, History.at? b.lines (shift k idx) =
      (History.at? a.lines idx).map (LogLine.renumber (shift k)) := by
    intro idx
    rw [hlines, hlines', ← hlen, at?_map_insert]
  have hstate : ∀ idx, Option.Rel (State.Mirrors (shift k)) (History.at? a.states idx)
      (History.at? b.states (shift k idx)) := by
    intro idx
    have hmap : ∀ {ms ns : List Machine},
        List.Forall₂ (fun m n => State.Mirrors (shift k) m.state n.state) ms ns →
        List.Forall₂ (State.Mirrors (shift k)) (ms.map Machine.state) (ns.map Machine.state) :=
      fun h => List.forall₂_map_left_iff.mpr (List.forall₂_map_right_iff.mpr h)
    have hrel := at?_insert (hmap hfirst) (hmap hsecond) v.state idx
    rwa [← List.map_append, List.take_append_drop, List.length_map, List.length_take_of_le hmlen,
      ← hstates'] at hrel
  refine ⟨b, hb, hline, hstate, fun idx => ?_, ?_⟩
  · rw [sourceId?_of_run ha, sourceId?_of_run hb, hlines, hlines', ← hlen,
      SourceMap.closest?_insert rfl]
  · refine dependencies_shift (grounded_of_run ha) (grounded_of_run hb) hline hstate fun slot => ?_
    have hbefore : a.history.writerAt? (k - 1) slot = _ :=
      writerAt?_before config.setup k hmlen slot
    have hv : b.history.stateAt? k = some v.state := by
      show History.at? b.states k = _
      rw [hstates', History.at?_natCast, List.getElem?_append_right (by simp [hnlen])]
      simp [hnlen]
    rw [hbefore, History.writerAt?, hv, Option.bind_some, State.writerOf?, hwriters,
      Table.get?_mapValues]
    rfl

/-- A value that is copied before a call and again after it. -/
def copyingLog : List String :=
  ["0: (bf) r6 = r1", "1: (85) call pc+1", "3: (95) exit", "2: (bf) r7 = r6", "2: R7=1"]

/-- With a line in front of the exit that is not understood, the value comes from the same lines. -/
theorem copyingLog_noise : ∃ a b, run {} copyingLog = .ok a ∧
    run {} (copyingLog.take 2 ++ "mark_precise: frame1: regs=r2" :: copyingLog.drop 2) = .ok b ∧
    Shifted 2 a b ∧ a.dependencies 3 "r7" = [3, 0] ∧ b.dependencies 4 "r7" = [4, 0] := by
  have ha : run {} copyingLog = .ok (ofLog {} copyingLog) := run_ofLog (by decide +kernel)
  have hread : readLines copyingLog = .ok (LogLine.ofLog copyingLog) :=
    Machine.ok_of_isSome_toOption [] (by decide +kernel)
  have hu : Content.read "mark_precise: frame1: regs=r2".toList = .ok (.unrecognized none) := by
    decide +kernel
  obtain ⟨b, hb, hshifted⟩ := noise ha hread (k := 2) (by decide) hu (by decide +kernel)
  have hdependencies : (ofLog {} copyingLog).dependencies 3 "r7" = [3, 0] := by decide +kernel
  have hshift := hshifted.dependencies 3 "r7"
  rw [hdependencies] at hshift
  exact ⟨_, b, ha, hb, hshifted, hdependencies, hshift⟩

end Analysis
end VerifierTrace
