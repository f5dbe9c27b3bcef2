import Mathlib.Data.Finset.Basic
import Mathlib.Data.Finset.Dedup
import Mathlib.Logic.Relation
import VerifierTrace.Proofs.Provenance.Walk

/-!
# VerifierTrace.Proofs.Provenance.Recursion

The trace as a recursion that remembers nothing.

* `origin?`: one unfolding of the recursion, as a rule about lines, writers and effects.
* `recursion`: the sets of lines that satisfy the rule, given the sets of the places behind.
* `Grounded`: histories whose writers do not lie ahead, and in which a line that reads one slot only
  and writes it updates it in place. On these the recursion goes down (`rank_lt_of_calls`), so no
  place comes twice and what the trace has visited does not matter (`walk_eq_trail`).
* `Resolved`: the trace is the only solution of the recursion, which ends; `resolved_of_grounded`
  shows it.
-/

namespace VerifierTrace
namespace History

def writerAt? (h : History) (idx : Int) (slot : Slot) : Option Int :=
  (h.stateAt? idx).bind fun s => s.writerOf? slot

def effectAt? (h : History) (idx : Int) (slot : Slot) : Option Effect :=
  (h.stateAt? idx).bind fun s => s.effectOf? slot

def soleReadAt? (h : History) (idx : Int) : Option Slot :=
  (h.instructionAt? idx).bind Instruction.soleRead?

theorem writerAt?_eq_some {h : History} {idx : Int} {slot : Slot} {w : Int}
    (hw : h.writerAt? idx slot = some w) :
    ∃ (i : Nat) (s : State), idx = i ∧ h.states[i]? = some s ∧ s.writerOf? slot = some w := by
  obtain ⟨s, hs, hw⟩ := Option.bind_eq_some_iff.mp hw
  obtain ⟨i, hi, hget⟩ := at?_eq_some hs
  exact ⟨i, s, hi, hget, hw⟩

/-- The line that a place adds, and the place to go on from. -/
def origin? (h : History) : Place → Option Link
  | (idx, slot) =>
    match h.instructionAt? idx, h.writerAt? idx slot with
    | some _, some w =>
      if w = idx ∧ h.effectAt? idx slot = some .update then
        if idx = 0 then none
        else (h.writerAt? (idx - 1) slot).map fun p => ⟨p, some (p, slot)⟩
      else some ⟨w, (h.soleReadAt? w).map fun r => (w, r)⟩
    | _, _ => none

/-- The lines of a place from those of the place behind it. -/
def gather (D : Place → Finset Int) : Option Link → Finset Int
  | none => ∅
  | some ⟨line, none⟩ => {line}
  | some ⟨line, some next⟩ => {line} ∪ D next

/-- The rule for the lines of a place. -/
def recursion (h : History) (D : Place → Finset Int) (place : Place) : Finset Int :=
  gather D (h.origin? place)

def Calls (h : History) (p q : Place) : Prop := ∃ line, h.origin? p = some ⟨line, some q⟩

def reported (h : History) (place : Place) : Finset Int :=
  (h.dependencies place.1 place.2).toFinset

theorem mem_gather {D : Place → Finset Int} {line d : Int} {next : Option Place} :
    d ∈ gather D (some ⟨line, next⟩) ↔ d = line ∨ ∃ q, next = some q ∧ d ∈ D q := by
  cases next with
  | none => simp [gather]
  | some q => simp [gather]

theorem writerAt?_before_first (h : History) (slot : Slot) : h.writerAt? (0 - 1) slot = none := rfl

/-- The rule needs no word about the first line. -/
theorem origin?_eq (h : History) (idx : Int) (slot : Slot) :
    h.origin? (idx, slot) =
      match h.instructionAt? idx, h.writerAt? idx slot with
      | some _, some w =>
        if w = idx ∧ h.effectAt? idx slot = some .update then
          (h.writerAt? (idx - 1) slot).map fun p => ⟨p, some (p, slot)⟩
        else some ⟨w, (h.soleReadAt? w).map fun r => (w, r)⟩
      | _, _ => none := by
  have hfirst : (if idx = 0 then none
      else (h.writerAt? (idx - 1) slot).map fun p => (⟨p, some (p, slot)⟩ : Link)) =
        (h.writerAt? (idx - 1) slot).map fun p => ⟨p, some (p, slot)⟩ := by
    split
    · next hzero =>
      subst hzero
      rw [writerAt?_before_first]
      rfl
    · rfl
  cases hline : h.instructionAt? idx with
  | none => simp only [origin?, hline]
  | some instruction =>
    cases hwriter : h.writerAt? idx slot with
    | none => simp only [origin?, hline, hwriter]
    | some w => simp only [origin?, hline, hwriter, hfirst]

/-- The recursion goes on behind an update with the writer before it, and else with the slot that
the writer copies. -/
theorem origin?_cases {h : History} {idx line : Int} {slot : Slot} {next : Option Place}
    (hu : h.origin? (idx, slot) = some ⟨line, next⟩) :
    (h.writerAt? (idx - 1) slot = some line ∧ next = some (line, slot)) ∨
      (h.writerAt? idx slot = some line ∧ ¬ (line = idx ∧ h.effectAt? idx slot = some .update) ∧
        next = (h.soleReadAt? line).map fun r => (line, r)) := by
  simp only [origin?] at hu
  split at hu
  · rename_i hins hw
    split at hu
    · split at hu
      · cases hu
      · obtain ⟨p, hp, heq⟩ := Option.map_eq_some_iff.mp hu
        cases heq
        exact .inl ⟨hp, rfl⟩
    · rename_i hcopy
      cases hu
      exact .inr ⟨hw, hcopy, rfl⟩
  · cases hu

theorem line_of_origin? {h : History} {place q : Place} {line : Int}
    (hu : h.origin? place = some ⟨line, some q⟩) : q.1 = line := by
  rcases origin?_cases hu with ⟨-, hq⟩ | ⟨-, -, hq⟩
  · cases hq
    rfl
  · obtain ⟨r, -, rfl⟩ := Option.map_eq_some_iff.mp hq.symm
    rfl

/-! ## Grounded histories -/

/-- What the states of a machine keep to. -/
structure Grounded (h : History) : Prop where
  known : ∀ idx slot w, h.writerAt? idx slot = some w → (h.effectAt? idx slot).isSome
  writer : ∀ idx slot w, h.writerAt? idx slot = some w →
    0 ≤ w ∧ w ≤ idx ∧ (h.instructionAt? w).isSome
  inPlace : ∀ idx slot, h.soleReadAt? idx = some slot → h.writerAt? idx slot = some idx →
    h.effectAt? idx slot = some .update

section Grounded

variable {h : History} (hg : h.Grounded)

include hg

/-- Before an update the trace asks for no more than the writer. -/
theorem linkBefore_eq (idx : Int) (slot : Slot) :
    h.linkBefore idx slot =
      if idx = 0 then none
      else (h.writerAt? (idx - 1) slot).map fun p => ⟨p, some (p, slot)⟩ := by
  unfold linkBefore
  by_cases hzero : idx = 0
  · subst hzero
    rfl
  · rw [if_neg hzero]
    cases hs : h.stateAt? (idx - 1) with
    | none => simp [writerAt?, hs]
    | some before =>
      cases hp : before.writerOf? slot with
      | none => simp [writerAt?, hs, hp]
      | some p =>
        have hprior : h.writerAt? (idx - 1) slot = some p := by
          rw [writerAt?, hs]
          exact hp
        obtain ⟨ins, hins⟩ := Option.isSome_iff_exists.mp (hg.writer _ _ _ hprior).2.2
        simp [hp, hins, hprior]

theorem link_eq_origin? (place : Place) : h.link place = h.origin? place := by
  obtain ⟨idx, slot⟩ := place
  cases hins : h.instructionAt? idx with
  | none => simp [link, origin?, hins]
  | some ins =>
    cases hs : h.stateAt? idx with
    | none => simp [link, origin?, hins, hs, writerAt?]
    | some s =>
      cases hw : s.writerOf? slot with
      | none => simp [link, origin?, hins, hs, hw, writerAt?]
      | some w =>
        have hwriter : h.writerAt? idx slot = some w := by
          rw [writerAt?, hs]
          exact hw
        obtain ⟨effect, heffect⟩ := Option.isSome_iff_exists.mp (hg.known idx slot w hwriter)
        have hmap : (s.values.get? slot).map Cell.effect = some effect := by
          rw [← heffect, effectAt?, hs]
          rfl
        obtain ⟨cell, hcell, rfl⟩ := Option.map_eq_some_iff.mp hmap
        obtain ⟨ins', hins'⟩ := Option.isSome_iff_exists.mp (hg.writer idx slot w hwriter).2.2
        simp [link, origin?, hins, hs, hcell, hw, hins', hwriter, heffect, soleReadAt?,
          linkBefore_eq hg]

/-- Lines count twice: a line is left at once from the slot that it copies, but may be entered
through another. -/
def rank (h : History) (place : Place) : Nat :=
  2 * place.1.toNat + if h.soleReadAt? place.1 = some place.2 then 0 else 1

/-- The recursion goes down, and never to a later line. -/
theorem rank_lt_of_calls {p q : Place} (hq : h.Calls p q) : h.rank q < h.rank p ∧ q.1 ≤ p.1 := by
  obtain ⟨line, hu⟩ := hq
  obtain ⟨idx, slot⟩ := p
  unfold rank
  rcases origin?_cases hu with ⟨hw, hq⟩ | ⟨hw, hcopy, hq⟩
  · obtain ⟨hpos, hle, -⟩ := hg.writer _ _ _ hw
    cases hq
    refine ⟨?_, by omega⟩
    simp only
    split <;> split <;> omega
  · obtain ⟨hpos, hle, -⟩ := hg.writer _ _ _ hw
    obtain ⟨r, hr, rfl⟩ := Option.map_eq_some_iff.mp hq.symm
    refine ⟨?_, hle⟩
    simp only [if_pos hr]
    by_cases hlast : line = idx
    · -- the slot is not the one that the line copies, since it would be updated in place
      subst hlast
      have hother : h.soleReadAt? line ≠ some slot :=
        fun hsole => hcopy ⟨rfl, hg.inPlace line slot hsole hw⟩
      rw [if_neg hother]
      omega
    · split <;> omega

theorem wellFounded_calls : WellFounded fun q p => h.Calls p q :=
  Subrelation.wf (fun hq => (rank_lt_of_calls hg hq).1) (measure h.rank).wf

theorem rank_lt_of_transGen {p q : Place} (hpq : Relation.TransGen h.Calls p q) :
    h.rank q < h.rank p := by
  induction hpq with
  | single hq => exact (rank_lt_of_calls hg hq).1
  | tail _ hq ih => exact (rank_lt_of_calls hg hq).1.trans ih

/-! ## The trace without a memory -/

/-- The trace from a place with as many steps as its rank allows. -/
def trail (h : History) (place : Place) : List Int := h.walk (h.rank place + 1) [] place

theorem rank_lt_of_link {place next : Place} {line : Int}
    (hlink : h.link place = some ⟨line, some next⟩) : h.rank next < h.rank place :=
  (rank_lt_of_calls hg ⟨line, by rw [← link_eq_origin? hg, hlink]⟩).1

/-- Where only places of higher rank are visited, the trace does not depend on them. -/
theorem walk_eq_trail {fuel : Nat} {visited : List Place} {place : Place}
    (hfuel : h.rank place < fuel) (hv : ∀ v ∈ visited, h.rank place < h.rank v) :
    h.walk fuel visited place = h.trail place := by
  induction fuel using Nat.strong_induction_on generalizing visited place with
  | _ fuel ih =>
    cases fuel with
    | zero => omega
    | succ fuel =>
      have hnew : place ∉ visited := fun hmem => Nat.lt_irrefl _ (hv place hmem)
      rw [trail, walk, walk, if_neg hnew, if_neg List.not_mem_nil]
      cases hlink : h.link place with
      | none => rfl
      | some l =>
        obtain ⟨line, next⟩ := l
        cases next with
        | none => rfl
        | some next =>
          have hlt := rank_lt_of_link hg hlink
          have hleft : h.walk fuel (place :: visited) next = h.trail next := by
            refine ih fuel (Nat.lt_succ_self _) (by omega) ?_
            intro v hmem
            rcases List.mem_cons.mp hmem with rfl | hmem
            · exact hlt
            · exact hlt.trans (hv v hmem)
          have hright : h.walk (h.rank place) [place] next = h.trail next := by
            refine ih (h.rank place) (by omega) hlt ?_
            intro v hmem
            rw [List.mem_singleton.mp hmem]
            exact hlt
          simp only [hleft, hright]

theorem dependencies_eq_trail (idx : Int) (slot : Slot) :
    h.dependencies idx slot = firstOnes (h.trail (idx, slot)) := by
  unfold dependencies
  rw [← walk_stable h (idx, slot) (h.rank (idx, slot) + 1), walk_eq_trail hg (by omega) (by simp)]

theorem trail_eq (place : Place) :
    h.trail place =
      match h.origin? place with
      | none => []
      | some ⟨line, none⟩ => [line]
      | some ⟨line, some next⟩ => line :: h.trail next := by
  rw [trail, walk, if_neg List.not_mem_nil, ← link_eq_origin? hg]
  cases hlink : h.link place with
  | none => rfl
  | some l =>
    obtain ⟨line, next⟩ := l
    cases next with
    | none => rfl
    | some next =>
      have hlt := rank_lt_of_link hg hlink
      have hrest : h.walk (h.rank place) [place] next = h.trail next := by
        refine walk_eq_trail hg hlt ?_
        intro v hv
        rw [List.mem_singleton.mp hv]
        exact hlt
      simp only [hrest]

theorem reported_eq (place : Place) : h.reported place = h.recursion h.reported place := by
  have hmem : ∀ p d, d ∈ h.reported p ↔ d ∈ h.trail p := by
    intro p d
    rw [reported, dependencies_eq_trail hg, List.mem_toFinset, mem_firstOnes]
  ext d
  rw [hmem, trail_eq hg, recursion]
  cases h.origin? place with
  | none => simp [gather]
  | some l =>
    obtain ⟨line, next⟩ := l
    cases next with
    | none => simp [gather]
    | some next => simp only [gather, List.mem_cons, Finset.mem_union, Finset.mem_singleton, hmem]

theorem eq_reported {D : Place → Finset Int} (hD : ∀ p, D p = h.recursion D p) (place : Place) :
    D place = h.reported place := by
  induction place using (wellFounded_calls hg).induction with
  | _ place ih =>
    rw [hD, reported_eq hg, recursion, recursion]
    cases hu : h.origin? place with
    | none => rfl
    | some l =>
      obtain ⟨line, next⟩ := l
      cases next with
      | none => rfl
      | some next => rw [gather, gather, ih next ⟨line, hu⟩]

theorem le_of_mem_reported {place : Place} {d : Int} (hd : d ∈ h.reported place) :
    d ≤ place.1 := by
  induction place using (wellFounded_calls hg).induction with
  | _ place ih =>
    rw [reported_eq hg, recursion] at hd
    cases hu : h.origin? place with
    | none =>
      rw [hu] at hd
      exact absurd hd (Finset.notMem_empty d)
    | some l =>
      obtain ⟨line, next⟩ := l
      rw [hu, mem_gather] at hd
      rcases hd with rfl | ⟨q, rfl, hd⟩
      · rcases origin?_cases hu with ⟨hw, -⟩ | ⟨hw, -⟩
        · have := (hg.writer _ _ _ hw).2.1
          omega
        · exact (hg.writer _ _ _ hw).2.1
      · exact (ih q ⟨line, hu⟩ hd).trans (rank_lt_of_calls hg ⟨line, hu⟩).2

/-- All lines of a trace lie up to the one that it reports first. -/
theorem le_line_of_mem_reported {place : Place} {line d : Int} {next : Option Place}
    (hu : h.origin? place = some ⟨line, next⟩) (hd : d ∈ h.reported place) : d ≤ line := by
  rw [reported_eq hg, recursion, hu, mem_gather] at hd
  rcases hd with rfl | ⟨q, rfl, hd⟩
  · exact Int.le_refl d
  · rw [← line_of_origin? hu]
    exact le_of_mem_reported hg hd

/-- A line is reported for itself if it wrote the slot and did not update it in place. -/
theorem self_mem_reported_iff (idx : Int) (slot : Slot) :
    idx ∈ h.reported (idx, slot) ↔
      h.writerAt? idx slot = some idx ∧ h.effectAt? idx slot ≠ some .update := by
  constructor
  · intro hd
    cases hu : h.origin? (idx, slot) with
    | none =>
      rw [reported_eq hg, recursion, hu] at hd
      exact absurd hd (Finset.notMem_empty idx)
    | some l =>
      obtain ⟨line, next⟩ := l
      have hle := le_line_of_mem_reported hg hu hd
      rcases origin?_cases hu with ⟨hw, -⟩ | ⟨hw, hcopy, -⟩
      · have := (hg.writer _ _ _ hw).2.1
        omega
      · have hline : line = idx := Int.le_antisymm (hg.writer _ _ _ hw).2.1 hle
        subst hline
        exact ⟨hw, fun heffect => hcopy ⟨rfl, heffect⟩⟩
  · rintro ⟨hw, heffect⟩
    obtain ⟨ins, hins⟩ := Option.isSome_iff_exists.mp (hg.writer _ _ _ hw).2.2
    have hu : h.origin? (idx, slot) = some ⟨idx, (h.soleReadAt? idx).map fun r => (idx, r)⟩ := by
      simp only [origin?, hins, hw, heffect, and_false, if_false]
    rw [reported_eq hg, recursion, hu, mem_gather]
    exact .inl rfl

end Grounded

/-! ## What the trace amounts to -/

/-- The trace is the recursion: it solves the rule, nothing else does, and unfolding the rule comes
to an end. -/
structure Resolved (h : History) : Prop where
  solution : ∀ place, h.reported place = h.recursion h.reported place
  unique : ∀ D : Place → Finset Int, (∀ place, D place = h.recursion D place) →
    ∀ place, D place = h.reported place
  wellFounded : WellFounded fun q p => h.Calls p q
  /-- Lines never increase. -/
  backwards : ∀ p q, h.Calls p q → q.1 ≤ p.1
  /-- No place comes twice. -/
  acyclic : ∀ p, ¬ Relation.TransGen h.Calls p p
  upTo : ∀ (idx : Int) (slot : Slot), ∀ d ∈ h.dependencies idx slot, d ≤ idx
  own : ∀ (idx : Int) (slot : Slot), idx ∈ h.dependencies idx slot ↔
    h.writerAt? idx slot = some idx ∧ h.effectAt? idx slot ≠ some .update

theorem resolved_of_grounded {h : History} (hg : h.Grounded) : h.Resolved where
  solution := reported_eq hg
  unique := fun _ hD => eq_reported hg hD
  wellFounded := wellFounded_calls hg
  backwards := fun _ _ hq => (rank_lt_of_calls hg hq).2
  acyclic := fun _ hp => Nat.lt_irrefl _ (rank_lt_of_transGen hg hp)
  upTo := by
    intro idx slot d hd
    have hmem : d ∈ h.reported (idx, slot) := List.mem_toFinset.mpr hd
    exact le_of_mem_reported hg hmem
  own := fun idx slot => List.mem_toFinset.symm.trans (self_mem_reported_iff hg idx slot)

end History
end VerifierTrace
