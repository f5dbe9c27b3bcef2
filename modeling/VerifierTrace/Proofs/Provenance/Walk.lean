import Mathlib.Data.List.Perm.Subperm
import Mathlib.Data.List.ProdSigma
import VerifierTrace.Proofs.Instruction.Slots
import VerifierTrace.Provenance

/-!
# VerifierTrace.Proofs.Provenance.Walk

The trace through a history never runs out of steps.

A step reports a writer (`link_cases`), and goes on at that line, with the slot at hand or one that
the line reads (`link_next`). So all places of a trace are among `places`, which are as many as the
bound of the trace allows, and since no place is visited twice, more steps would not lead further
(`walk_stable`). This holds for every history, also for one that no machine went through.
-/

namespace VerifierTrace
namespace History

theorem at?_eq_some {α : Type} {xs : List α} {idx : Int} {a : α} (h : at? xs idx = some a) :
    ∃ i : Nat, idx = i ∧ xs[i]? = some a := by
  unfold at? at h
  split at h
  · exact ⟨idx.toNat, by omega, h⟩
  · cases h

theorem at?_natCast {α : Type} (xs : List α) (i : Nat) : at? xs (i : Int) = xs[i]? := by
  unfold at?
  rw [if_pos (by omega), Int.toNat_natCast]

theorem at?_append {α : Type} {xs : List α} {idx : Int} (h : idx < xs.length) (more : List α) :
    at? (xs ++ more) idx = at? xs idx := by
  unfold at?
  split
  · rw [List.getElem?_append_left (by omega)]
  · rfl

theorem instructionAt?_eq_some {h : History} {idx : Int} {ins : Instruction}
    (hins : h.instructionAt? idx = some ins) :
    ∃ (i : Nat) (line : LogLine), idx = i ∧ h.lines[i]? = some line ∧
      line.instruction? = some ins := by
  obtain ⟨line, hline, hl⟩ := Option.bind_eq_some_iff.mp hins
  obtain ⟨i, hi, hget⟩ := at?_eq_some hline
  exact ⟨i, line, hi, hget, hl⟩

def slotsRead (h : History) : List Slot :=
  firstOnes (h.lines.flatMap fun l => (l.instruction?.map Instruction.reads).getD [])

theorem mem_slotsRead {h : History} {idx : Int} {ins : Instruction} {slot : Slot}
    (hins : h.instructionAt? idx = some ins) (hslot : slot ∈ ins.reads) : slot ∈ h.slotsRead := by
  obtain ⟨i, line, -, hline, hl⟩ := instructionAt?_eq_some hins
  refine (mem_firstOnes _ _).mpr (List.mem_flatMap.mpr ⟨line, ?_, ?_⟩)
  · exact List.mem_of_getElem? hline
  · rw [hl]
    exact hslot

/-- The places that a trace from `start` can come to. -/
def places (h : History) (start : Place) : List Place :=
  start :: ((List.range h.lines.length).map Int.ofNat) ×ˢ (start.2 :: h.slotsRead)

theorem length_places (h : History) (start : Place) : (h.places start).length = h.bound := by
  unfold places bound
  rw [List.length_cons, List.length_product, List.length_map, List.length_range, List.length_cons,
    Nat.add_comm]
  rfl

theorem mem_places {h : History} {start place : Place} :
    place ∈ h.places start ↔ place = start ∨
      (∃ i : Nat, i < h.lines.length ∧ place.1 = i) ∧
        (place.2 = start.2 ∨ place.2 ∈ h.slotsRead) := by
  obtain ⟨idx, slot⟩ := place
  simp only [places, List.mem_cons, List.mem_product, List.mem_map, List.mem_range]
  constructor
  · rintro (heq | ⟨⟨i, hi, rfl⟩, hslot⟩)
    · exact .inl heq
    · exact .inr ⟨⟨i, hi, rfl⟩, hslot⟩
  · rintro (heq | ⟨⟨i, hi, rfl⟩, hslot⟩)
    · exact .inl heq
    · exact .inr ⟨⟨i, hi, rfl⟩, hslot⟩

/-- A step reports a line with an instruction: behind an update the writer before it, from which the
trace goes on, and else the writer, from which it goes on if that copies from a slot. -/
theorem link_cases {h : History} {idx line : Int} {slot : Slot} {next : Option Place}
    (hlink : h.link (idx, slot) = some ⟨line, next⟩) :
    ∃ ins, h.instructionAt? line = some ins ∧
      ((∃ s, h.stateAt? (idx - 1) = some s ∧ s.writerOf? slot = some line ∧
          next = some (line, slot)) ∨
        (∃ s, h.stateAt? idx = some s ∧ s.writerOf? slot = some line ∧
          next = ins.soleRead?.map fun source => (line, source))) := by
  unfold link at hlink
  simp only [Option.bind_eq_bind, Option.bind_eq_some_iff] at hlink
  obtain ⟨-, -, state, hstate, cell, -, writer, hwriter, ins, hins, hlink⟩ := hlink
  split at hlink
  · unfold linkBefore at hlink
    simp only [Option.bind_eq_bind, Option.bind_eq_some_iff] at hlink
    obtain ⟨before, hbefore, prior, hprior, ins', hins', hlink⟩ := hlink
    cases hlink
    exact ⟨ins', hins', .inl ⟨before, hbefore, hprior, rfl⟩⟩
  · cases hlink
    exact ⟨ins, hins, .inr ⟨state, hstate, hwriter, rfl⟩⟩

theorem link_next {h : History} {idx : Int} {slot : Slot} {line : Int} {next : Place}
    (hlink : h.link (idx, slot) = some ⟨line, some next⟩) :
    next.1 = line ∧
      ∃ ins, h.instructionAt? next.1 = some ins ∧ (next.2 = slot ∨ next.2 ∈ ins.reads) := by
  obtain ⟨ins, hins, ⟨-, -, -, hnext⟩ | ⟨-, -, -, hnext⟩⟩ := link_cases hlink
  · cases hnext
    exact ⟨rfl, ins, hins, .inl rfl⟩
  · obtain ⟨source, hsole, rfl⟩ := Option.map_eq_some_iff.mp hnext.symm
    exact ⟨rfl, ins, hins, .inr (Instruction.mem_reads_of_soleRead? hsole)⟩

theorem mem_places_of_link {h : History} {start place next : Place} {line : Int}
    (hplace : place ∈ h.places start) (hlink : h.link place = some ⟨line, some next⟩) :
    next ∈ h.places start := by
  obtain ⟨-, ins, hins, hslot⟩ := link_next hlink
  obtain ⟨i, l, hi, hl, -⟩ := instructionAt?_eq_some hins
  refine mem_places.mpr (.inr ⟨⟨i, (List.getElem?_eq_some_iff.mp hl).1, hi⟩, ?_⟩)
  rcases hslot with heq | hread
  · rw [heq]
    rcases mem_places.mp hplace with rfl | ⟨-, hslot⟩
    · exact .inl rfl
    · exact hslot
  · exact .inr (mem_slotsRead hins hread)

/-- Where as many places are visited as the trace can come to, none is left. -/
theorem mem_of_bound_le {h : History} {start place : Place} {visited : List Place}
    (hn : visited.Nodup) (hv : visited ⊆ h.places start) (hp : place ∈ h.places start)
    (hlen : h.bound ≤ visited.length) : place ∈ visited := by
  have hperm : List.Perm visited (h.places start) :=
    (List.subperm_of_subset hn hv).perm_of_length_le (by rw [length_places]; exact hlen)
  exact hperm.mem_iff.mpr hp

/-- With a step for every place that is left, more steps lead no further. -/
theorem walk_more {h : History} {start : Place} {fuel : Nat} {visited : List Place} {place : Place}
    (hn : visited.Nodup) (hv : visited ⊆ h.places start) (hp : place ∈ h.places start)
    (hfuel : h.bound ≤ fuel + visited.length) (more : Nat) :
    h.walk (fuel + more) visited place = h.walk fuel visited place := by
  induction fuel generalizing visited place with
  | zero =>
    have hmem : place ∈ visited := mem_of_bound_le hn hv hp (by omega)
    rw [Nat.zero_add]
    cases more with
    | zero => rfl
    | succ more => simp only [walk, if_pos hmem]
  | succ fuel ih =>
    rw [Nat.succ_add]
    unfold walk
    by_cases hmem : place ∈ visited
    · rw [if_pos hmem, if_pos hmem]
    · rw [if_neg hmem, if_neg hmem]
      cases hlink : h.link place with
      | none => rfl
      | some l =>
        obtain ⟨line, next⟩ := l
        cases next with
        | none => rfl
        | some next =>
          have hstep := ih (List.nodup_cons.mpr ⟨hmem, hn⟩)
            (List.cons_subset.mpr ⟨hp, hv⟩) (mem_places_of_link hp hlink)
            (by rw [List.length_cons]; omega)
          simp only [hstep]

/-- The bound of the trace is never reached with places left to visit. -/
theorem walk_stable (h : History) (place : Place) (more : Nat) :
    h.walk (h.bound + more) [] place = h.walk h.bound [] place :=
  walk_more List.nodup_nil (List.nil_subset _) (mem_places.mpr (.inl rfl)) (Nat.le_refl _) more

/-- A line that the trace reports is reported by a step from a place that it comes to. `P` may be
anything that the trace keeps from place to place. -/
theorem link_of_mem_walk {h : History} {P : Place → Prop}
    (hP : ∀ place line next, P place → h.link place = some ⟨line, some next⟩ → P next) {fuel : Nat}
    {visited : List Place} {place : Place} (hplace : P place) {d : Int}
    (hd : d ∈ h.walk fuel visited place) :
    ∃ origin next, P origin ∧ h.link origin = some ⟨d, next⟩ := by
  induction fuel generalizing visited place with
  | zero => cases hd
  | succ fuel ih =>
    unfold walk at hd
    split at hd
    · cases hd
    · split at hd
      · cases hd
      · next line hlink =>
        rw [List.mem_singleton] at hd
        subst hd
        exact ⟨place, none, hplace, hlink⟩
      · next line next hlink =>
        rcases List.mem_cons.mp hd with rfl | hd
        · exact ⟨place, some next, hplace, hlink⟩
        · exact ih (hP place line next hplace hlink) hd

end History
end VerifierTrace
