import Mathlib.Logic.Function.Basic
import VerifierTrace.Proofs.Provenance.Recursion

/-!
# VerifierTrace.Proofs.Provenance.Renumber

The trace through a history whose lines have other indices.

Let `f` give every line below some bound its index in a second history, which has the same
instructions and effects there, and the same writers under `f`. A trace never goes to a later line, so
from below the bound it visits the same places in both, under `f` (`dependencies_renumber`).
-/

namespace VerifierTrace

theorem firstOnes_map {α β : Type} [DecidableEq α] [DecidableEq β] {f : α → β}
    (hf : Function.Injective f) (xs : List α) : firstOnes (xs.map f) = (firstOnes xs).map f := by
  induction xs with
  | nil => rfl
  | cons x xs ih =>
    have hne : (fun b => decide (b ≠ f x)) ∘ f = fun a => decide (a ≠ x) := by
      funext a
      simp [hf.eq_iff]
    rw [List.map_cons, firstOnes, firstOnes, ih, List.filter_map, hne, List.map_cons]

namespace History

def Link.renumber (f : Int → Int) (l : Link) : Link := ⟨f l.line, l.next.map fun q => (f q.1, q.2)⟩

/-- Below the line `bound` the second history is the first with its lines under `f`. -/
structure Mirrors (f : Int → Int) (bound : Int) (h h' : History) : Prop where
  instruction : ∀ idx < bound, h'.instructionAt? (f idx) = h.instructionAt? idx
  writer : ∀ idx < bound, ∀ slot, h'.writerAt? (f idx) slot = (h.writerAt? idx slot).map f
  /-- The writers right before a line are the same too, wherever that line went. -/
  before : ∀ idx < bound, ∀ slot,
    h'.writerAt? (f idx - 1) slot = (h.writerAt? (idx - 1) slot).map f
  effect : ∀ idx < bound, ∀ slot, h'.effectAt? (f idx) slot = h.effectAt? idx slot

section Renumber

variable {f : Int → Int} {bound : Int} {h h' : History} (hg : h.Grounded) (hg' : h'.Grounded)
  (hf : Function.Injective f) (hm : Mirrors f bound h h')

include hg hf hm

theorem origin?_renumber {idx : Int} (hidx : idx < bound) (slot : Slot) :
    h'.origin? (f idx, slot) = (h.origin? (idx, slot)).map (Link.renumber f) := by
  rw [origin?_eq, origin?_eq, hm.instruction idx hidx, hm.writer idx hidx, hm.effect idx hidx,
    hm.before idx hidx]
  cases h.instructionAt? idx with
  | none => rfl
  | some ins =>
    cases hw : h.writerAt? idx slot with
    | none => rfl
    | some w =>
      have hread : h'.soleReadAt? (f w) = h.soleReadAt? w := by
        have hle := (hg.writer idx slot w hw).2.1
        rw [soleReadAt?, soleReadAt?, hm.instruction w (by omega)]
      simp only [Option.map_some, hf.eq_iff, hread]
      split
      · rw [Option.map_map, Option.map_map]
        rfl
      · simp only [Option.map_some, Link.renumber, Option.map_map]
        rfl

include hg'

theorem trail_renumber {place : Place} (hplace : place.1 < bound) :
    h'.trail (f place.1, place.2) = (h.trail place).map f := by
  induction place using (wellFounded_calls hg).induction with
  | _ place ih =>
    rw [trail_eq hg, trail_eq hg', origin?_renumber hg hf hm hplace]
    cases hu : h.origin? place with
    | none => rfl
    | some l =>
      obtain ⟨line, next⟩ := l
      cases next with
      | none => rfl
      | some next =>
        have hle := (rank_lt_of_calls hg ⟨line, hu⟩).2
        have hnext := ih next ⟨line, hu⟩ (by omega)
        simp only [Option.map_some, Link.renumber, hnext, List.map_cons]

/-- From below the bound the trace reports the same lines, under `f`. -/
theorem dependencies_renumber {idx : Int} (hidx : idx < bound) (slot : Slot) :
    h'.dependencies (f idx) slot = (h.dependencies idx slot).map f := by
  rw [dependencies_eq_trail hg, dependencies_eq_trail hg',
    trail_renumber hg hg' hf hm (show (idx, slot).1 < bound from hidx), firstOnes_map hf]

end Renumber

end History
end VerifierTrace
