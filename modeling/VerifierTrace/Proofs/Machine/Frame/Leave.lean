import VerifierTrace.Proofs.Machine.Frame.Enter

/-!
# VerifierTrace.Proofs.Machine.Frame.Leave

What leaving a frame does to the slots of the caller.

Leaving goes through the callee's writers and renames those of the caller's stack slots one after
another. `leave_ok` gives the outcome as a single list of insertions, made of `returnedValue` and
`returnedWriter`:

* `writerOf?_leave_named`, `get?_leave_named`: a location that is no stack slot.
* `writerOf?_leave_stack`, `get?_leave_stack`: a stack slot of a frame that goes on has the writer
  and the value that the callee left there, if the callee knows a writer, and else the caller's.
* `leave_site`: every writer stays with its site.
-/

namespace VerifierTrace
namespace State

theorem get?_foldl_erase_register {α : Type} (rs : List Register) (t : Table Slot α) (k : Slot) :
    (rs.foldl (fun t r => t.erase r.slot) t).get? k =
      if k ∈ rs.map Register.slot then none else t.get? k := by
  induction rs generalizing t with
  | nil => rfl
  | cons r rs ih =>
    rw [List.foldl_cons, ih, Table.get?_erase]
    by_cases hk : r.slot = k
    · subst hk
      simp
    · have hk' : ¬ k = r.slot := fun h => hk h.symm
      simp only [if_neg hk, List.map_cons, List.mem_cons, hk', false_or]

/-- The name that a slot of the callee has in the frame it returns to, for stack slots of frames
that go on. -/
def returnName (caller : State) (slot : Slot) : Option Slot :=
  match Slot.stackLocation? slot with
  | some ⟨some owner, offset⟩ =>
    if caller.frame < owner then none else some (Slot.ofFrame owner offset caller.frame)
  | _ => none

def returnedValue (caller inner : State) (e : Slot × Int) : Option (Slot × Cell) :=
  (caller.returnName e.1).bind fun n => (inner.values.get? e.1).map fun c => (n, c.untouched)

def returnedWriter (caller : State) (e : Slot × Int) : Option (Slot × Int) :=
  (caller.returnName e.1).map fun n => (n, e.2)

theorem returnSlot_ok {caller inner : State} {d d' : Draft} {e : Slot × Int}
    (h : returnSlot caller inner d e.1 e.2 = .ok d') :
    d' = ⟨d.values.insertAll (returnedValue caller inner e).toList,
      d.writers.insertAll (caller.returnedWriter e).toList⟩ := by
  unfold returnSlot at h
  cases hl : Slot.location e.1 with
  | error fault => rw [hl] at h; cases h
  | ok l =>
    rw [hl] at h
    have hs := Slot.stackLocation?_of_location hl
    unfold returnedValue returnedWriter returnName
    rw [hs]
    cases l with
    | none => cases h; rfl
    | some l =>
      obtain ⟨frame, offset⟩ := l
      cases frame with
      | none => cases h; rfl
      | some owner =>
        simp only at h ⊢
        by_cases ho : caller.frame < owner
        · rw [if_pos ho] at h ⊢
          cases h
          rfl
        · rw [if_neg ho] at h ⊢
          cases h
          cases inner.values.get? e.1 <;> rfl

theorem returnSlots_ok {caller inner : State} {d d' : Draft} {es : List (Slot × Int)}
    (h : returnSlots caller inner d es = .ok d') :
    d' = ⟨d.values.insertAll (es.filterMap (returnedValue caller inner)),
      d.writers.insertAll (es.filterMap caller.returnedWriter)⟩ := by
  induction es generalizing d with
  | nil => cases h; rfl
  | cons e es ih =>
    unfold returnSlots at h
    cases hc : returnSlot caller inner d e.1 e.2 with
    | error fault => rw [hc] at h; cases h
    | ok d₁ =>
      rw [hc] at h
      rw [ih h, returnSlot_ok hc, List.filterMap_cons, List.filterMap_cons]
      cases returnedValue caller inner e <;> cases caller.returnedWriter e <;> rfl

/-- The state of the caller with all that the callee wrote to its stack slots, before the result is
taken. -/
def rejoined (caller inner : State) : Draft where
  values := (scratched caller).values.insertAll
    (inner.writers.entries.filterMap (returnedValue caller inner))
  writers := (scratched caller).writers.insertAll
    (inner.writers.entries.filterMap caller.returnedWriter)

theorem leave_ok {caller inner s : State} {idx : Int} {ins : Instruction}
    (h : leave caller inner idx ins = .ok s) :
    s = ⟨(takeResult inner (rejoined caller inner)).values,
      (takeResult inner (rejoined caller inner)).writers, caller.frame, idx,
      (ins.pc.getD 0 : Nat)⟩ := by
  unfold leave at h
  split at h
  · cases h
  · rename_i d hd
    cases h
    rw [returnSlots_ok hd]
    rfl

theorem get?_scratched (caller : State) (k : Slot) :
    (scratched caller).values.get? k =
      if k ∈ Register.scratch.map Register.slot then some ⟨"", .write, none⟩
      else (caller.values.get? k).map Cell.untouched := by
  have h := get?_foldl_insert_register (fun _ => (⟨"", .write, none⟩ : Cell)) Register.scratch
    (settle caller.values) k
  rw [get?_settle] at h
  exact h

theorem writerOf?_scratched (caller : State) (k : Slot) :
    (scratched caller).writers.get? k =
      if k ∈ Register.scratch.map Register.slot then none else caller.writerOf? k := by
  exact get?_foldl_erase_register Register.scratch caller.writers k

theorem returnName_site {caller : State} (inner : State) {slot k : Slot}
    (h : caller.returnName slot = some k) :
    ∃ (owner : Nat) (offset : Int), owner ≤ caller.frame ∧
      Slot.site inner.frame slot = .stack owner offset ∧
      k = Slot.ofFrame owner offset caller.frame := by
  unfold returnName at h
  split at h
  · rename_i owner offset hl
    split at h
    · cases h
    · rename_i ho
      cases h
      exact ⟨owner, offset, by omega, Slot.site_of_some hl, rfl⟩
  · cases h

theorem mem_returnedWriters {caller inner : State} {k : Slot} {w : Int} :
    (k, w) ∈ inner.writers.entries.filterMap caller.returnedWriter ↔
      ∃ slot, inner.writerOf? slot = some w ∧ caller.returnName slot = some k := by
  rw [List.mem_filterMap]
  constructor
  · rintro ⟨⟨slot, w'⟩, he, hc⟩
    simp only [returnedWriter, Option.map_eq_some_iff, Prod.mk.injEq] at hc
    obtain ⟨n, hn, rfl, rfl⟩ := hc
    exact ⟨slot, (Table.mem_entries_iff _ _ _).mp he, hn⟩
  · rintro ⟨slot, hw, hn⟩
    refine ⟨(slot, w), (Table.mem_entries_iff _ _ _).mpr hw, ?_⟩
    simp [returnedWriter, hn]

theorem mem_returnedValues {caller inner : State} {k : Slot} {c : Cell} :
    (k, c) ∈ inner.writers.entries.filterMap (returnedValue caller inner) ↔
      ∃ slot c', (inner.writerOf? slot).isSome ∧ caller.returnName slot = some k ∧
        inner.values.get? slot = some c' ∧ c = c'.untouched := by
  rw [List.mem_filterMap]
  constructor
  · rintro ⟨⟨slot, w⟩, he, hc⟩
    simp only [returnedValue, Option.bind_eq_some_iff, Option.map_eq_some_iff,
      Prod.mk.injEq] at hc
    obtain ⟨n, hn, c', hc', rfl, rfl⟩ := hc
    refine ⟨slot, c', ?_, hn, hc', rfl⟩
    rw [writerOf?, (Table.mem_entries_iff _ _ _).mp he]
    rfl
  · rintro ⟨slot, c', hw, hn, hc', rfl⟩
    obtain ⟨w, hw⟩ := Option.isSome_iff_exists.mp hw
    refine ⟨(slot, w), (Table.mem_entries_iff _ _ _).mpr hw, ?_⟩
    simp [returnedValue, hn, hc']

theorem returnName_ne_of_none {caller : State} {k : Slot} (h : Slot.stackLocation? k = none)
    (slot : Slot) : caller.returnName slot ≠ some k := by
  intro hn
  obtain ⟨owner, offset, -, -, rfl⟩ := returnName_site caller hn
  rw [Slot.stackLocation?_ofFrame] at h
  cases h

theorem get?_leave {caller inner s : State} {idx : Int} {ins : Instruction}
    (h : leave caller inner idx ins = .ok s) (k : Slot) :
    s.values.get? k =
      if Register.result.slot = k then some ⟨inner.valueD Register.result.slot, .none, none⟩
      else (rejoined caller inner).values.get? k := by
  rw [leave_ok h]
  exact Table.get?_insert _ _ _ _

theorem writerOf?_leave {caller inner s : State} {idx : Int} {ins : Instruction}
    (h : leave caller inner idx ins = .ok s) (k : Slot) :
    s.writerOf? k =
      if Register.result.slot = k then inner.writerOf? k
      else (rejoined caller inner).writers.get? k := by
  rw [leave_ok h]
  simp only [writerOf?, takeResult]
  cases hw : inner.writers.get? Register.result.slot with
  | none =>
    simp only [Table.get?_erase]
    split
    · next heq => rw [← heq, hw]
    · rfl
  | some w =>
    simp only [Table.get?_insert]
    split
    · next heq => rw [← heq, hw]
    · rfl

theorem get?_leave_named {caller inner s : State} {idx : Int} {ins : Instruction}
    (h : leave caller inner idx ins = .ok s) {k : Slot} (hk : Slot.stackLocation? k = none) :
    s.values.get? k =
      if Register.result.slot = k then some ⟨inner.valueD Register.result.slot, .none, none⟩
      else if k ∈ Register.scratch.map Register.slot then some ⟨"", .write, none⟩
      else (caller.values.get? k).map Cell.untouched := by
  rw [get?_leave h, rejoined, Table.get?_insertAll_of_not_mem, get?_scratched]
  intro c hc
  obtain ⟨slot, -, -, hn, -⟩ := mem_returnedValues.mp hc
  exact returnName_ne_of_none hk slot hn

theorem writerOf?_leave_named {caller inner s : State} {idx : Int} {ins : Instruction}
    (h : leave caller inner idx ins = .ok s) {k : Slot} (hk : Slot.stackLocation? k = none) :
    s.writerOf? k =
      if Register.result.slot = k then inner.writerOf? k
      else if k ∈ Register.scratch.map Register.slot then none
      else caller.writerOf? k := by
  rw [writerOf?_leave h, rejoined, Table.get?_insertAll_of_not_mem, writerOf?_scratched]
  intro w hw
  obtain ⟨slot, -, hn⟩ := mem_returnedWriters.mp hw
  exact returnName_ne_of_none hk slot hn

/-- A writer after the exit was there in the caller or comes from the callee, with its site. -/
theorem leave_site {caller inner s : State} {idx : Int} {ins : Instruction}
    (h : leave caller inner idx ins = .ok s) {k : Slot} {w : Int} (hk : s.writerOf? k = some w) :
    caller.writerOf? k = some w ∨
      ∃ slot, inner.writerOf? slot = some w ∧
        Slot.site inner.frame slot = Slot.site caller.frame k ∧ Slot.Canonical caller.frame k := by
  by_cases hnone : Slot.stackLocation? k = none
  · rw [writerOf?_leave_named h hnone] at hk
    split at hk
    · refine .inr ⟨k, hk, ?_, Slot.canonical_of_none hnone⟩
      rw [Slot.site_of_none hnone, Slot.site_of_none hnone]
    · split at hk
      · cases hk
      · exact .inl hk
  · rw [writerOf?_leave h, if_neg ?_] at hk
    · rcases Table.get?_insertAll_elim hk with hmem | hold
      · obtain ⟨slot, hw, hn⟩ := mem_returnedWriters.mp hmem
        obtain ⟨owner, offset, -, hsite, rfl⟩ := returnName_site inner hn
        refine .inr ⟨slot, hw, ?_, Slot.canonical_ofFrame _ _ _⟩
        rw [hsite, Slot.site_ofFrame]
      · rw [writerOf?_scratched] at hold
        split at hold
        · cases hold
        · exact .inl hold
    · intro hr
      exact hnone (hr ▸ Slot.stackLocation?_register Register.result)

theorem leave_tidy {caller inner s : State} {idx : Int} {ins : Instruction} (hc : caller.Tidy)
    (hi : inner.Tidy) (h : leave caller inner idx ins = .ok s) : s.Tidy := by
  have hframe : s.frame = caller.frame := by rw [leave_ok h]
  refine ⟨?_, ?_⟩
  · intro k w hk
    rw [get?_leave h]
    split
    · rfl
    · next hr =>
      rw [writerOf?_leave h, if_neg hr] at hk
      refine (Table.isSome_get?_insertAll _ _ _).mpr ?_
      rcases Table.get?_insertAll_elim hk with hmem | hold
      · obtain ⟨slot, hw, hn⟩ := mem_returnedWriters.mp hmem
        obtain ⟨c, hc'⟩ := Option.isSome_iff_exists.mp (hi.known slot w hw)
        exact .inr ⟨c.untouched, mem_returnedValues.mpr ⟨slot, c, by rw [hw]; rfl, hn, hc', rfl⟩⟩
      · rw [writerOf?_scratched] at hold
        split at hold
        · cases hold
        · next hs =>
          rw [get?_scratched, if_neg hs, Option.isSome_map]
          exact .inl (hc.known k w hold)
  · intro k w hk
    rw [hframe]
    rcases leave_site h hk with hold | ⟨slot, -, -, hcan⟩
    · exact hc.canonical k w hold
    · exact hcan

section StackSlots

variable {caller inner s : State} {idx : Int} {ins : Instruction}

theorem ofFrame_not_mem_registers (owner viewer : Nat) (offset : Int) (rs : List Register) :
    Slot.ofFrame owner offset viewer ∉ rs.map Register.slot := by
  intro h
  obtain ⟨r, -, hr⟩ := List.mem_map.mp h
  exact Slot.register_ne_ofFrame r owner viewer offset hr

/-- In a tidy callee exactly one name is handed back as a given stack slot. -/
theorem returnName_eq_iff (hi : inner.Tidy) (hframe : inner.frame = caller.frame + 1) {owner : Nat}
    (ho : owner ≤ caller.frame) (offset : Int) {slot : Slot} {w : Int}
    (hw : inner.writerOf? slot = some w) :
    caller.returnName slot = some (Slot.ofFrame owner offset caller.frame) ↔
      slot = Slot.ofFrame owner offset inner.frame := by
  constructor
  · intro hn
    obtain ⟨owner', offset', -, hsite, heq⟩ := returnName_site inner hn
    have hsame := congrArg (Slot.site caller.frame) heq
    rw [Slot.site_ofFrame, Slot.site_ofFrame] at hsame
    cases hsame
    exact (hi.canonical slot w hw).eq_ofFrame hsite
  · rintro rfl
    have hne : ¬ owner = inner.frame := by omega
    rw [returnName, Slot.stackLocation?_ofFrame, if_neg hne]
    simp only
    rw [if_neg (by omega)]

theorem writerOf?_leave_stack (hi : inner.Tidy) (hframe : inner.frame = caller.frame + 1)
    (h : leave caller inner idx ins = .ok s) {owner : Nat} (ho : owner ≤ caller.frame)
    (offset : Int) :
    s.writerOf? (Slot.ofFrame owner offset caller.frame) =
      (inner.writerOf? (Slot.ofFrame owner offset inner.frame)).or
        (caller.writerOf? (Slot.ofFrame owner offset caller.frame)) := by
  rw [writerOf?_leave h, if_neg (Slot.register_ne_ofFrame _ _ _ _), rejoined]
  cases hw : inner.writerOf? (Slot.ofFrame owner offset inner.frame) with
  | some w =>
    rw [Option.some_or]
    refine Table.get?_insertAll_of_mem ?_ ?_
    · exact mem_returnedWriters.mpr ⟨_, hw, (returnName_eq_iff hi hframe ho offset hw).mpr rfl⟩
    · intro w' hw'
      obtain ⟨slot, hslot, hn⟩ := mem_returnedWriters.mp hw'
      rw [(returnName_eq_iff hi hframe ho offset hslot).mp hn, hw] at hslot
      exact (Option.some.inj hslot).symm
  | none =>
    rw [Option.none_or, Table.get?_insertAll_of_not_mem, writerOf?_scratched,
      if_neg (ofFrame_not_mem_registers _ _ _ _)]
    intro w' hw'
    obtain ⟨slot, hslot, hn⟩ := mem_returnedWriters.mp hw'
    rw [(returnName_eq_iff hi hframe ho offset hslot).mp hn, hw] at hslot
    cases hslot

/-- A stack slot of a frame that goes on has the callee's value if the callee knows a writer for it,
and else the caller's. -/
theorem get?_leave_stack (hi : inner.Tidy) (hframe : inner.frame = caller.frame + 1)
    (h : leave caller inner idx ins = .ok s) {owner : Nat} (ho : owner ≤ caller.frame)
    (offset : Int) :
    s.values.get? (Slot.ofFrame owner offset caller.frame) =
      if (inner.writerOf? (Slot.ofFrame owner offset inner.frame)).isSome then
        (inner.values.get? (Slot.ofFrame owner offset inner.frame)).map Cell.untouched
      else (caller.values.get? (Slot.ofFrame owner offset caller.frame)).map Cell.untouched := by
  rw [get?_leave h, if_neg (Slot.register_ne_ofFrame _ _ _ _), rejoined]
  cases hw : inner.writerOf? (Slot.ofFrame owner offset inner.frame) with
  | some w =>
    obtain ⟨c, hc⟩ := Option.isSome_iff_exists.mp (hi.known _ w hw)
    rw [if_pos Option.isSome_some, hc]
    refine Table.get?_insertAll_of_mem ?_ ?_
    · refine mem_returnedValues.mpr ⟨_, c, by rw [hw]; rfl, ?_, hc, rfl⟩
      exact (returnName_eq_iff hi hframe ho offset hw).mpr rfl
    · intro c' hc'
      obtain ⟨slot, c'', hsome, hn, hval, rfl⟩ := mem_returnedValues.mp hc'
      obtain ⟨w', hw'⟩ := Option.isSome_iff_exists.mp hsome
      rw [(returnName_eq_iff hi hframe ho offset hw').mp hn, hc] at hval
      cases hval
      rfl
  | none =>
    rw [if_neg (by simp), Table.get?_insertAll_of_not_mem, get?_scratched,
      if_neg (ofFrame_not_mem_registers _ _ _ _)]
    intro c' hc'
    obtain ⟨slot, c'', hsome, hn, -, -⟩ := mem_returnedValues.mp hc'
    obtain ⟨w', hw'⟩ := Option.isSome_iff_exists.mp hsome
    rw [(returnName_eq_iff hi hframe ho offset hw').mp hn, hw] at hw'
    cases hw'

end StackSlots

end State
end VerifierTrace
