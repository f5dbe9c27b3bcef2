import VerifierTrace.Proofs.Machine.Apply

/-!
# VerifierTrace.Proofs.Machine.Frame.Enter

What entering a frame does to the slots of the caller.

Entering goes through the caller's slots and renames the stack slots one after another. `enter_ok`
gives the outcome as a single list of insertions, made of `carriedValue` and `carriedWriter`. In a
`Tidy` state, where writers stand under canonical names only, no two renamed writers meet:

* `writerOf?_enter_stack`: a stack slot has the writer in the callee that it has in the caller.
* `enter_site`: every writer in the callee stays with its site.
-/

namespace VerifierTrace
namespace State

/-- Every writer stands under the canonical name of its site, and its slot has a value. -/
structure Tidy (s : State) : Prop where
  known : ∀ slot w, s.writerOf? slot = some w → (s.values.get? slot).isSome
  canonical : ∀ slot w, s.writerOf? slot = some w → Slot.Canonical s.frame slot

/-! ## Registers of a new frame -/

theorem get?_foldl_insert_register {α : Type} (f : Slot → α) (rs : List Register)
    (t : Table Slot α) (k : Slot) :
    (rs.foldl (fun t r => t.insert r.slot (f r.slot)) t).get? k =
      if k ∈ rs.map Register.slot then some (f k) else t.get? k := by
  induction rs generalizing t with
  | nil => rfl
  | cons r rs ih =>
    rw [List.foldl_cons, ih, Table.get?_insert]
    by_cases hk : r.slot = k
    · subst hk
      simp
    · have hk' : ¬ k = r.slot := fun h => hk h.symm
      simp only [if_neg hk, List.map_cons, List.mem_cons, hk', false_or]

theorem get?_foldl_insert_writer (caller : State) (rs : List Register) (t : Table Slot Int)
    (k : Slot) :
    (rs.foldl (fun t r => match caller.writerOf? r.slot with
      | some w => t.insert r.slot w
      | none => t) t).get? k =
      if k ∈ rs.map Register.slot then (caller.writerOf? k).or (t.get? k) else t.get? k := by
  induction rs generalizing t with
  | nil => rfl
  | cons r rs ih =>
    rw [List.foldl_cons, ih]
    by_cases hk : r.slot = k
    · subst hk
      cases hw : caller.writerOf? r.slot with
      | none => simp
      | some w => simp [Table.get?_insert]
    · have hk' : ¬ k = r.slot := fun h => hk h.symm
      cases hw : caller.writerOf? r.slot with
      | none => simp only [List.map_cons, List.mem_cons, hk', false_or]
      | some w =>
        simp only [Table.get?_insert, if_neg hk, List.map_cons, List.mem_cons, hk', false_or]

theorem writerOf?_newFrame (setup : Setup) (caller : State) (k : Slot) :
    (newFrame setup caller).writers.get? k =
      if k ∈ Register.scratch.map Register.slot then caller.writerOf? k else none := by
  have h := get?_foldl_insert_writer caller Register.scratch .empty k
  rw [Table.get?_empty, Option.or_none] at h
  exact h

theorem get?_newFrame (setup : Setup) (caller : State) (k : Slot) :
    (newFrame setup caller).values.get? k =
      if Register.framePointer.slot = k then some ⟨setup.frameBase, .none, none⟩
      else if k ∈ (Register.result :: Register.preserved).map Register.slot then
        some ⟨"", .write, none⟩
      else if k ∈ Register.scratch.map Register.slot then some ⟨caller.valueD k, .read, none⟩
      else none := by
  have harg := get?_foldl_insert_register (fun k => (⟨caller.valueD k, .read, none⟩ : Cell))
    Register.scratch .empty k
  have hclear := fun t => get?_foldl_insert_register (fun _ => (⟨"", .write, none⟩ : Cell))
    (Register.result :: Register.preserved) t k
  rw [Table.get?_empty] at harg
  simp only [newFrame, Table.get?_insert]
  rw [hclear, harg]

theorem isSome_get?_newFrame {setup : Setup} {caller : State} {k : Slot}
    (h : k ∈ Register.scratch.map Register.slot) :
    ((newFrame setup caller).values.get? k).isSome := by
  rw [get?_newFrame, if_pos h]
  split
  · rfl
  · split <;> rfl

theorem stackLocation?_of_mem_registers {rs : List Register} {k : Slot}
    (h : k ∈ rs.map Register.slot) : Slot.stackLocation? k = none := by
  obtain ⟨r, -, rfl⟩ := List.mem_map.mp h
  exact Slot.stackLocation?_register r

/-! ## Entering -/

/-- The name that a slot of the caller has in the frame it calls, for stack slots. -/
def nestedName (caller : State) (slot : Slot) : Option Slot :=
  (Slot.stackLocation? slot).map fun l =>
    Slot.ofFrame (l.frame.getD caller.frame : Nat) l.offset (caller.frame + 1 : Nat)

def carriedValue (caller : State) (e : Slot × Cell) : Option (Slot × Cell) :=
  (caller.nestedName e.1).map fun n => (n, e.2.untouched)

def carriedWriter (caller : State) (e : Slot × Cell) : Option (Slot × Int) :=
  (caller.nestedName e.1).bind fun n => (caller.writerOf? e.1).map fun w => (n, w)

theorem carrySlot_ok {caller : State} {d d' : Draft} {e : Slot × Cell}
    (h : carrySlot caller d e.1 e.2 = .ok d') :
    d' = ⟨d.values.insertAll (caller.carriedValue e).toList,
      d.writers.insertAll (caller.carriedWriter e).toList⟩ := by
  unfold carrySlot at h
  cases hl : Slot.location e.1 with
  | error fault => rw [hl] at h; cases h
  | ok l =>
    rw [hl] at h
    have hs := Slot.stackLocation?_of_location hl
    unfold carriedValue carriedWriter nestedName
    rw [hs]
    cases l with
    | none => cases h; rfl
    | some l =>
      cases h
      cases caller.writerOf? e.1 <;> rfl

theorem carrySlots_ok {caller : State} {d d' : Draft} {es : List (Slot × Cell)}
    (h : carrySlots caller d es = .ok d') :
    d' = ⟨d.values.insertAll (es.filterMap caller.carriedValue),
      d.writers.insertAll (es.filterMap caller.carriedWriter)⟩ := by
  induction es generalizing d with
  | nil => cases h; rfl
  | cons e es ih =>
    unfold carrySlots at h
    cases hc : carrySlot caller d e.1 e.2 with
    | error fault => rw [hc] at h; cases h
    | ok d₁ =>
      rw [hc] at h
      rw [ih h, carrySlot_ok hc, List.filterMap_cons, List.filterMap_cons]
      cases caller.carriedValue e <;> cases caller.carriedWriter e <;> rfl

theorem enter_ok {setup : Setup} {caller s : State} {idx : Int} {ins : Instruction}
    {exprs : List StateExpr} (h : enter setup caller idx ins exprs = .ok s) :
    s = ⟨report ((newFrame setup caller).values.insertAll
        (caller.values.entries.filterMap caller.carriedValue)) exprs,
      (newFrame setup caller).writers.insertAll
        (caller.values.entries.filterMap caller.carriedWriter),
      caller.frame + 1, idx, (ins.pc.getD 0 : Nat)⟩ := by
  unfold enter at h
  split at h
  · cases h
  · rename_i d hd
    cases h
    rw [carrySlots_ok hd]

theorem mem_carriedWriters {caller : State} {k : Slot} {w : Int} :
    (k, w) ∈ caller.values.entries.filterMap caller.carriedWriter ↔
      ∃ slot, (caller.values.get? slot).isSome ∧ caller.nestedName slot = some k ∧
        caller.writerOf? slot = some w := by
  rw [List.mem_filterMap]
  constructor
  · rintro ⟨⟨slot, c⟩, he, hc⟩
    simp only [carriedWriter, Option.bind_eq_some_iff, Option.map_eq_some_iff,
      Prod.mk.injEq] at hc
    obtain ⟨n, hn, w', hw, rfl, rfl⟩ := hc
    exact ⟨slot, by rw [(Table.mem_entries_iff _ _ _).mp he]; rfl, hn, hw⟩
  · rintro ⟨slot, hv, hn, hw⟩
    obtain ⟨c, hc⟩ := Option.isSome_iff_exists.mp hv
    refine ⟨(slot, c), (Table.mem_entries_iff _ _ _).mpr hc, ?_⟩
    simp [carriedWriter, hn, hw]

theorem nestedName_site {caller : State} {slot k : Slot} (h : caller.nestedName slot = some k) :
    Slot.site (caller.frame + 1) k = Slot.site caller.frame slot ∧
      Slot.Canonical (caller.frame + 1) k := by
  unfold nestedName at h
  obtain ⟨l, hl, rfl⟩ := Option.map_eq_some_iff.mp h
  rw [Slot.site_of_some hl, Slot.site_ofFrame]
  exact ⟨rfl, Slot.canonical_ofFrame _ _ _⟩

/-- A writer in the callee was carried over from the caller and stays with its site. -/
theorem enter_site {setup : Setup} {caller s : State} {idx : Int} {ins : Instruction}
    {exprs : List StateExpr} (h : enter setup caller idx ins exprs = .ok s) {k : Slot} {w : Int}
    (hk : s.writerOf? k = some w) :
    ∃ slot, caller.writerOf? slot = some w ∧
      Slot.site caller.frame slot = Slot.site s.frame k ∧ Slot.Canonical s.frame k ∧
      (s.values.get? k).isSome := by
  rw [enter_ok h] at hk ⊢
  rcases Table.get?_insertAll_elim hk with hmem | hnew
  · obtain ⟨slot, hv, hn, hw⟩ := mem_carriedWriters.mp hmem
    obtain ⟨hsite, hcan⟩ := nestedName_site hn
    refine ⟨slot, hw, hsite.symm, hcan, ?_⟩
    rw [get?_report]
    refine isSome_reportOver _ ((Table.isSome_get?_insertAll _ _ _).mpr (.inr ?_))
    obtain ⟨c, hc⟩ := Option.isSome_iff_exists.mp hv
    refine ⟨c.untouched, List.mem_filterMap.mpr ⟨(slot, c), ?_, ?_⟩⟩
    · exact (Table.mem_entries_iff _ _ _).mpr hc
    · simp [carriedValue, hn]
  · rw [writerOf?_newFrame] at hnew
    split at hnew
    · rename_i hscratch
      have hnone := stackLocation?_of_mem_registers hscratch
      refine ⟨k, hnew, ?_, Slot.canonical_of_none hnone, ?_⟩
      · rw [Slot.site_of_none hnone, Slot.site_of_none hnone]
      · rw [get?_report]
        refine isSome_reportOver _ ((Table.isSome_get?_insertAll _ _ _).mpr (.inl ?_))
        exact isSome_get?_newFrame hscratch
    · cases hnew

theorem enter_tidy {setup : Setup} {caller s : State} {idx : Int} {ins : Instruction}
    {exprs : List StateExpr} (h : enter setup caller idx ins exprs = .ok s) : s.Tidy where
  known := fun _ _ hk => (enter_site h hk).choose_spec.2.2.2
  canonical := fun _ _ hk => (enter_site h hk).choose_spec.2.2.1

/-- A location that is no stack slot is as the new frame has it, but for reports. -/
theorem get?_enter_named {setup : Setup} {caller s : State} {idx : Int} {ins : Instruction}
    {exprs : List StateExpr} (h : enter setup caller idx ins exprs = .ok s) {k : Slot}
    (hk : Slot.stackLocation? k = none) :
    s.values.get? k =
      Cell.reportOver ((newFrame setup caller).values.get? k) (reported? exprs k) := by
  rw [enter_ok h, get?_report, Table.get?_insertAll_of_not_mem]
  intro c hc
  obtain ⟨e, -, he⟩ := List.mem_filterMap.mp hc
  obtain ⟨name, hn, heq⟩ := Option.map_eq_some_iff.mp he
  cases heq
  obtain ⟨l, -, rfl⟩ := Option.map_eq_some_iff.mp hn
  rw [Slot.stackLocation?_ofFrame] at hk
  cases hk

theorem valueD_enter_argument {setup : Setup} {caller s : State} {idx : Int} {ins : Instruction}
    {exprs : List StateExpr} (h : enter setup caller idx ins exprs = .ok s) {r : Register}
    (hr : r ∈ Register.scratch) (hquiet : reported? exprs r.slot = none) :
    s.valueD r.slot = caller.valueD r.slot := by
  have hother : Register.framePointer.slot ≠ r.slot ∧
      r.slot ∉ (Register.result :: Register.preserved).map Register.slot := by
    clear hquiet
    revert r
    decide
  rw [valueD, valueOf?, get?_enter_named h (Slot.stackLocation?_register r), hquiet, get?_newFrame,
    if_neg hother.1, if_neg hother.2, if_pos (List.mem_map_of_mem hr)]
  rfl

theorem writerOf?_enter_stack {setup : Setup} {caller s : State} {idx : Int} {ins : Instruction}
    {exprs : List StateExpr} (ht : caller.Tidy) (h : enter setup caller idx ins exprs = .ok s)
    (owner : Nat) (offset : Int) :
    s.writerOf? (Slot.ofFrame owner offset (caller.frame + 1 : Nat)) =
      caller.writerOf? (Slot.ofFrame owner offset caller.frame) := by
  have hframe : s.frame = caller.frame + 1 := by rw [enter_ok h]
  refine Option.ext fun w => ⟨?_, ?_⟩
  · intro hw
    obtain ⟨slot, hslot, hsite, -, -⟩ := enter_site h hw
    rw [hframe, Slot.site_ofFrame] at hsite
    rw [← (ht.canonical slot w hslot).eq_ofFrame hsite]
    exact hslot
  · intro hw
    rw [enter_ok h]
    refine Table.get?_insertAll_of_mem (mem_carriedWriters.mpr ⟨_, ht.known _ _ hw, ?_, hw⟩) ?_
    · rw [nestedName, Slot.stackLocation?_ofFrame]
      by_cases ho : owner = caller.frame
      · simp [ho]
      · simp [ho]
    · intro w' hw'
      obtain ⟨slot, -, hn, hslot⟩ := mem_carriedWriters.mp hw'
      have hsite := (nestedName_site hn).1
      rw [Slot.site_ofFrame] at hsite
      rw [(ht.canonical slot w' hslot).eq_ofFrame hsite.symm, hw] at hslot
      exact (Option.some.inj hslot).symm

end State
end VerifierTrace
