import VerifierTrace.Proofs.Machine.Apply
import VerifierTrace.Proofs.Numeral.Brief

/-!
# VerifierTrace.Proofs.Machine.Pointer

Instructions that stay in their frame, with the stack slots behind their pointers.

While an instruction is applied, a slot holds the value reported for it; without one it holds
nothing if the instruction writes it, and what it held before otherwise. Pointers are followed with
these values, not with those before the line.

* `State.held`: that value.
* `Slot.reach`: the stack slot at a distance from where a value points to.
* `State.stored`, `State.loaded`: the stack slots that an assignment stores to and loads from.
* `apply_ok_iff`: whether an instruction can be applied is up to these two slots alone, and so is
  what it leaves.
* `get?_apply_stored`, `get?_apply_loaded`, `get?_apply_destination`: the cells that a store and a
  load set; `get?_apply_of_untouched`: the cells that stay.
* `Applied`: the writers afterwards, and that nothing is forgotten; `applied_of_apply` shows it.
* `effectOf?_soleRead`: an instruction that reads one slot only, and writes that slot, updates it in
  place.
-/

namespace VerifierTrace

/-- The stack slot at a distance from where a value points to, as seen from a frame, if the value is
a stack pointer. -/
def Slot.reach (viewer : Nat) (pointer : String) (distance : Int) :
    Except NumeralFault (Option Slot) :=
  match location pointer with
  | .error e => .error e
  | .ok none => .ok none
  | .ok (some l) =>
    match Decimal.checkWritable (l.offset + distance) with
    | .error e => .error e
    | .ok z => .ok (some (ofFrame (l.frame.getD viewer : Nat) z viewer))

theorem Slot.reach_ok {viewer : Nat} {pointer : String} {distance : Int} {slot : Slot}
    (h : reach viewer pointer distance = .ok (some slot)) :
    ∃ (owner : Nat) (z : Int), slot = ofFrame owner z viewer := by
  unfold reach at h
  split at h
  · cases h
  · cases h
  · split at h
    · cases h
    · cases h
      exact ⟨_, _, rfl⟩

theorem Slot.reach_ok_iff {viewer : Nat} {pointer : String} {distance : Int} {l : Location}
    {slot : Option Slot} (hl : location pointer = .ok (some l)) :
    reach viewer pointer distance = .ok slot ↔ Decimal.Writable (l.offset + distance) ∧
      slot = some (ofFrame (l.frame.getD viewer : Nat) (l.offset + distance) viewer) := by
  by_cases hz : Decimal.Writable (l.offset + distance)
  · have hcheck : Decimal.checkWritable (l.offset + distance) = .ok (l.offset + distance) := by
      rw [Decimal.checkWritable, if_pos ((Decimal.lt_natPow_iff _ _).mpr hz)]
    simp only [reach, hl, hcheck, Except.ok.injEq, hz, true_and, eq_comm]
  · have hcheck : Decimal.checkWritable (l.offset + distance) = .error .unwritable := by
      rw [Decimal.checkWritable, if_neg fun h => hz ((Decimal.lt_natPow_iff _ _).mp h)]
    simp [reach, hl, hcheck, hz]

theorem Slot.exists_reach_iff {viewer : Nat} {pointer : String} {distance : Int} {l : Location}
    (hl : location pointer = .ok (some l)) :
    (∃ slot, reach viewer pointer distance = .ok slot) ↔
      Decimal.Writable (l.offset + distance) := by
  simp only [reach_ok_iff hl, exists_and_left, exists_eq, and_true]

theorem Slot.reach_empty (viewer : Nat) (distance : Int) : reach viewer "" distance = .ok none :=
  rfl

/-- Destination and source of an assignment. -/
def Action.assigned? : Action → Option (Operand.Form × Operand.Form)
  | .compute .assign dst src => some (dst.form, src.form)
  | _ => none

theorem Instruction.eq_of_assigned? {ins : Instruction} {dst src : Operand.Form}
    (h : ins.action.assigned? = some (dst, src)) :
    ins.reads = Action.computeReads .assign dst src ∧ ins.writes = [dst.slot] := by
  unfold Action.assigned? at h
  split at h
  · next haction =>
    cases h
    rw [Instruction.reads, Instruction.writes, haction]
    exact ⟨rfl, rfl⟩
  · cases h

namespace State

/-- The value of a slot while an instruction is applied. -/
def held (s : State) (ins : Instruction) (exprs : List StateExpr) (slot : Slot) : String :=
  (reported? exprs slot).getD (if slot ∈ ins.writes then "" else s.valueD slot)

/-- The stack slot that memory behind a register lies in while an instruction is applied, if the
register holds a stack pointer. -/
def behind (s : State) (ins : Instruction) (exprs : List StateExpr) (f : Operand.Form) :
    Except NumeralFault (Option Slot) :=
  match f.pointer? with
  | none => .ok none
  | some (base, offset) => Slot.reach s.frame (s.held ins exprs base.slot) offset

/-- The stack slot that an assignment stores to through a pointer, if there is one. -/
def stored (s : State) (ins : Instruction) (exprs : List StateExpr) :
    Except NumeralFault (Option Slot) :=
  match ins.action.assigned? with
  | some (dst, _) => s.behind ins exprs dst
  | none => .ok none

/-- The stack slot that an assignment loads from through a pointer, if there is one. -/
def loaded (s : State) (ins : Instruction) (exprs : List StateExpr) :
    Except NumeralFault (Option Slot) :=
  match ins.action.assigned? with
  | some (_, src) => s.behind ins exprs src
  | none => .ok none

variable {s s' : State} {idx : Int} {ins : Instruction} {exprs : List StateExpr} {k : Slot}

/-! ## Values while an instruction is applied -/

theorem valueD_mark (s : State) (idx : Int) (ins : Instruction) (exprs : List StateExpr)
    (k : Slot) :
    (((s.mark idx ins exprs).values.get? k).map Cell.value).getD "" = s.held ins exprs k := by
  rw [get?_mark, held, valueD, valueOf?]
  cases reported? exprs k with
  | some v => cases touch ins.reads ins.writes k (s.values.get? k) <;> rfl
  | none =>
    rw [Cell.reportOver, touch, Option.getD_none]
    split
    · split <;> rfl
    · split
      · rfl
      · cases s.values.get? k <;> rfl

theorem value_mark (hk : k ∈ ins.reads ∨ k ∈ ins.writes) :
    ((s.mark idx ins exprs).values.get? k).map Cell.value = some (s.held ins exprs k) := by
  have hmarked : (((s.mark idx ins exprs).values.get? k).map Cell.effect).isSome := by
    rw [effect_mark hk]
    rfl
  rw [← valueD_mark s idx]
  cases hc : (s.mark idx ins exprs).values.get? k with
  | none => rw [hc] at hmarked; cases hmarked
  | some c => rfl

theorem slotBehind_eq (values : Table Slot Cell) (frame : Nat) (base : Register) (offset : Int) :
    slotBehind values frame base offset =
      Slot.reach frame (((values.get? base.slot).map Cell.value).getD "") offset := by
  unfold slotBehind
  cases values.get? base.slot with
  | none => exact (Slot.reach_empty frame offset).symm
  | some c =>
    rw [Option.map_some, Option.getD_some]
    unfold Slot.reach
    cases hl : Slot.location c.value with
    | error e => simp only [hl]
    | ok l =>
      cases l with
      | none => simp only [hl]
      | some l => cases hz : Decimal.checkWritable (l.offset + offset) <;> simp only [hl, hz]

theorem behind_of_address?_none {f : Operand.Form} (h : f.address? = none) :
    s.behind ins exprs f = .ok none := by
  have hpointer : f.pointer? = none := by rw [Operand.Form.pointer?, h]; rfl
  simp only [behind, hpointer]

theorem behind_ok {f : Operand.Form} (h : s.behind ins exprs f = .ok (some k)) :
    ∃ (owner : Nat) (z : Int), k = Slot.ofFrame owner z s.frame := by
  unfold behind at h
  split at h
  · cases h
  · exact Slot.reach_ok h

theorem stored_ok (h : s.stored ins exprs = .ok (some k)) :
    ∃ (owner : Nat) (z : Int), k = Slot.ofFrame owner z s.frame := by
  unfold stored at h
  split at h
  · exact behind_ok h
  · cases h

theorem loaded_ok (h : s.loaded ins exprs = .ok (some k)) :
    ∃ (owner : Nat) (z : Int), k = Slot.ofFrame owner z s.frame := by
  unfold loaded at h
  split at h
  · exact behind_ok h
  · cases h

/-- The value that a load finds: none that is reported for the slot is lost. -/
theorem reportedOr_mark (s : State) (idx : Int) (ins : Instruction) (exprs : List StateExpr)
    (k : Slot) :
    reportedOr exprs k (s.mark idx ins exprs).values k = s.held ins exprs k := by
  rw [reportedOr, valueD_mark, held]
  cases reported? exprs k with
  | none => rfl
  | some v =>
    rw [Option.bind_some, known?, Option.getD_some]
    by_cases hv : v.isEmpty
    · rw [if_pos hv]
    · rw [if_neg hv]

theorem address?_of_pointer? {f : Operand.Form} {p : Register × Int} (h : f.pointer? = some p) :
    f.address? = some p := by
  unfold Operand.Form.pointer? at h
  exact (Option.filter_eq_some_iff.mp h).1

/-! ## Applying an instruction -/

namespace Draft

/-- The draft after a store of the slot `source` to a stack slot, if there is one. -/
def store (d : Draft) (idx : Int) (exprs : List StateExpr) (source : Slot) : Option Slot → Draft
  | none => d
  | some slot =>
    ⟨d.values.insert slot ⟨reportedOr exprs slot d.values source, .write, none⟩,
      d.writers.insert slot idx⟩

/-- The draft after a load of a stack slot, if there is one, into the slot `dst`. -/
def load (d : Draft) (exprs : List StateExpr) (dst : Slot) : Option Slot → Draft
  | none => d
  | some slot =>
    let value := reportedOr exprs slot d.values slot
    let values := d.values.insert slot ⟨value, .read, none⟩
    match reported? exprs dst with
    | some _ => { d with values := values }
    | none => { d with values := values.insert dst ⟨value, .write, none⟩ }

theorem get?_store (d : Draft) (idx : Int) (exprs : List StateExpr) (source : Slot)
    (target : Option Slot) (k : Slot) :
    (d.store idx exprs source target).values.get? k =
      if target = some k then some ⟨reportedOr exprs k d.values source, .write, none⟩
      else d.values.get? k := by
  cases target with
  | none => rfl
  | some slot =>
    rw [store, Table.get?_insert]
    by_cases hk : slot = k
    · subst hk
      rw [if_pos rfl, if_pos rfl]
    · rw [if_neg hk, if_neg (by simpa using hk)]

theorem writers_store (d : Draft) (idx : Int) (exprs : List StateExpr) (source : Slot)
    (target : Option Slot) (k : Slot) :
    (d.store idx exprs source target).writers.get? k =
      if target = some k then some idx else d.writers.get? k := by
  cases target with
  | none => rfl
  | some slot =>
    rw [store, Table.get?_insert]
    by_cases hk : slot = k
    · subst hk
      rw [if_pos rfl, if_pos rfl]
    · rw [if_neg hk, if_neg (by simpa using hk)]

theorem writers_load (d : Draft) (exprs : List StateExpr) (dst : Slot) (origin : Option Slot) :
    (d.load exprs dst origin).writers = d.writers := by
  cases origin with
  | none => rfl
  | some slot =>
    unfold load
    cases reported? exprs dst <;> rfl

theorem get?_load (d : Draft) (exprs : List StateExpr) (dst slot k : Slot) :
    (d.load exprs dst (some slot)).values.get? k =
      if k = dst ∧ reported? exprs dst = none then
        some ⟨reportedOr exprs slot d.values slot, .write, none⟩
      else if k = slot then some ⟨reportedOr exprs slot d.values slot, .read, none⟩
      else d.values.get? k := by
  unfold load
  cases reported? exprs dst with
  | some v => simp [Table.get?_insert, eq_comm]
  | none => simp [Table.get?_insert, eq_comm]

theorem isSome_get?_store {d : Draft} {idx : Int} {exprs : List StateExpr} {source : Slot}
    {target : Option Slot} {k : Slot} (h : target ≠ some k → (d.values.get? k).isSome) :
    ((d.store idx exprs source target).values.get? k).isSome := by
  rw [get?_store]
  split
  · rfl
  · next hne => exact h hne

theorem isSome_get?_load {d : Draft} {exprs : List StateExpr} {dst : Slot} {origin : Option Slot}
    {k : Slot} (h : (d.values.get? k).isSome) :
    ((d.load exprs dst origin).values.get? k).isSome := by
  cases origin with
  | none => exact h
  | some slot =>
    rw [get?_load]
    split
    · rfl
    · split
      · rfl
      · exact h

end Draft

/-- The draft that an instruction leaves, given the stack slots that it stores to and loads from. -/
def drafted (s : State) (idx : Int) (ins : Instruction) (exprs : List StateExpr)
    (target origin : Option Slot) : Draft :=
  match ins.action.assigned? with
  | some (dst, src) =>
    ((s.mark idx ins exprs).store idx exprs src.slot target).load exprs dst.slot origin
  | none => s.mark idx ins exprs

theorem storeBehind_mark (s : State) (idx : Int) (ins : Instruction) (exprs : List StateExpr)
    (dst src : Operand.Form) :
    storeBehind (s.mark idx ins exprs) s.frame idx exprs dst src =
      (s.behind ins exprs dst).map ((s.mark idx ins exprs).store idx exprs src.slot) := by
  unfold storeBehind behind
  cases dst.pointer? with
  | none => rfl
  | some p =>
    obtain ⟨base, offset⟩ := p
    simp only [slotBehind_eq, valueD_mark]
    cases Slot.reach s.frame (s.held ins exprs base.slot) offset with
    | error e => rfl
    | ok target => cases target <;> rfl

/-- A store leaves the registers alone, so a load behind it finds its pointer as it was. -/
theorem loadBehind_mark (s : State) (idx : Int) (ins : Instruction) (exprs : List StateExpr)
    {dst src : Operand.Form} {d : Draft}
    (hd : ∀ r : Register, d.values.get? r.slot = (s.mark idx ins exprs).values.get? r.slot) :
    loadBehind d s.frame exprs dst src = (s.behind ins exprs src).map (d.load exprs dst.slot) := by
  unfold loadBehind behind
  cases src.pointer? with
  | none => rfl
  | some p =>
    obtain ⟨base, offset⟩ := p
    simp only [slotBehind_eq, hd, valueD_mark]
    cases Slot.reach s.frame (s.held ins exprs base.slot) offset with
    | error e => rfl
    | ok origin =>
      cases origin with
      | none => rfl
      | some slot => cases hdst : reported? exprs dst.slot <;> simp [Draft.load, hdst, Except.map]

theorem get?_register_store (d : Draft) {target : Option Slot}
    (htarget : ∀ k, target = some k → ∃ (owner : Nat) (z : Int), k = Slot.ofFrame owner z s.frame)
    (source : Slot) (r : Register) :
    (d.store idx exprs source target).values.get? r.slot = d.values.get? r.slot := by
  rw [Draft.get?_store, if_neg]
  intro h
  obtain ⟨owner, z, heq⟩ := htarget _ h
  exact Slot.register_ne_ofFrame r owner s.frame z heq

theorem followPointers_eq (d : Draft) (frame : Nat) (idx : Int) (exprs : List StateExpr)
    (a : Action) :
    followPointers d frame idx exprs a =
      match a.assigned? with
      | none => .ok d
      | some (dst, src) =>
        match storeBehind d frame idx exprs dst src with
        | .error e => .error e
        | .ok d => loadBehind d frame exprs dst src := by
  unfold followPointers
  split
  · rfl
  · next hother =>
    have hnone : a.assigned? = none := by
      unfold Action.assigned?
      split
      · next dst src => exact absurd rfl (hother dst src)
      · rfl
    rw [hnone]

theorem followPointers_mark (s : State) (idx : Int) (ins : Instruction) (exprs : List StateExpr) :
    followPointers (s.mark idx ins exprs) s.frame idx exprs ins.action =
      (s.stored ins exprs).bind fun target =>
        (s.loaded ins exprs).map fun origin => s.drafted idx ins exprs target origin := by
  rw [followPointers_eq, stored, loaded]
  unfold drafted
  cases ins.action.assigned? with
  | none => rfl
  | some p =>
    obtain ⟨dst, src⟩ := p
    simp only [storeBehind_mark]
    cases htarget : s.behind ins exprs dst with
    | error e => rfl
    | ok target =>
      have hregisters : ∀ r : Register,
          ((s.mark idx ins exprs).store idx exprs src.slot target).values.get? r.slot =
            (s.mark idx ins exprs).values.get? r.slot :=
        get?_register_store _ (fun k hk => behind_ok (htarget.trans (congrArg _ hk))) src.slot
      simp only [Except.map, loadBehind_mark s idx ins exprs hregisters]
      rfl

/-- Whether an instruction can be applied, and what comes of it, is up to the stack slots that it
stores to and loads from. -/
theorem apply_ok_iff : s.apply idx ins exprs = .ok s' ↔
    ∃ target origin, s.stored ins exprs = .ok target ∧ s.loaded ins exprs = .ok origin ∧
      s' = ⟨(s.drafted idx ins exprs target origin).values,
        (s.drafted idx ins exprs target origin).writers, s.frame, idx,
        (ins.pc.getD 0 : Nat)⟩ := by
  rw [apply, followPointers_mark]
  cases s.stored ins exprs with
  | error e => simp [Except.bind]
  | ok target =>
    cases s.loaded ins exprs with
    | error e => simp [Except.bind, Except.map]
    | ok origin => simp [Except.bind, Except.map, eq_comm]

/-- An instruction can be applied if the names of the slots behind its pointers can be told. -/
theorem exists_apply_iff : (∃ s', s.apply idx ins exprs = .ok s') ↔
    (∃ target, s.stored ins exprs = .ok target) ∧ ∃ origin, s.loaded ins exprs = .ok origin := by
  constructor
  · rintro ⟨s', h⟩
    obtain ⟨target, origin, htarget, horigin, -⟩ := apply_ok_iff.mp h
    exact ⟨⟨target, htarget⟩, origin, horigin⟩
  · rintro ⟨⟨target, htarget⟩, origin, horigin⟩
    exact ⟨_, apply_ok_iff.mpr ⟨target, origin, htarget, horigin, rfl⟩⟩

section Applied

variable (h : s.apply idx ins exprs = .ok s')

include h

theorem frame_of_apply : s'.frame = s.frame := by
  obtain ⟨target, origin, -, -, rfl⟩ := apply_ok_iff.mp h
  rfl

/-- The instruction is the last writer of what it writes, of the slot that it stores to through a
pointer, and of nothing else. -/
theorem writerOf?_apply {target : Option Slot} (htarget : s.stored ins exprs = .ok target)
    (k : Slot) : s'.writerOf? k =
      if k ∈ ins.writes ∨ target = some k then some idx else s.writerOf? k := by
  obtain ⟨target', origin, htarget', -, rfl⟩ := apply_ok_iff.mp h
  rw [htarget] at htarget'
  cases htarget'
  show (s.drafted idx ins exprs target origin).writers.get? k = _
  unfold drafted
  cases hassigned : ins.action.assigned? with
  | none =>
    have hnone : target = none := by
      rw [stored, hassigned] at htarget
      cases htarget
      rfl
    simp [hnone, writerOf?_mark]
  | some p =>
    simp only [Draft.writers_load, Draft.writers_store, writerOf?_mark]
    by_cases hk : target = some k
    · simp [hk]
    · simp [hk]

theorem get?_apply {dst src : Operand.Form} {target origin : Option Slot}
    (hassigned : ins.action.assigned? = some (dst, src))
    (htarget : s.stored ins exprs = .ok target) (horigin : s.loaded ins exprs = .ok origin)
    (k : Slot) : s'.values.get? k =
      (((s.mark idx ins exprs).store idx exprs src.slot target).load exprs dst.slot
        origin).values.get? k := by
  obtain ⟨target', origin', htarget', horigin', rfl⟩ := apply_ok_iff.mp h
  rw [htarget] at htarget'
  rw [horigin] at horigin'
  cases htarget'
  cases horigin'
  simp only [drafted, hassigned]

/-- The slot behind the pointer of a store takes the value that is reported for it, if that is
known, and else the one that the source holds. -/
theorem get?_apply_stored {dst src : Operand.Form}
    (hassigned : ins.action.assigned? = some (dst, src))
    (htarget : s.stored ins exprs = .ok (some k)) (horigin : s.loaded ins exprs = .ok none) :
    s'.values.get? k =
      some ⟨((reported? exprs k).bind known?).getD (s.held ins exprs src.slot), .write, none⟩ := by
  rw [get?_apply h hassigned htarget horigin, Draft.load, Draft.get?_store, if_pos rfl, reportedOr,
    valueD_mark]
  cases (reported? exprs k).bind known? <;> rfl

theorem get?_apply_loaded {dst src : Operand.Form}
    (hassigned : ins.action.assigned? = some (dst, src)) (hk : k ≠ dst.slot)
    (htarget : s.stored ins exprs = .ok none) (horigin : s.loaded ins exprs = .ok (some k)) :
    s'.values.get? k = some ⟨s.held ins exprs k, .read, none⟩ := by
  rw [get?_apply h hassigned htarget horigin, Draft.get?_load, if_neg fun hdst => hk hdst.1,
    if_pos rfl]
  exact congrArg (fun value => some (⟨value, .read, none⟩ : Cell))
    (reportedOr_mark s idx ins exprs k)

/-- A load copies the value of the slot behind its pointer to its destination, unless a value is
reported for that. -/
theorem get?_apply_destination {dst src : Operand.Form}
    (hassigned : ins.action.assigned? = some (dst, src)) (hdst : reported? exprs dst.slot = none)
    (htarget : s.stored ins exprs = .ok none) (horigin : s.loaded ins exprs = .ok (some k)) :
    s'.values.get? dst.slot = some ⟨s.held ins exprs k, .write, none⟩ := by
  rw [get?_apply h hassigned htarget horigin, Draft.get?_load, if_pos ⟨rfl, hdst⟩]
  exact congrArg (fun value => some (⟨value, .write, none⟩ : Cell))
    (reportedOr_mark s idx ins exprs k)

theorem get?_apply_of_marked (hstored : s.stored ins exprs ≠ .ok (some k))
    (hloaded : s.loaded ins exprs = .ok none) :
    s'.values.get? k = (s.mark idx ins exprs).values.get? k := by
  obtain ⟨target, origin, htarget, horigin, hs'⟩ := apply_ok_iff.mp h
  cases hassigned : ins.action.assigned? with
  | none => rw [hs', drafted, hassigned]
  | some p =>
    have hne : target ≠ some k := fun heq => hstored (heq ▸ htarget)
    rw [get?_apply h hassigned htarget hloaded, Draft.load, Draft.get?_store, if_neg hne]

theorem get?_apply_of_untouched (hread : k ∉ ins.reads) (hwrite : k ∉ ins.writes)
    (hstored : s.stored ins exprs ≠ .ok (some k)) (hloaded : s.loaded ins exprs ≠ .ok (some k)) :
    s'.values.get? k =
      ((reported? exprs k).or (s.valueOf? k)).map fun value => ⟨value, .none, none⟩ := by
  obtain ⟨target, origin, htarget, horigin, rfl⟩ := apply_ok_iff.mp h
  have hmark : (s.drafted idx ins exprs target origin).values.get? k =
      (s.mark idx ins exprs).values.get? k := by
    unfold drafted
    cases hassigned : ins.action.assigned? with
    | none => rfl
    | some p =>
      obtain ⟨dst, src⟩ := p
      have hdst : k ≠ dst.slot := by
        rintro rfl
        rw [(Instruction.eq_of_assigned? hassigned).2] at hwrite
        exact hwrite (List.mem_singleton.mpr rfl)
      have htarget' : target ≠ some k := fun heq => hstored (heq ▸ htarget)
      cases origin with
      | none => simp only [Draft.load, Draft.get?_store, if_neg htarget']
      | some slot =>
        have hslot : k ≠ slot := by
          rintro rfl
          exact hloaded horigin
        simp only [Draft.get?_load, hdst, hslot, false_and, if_false, Draft.get?_store,
          if_neg htarget']
  show (s.drafted idx ins exprs target origin).values.get? k = _
  rw [hmark, get?_mark, touch, if_neg hwrite, if_neg hread, valueOf?]
  cases reported? exprs k with
  | none => cases s.values.get? k <;> rfl
  | some v => cases s.values.get? k <;> rfl

theorem isSome_get?_apply {target : Option Slot} (htarget : s.stored ins exprs = .ok target)
    (hk : (s.values.get? k).isSome ∨ k ∈ ins.writes ∨ target = some k) :
    (s'.values.get? k).isSome := by
  obtain ⟨target', origin, htarget', horigin, rfl⟩ := apply_ok_iff.mp h
  rw [htarget] at htarget'
  cases htarget'
  show ((s.drafted idx ins exprs target origin).values.get? k).isSome
  have hmark : target ≠ some k → ((s.mark idx ins exprs).values.get? k).isSome := by
    intro hne
    refine isSome_get?_mark ?_
    rcases hk with hold | hwrite | heq
    · exact .inr hold
    · exact .inl hwrite
    · exact absurd heq hne
  unfold drafted
  cases hassigned : ins.action.assigned? with
  | none =>
    refine hmark ?_
    rintro rfl
    rw [stored, hassigned] at htarget
    cases htarget
  | some p => exact Draft.isSome_get?_load (Draft.isSome_get?_store hmark)

end Applied

/-- What an instruction leaves behind that stays in its frame: it is the last writer of what it
writes and of at most one stack slot `stored` behind a pointer, and no slot is forgotten. -/
structure Applied (s s' : State) (idx : Int) (ins : Instruction) (stored : Option Slot) : Prop where
  frame : s'.frame = s.frame
  writers : ∀ k, s'.writerOf? k =
    if k ∈ ins.writes ∨ stored = some k then some idx else s.writerOf? k
  values : ∀ k, (s.values.get? k).isSome ∨ k ∈ ins.writes ∨ stored = some k →
    (s'.values.get? k).isSome
  named : ∀ k, stored = some k → ∃ (owner : Nat) (z : Int), k = Slot.ofFrame owner z s.frame

theorem applied_of_apply (h : s.apply idx ins exprs = .ok s') :
    ∃ stored, Applied s s' idx ins stored := by
  obtain ⟨target, origin, htarget, -, -⟩ := apply_ok_iff.mp h
  refine ⟨target, frame_of_apply h, writerOf?_apply h htarget,
    fun k hk => isSome_get?_apply h htarget hk, ?_⟩
  rintro k rfl
  exact stored_ok htarget

/-- Nothing is stored through a pointer to the only slot that an instruction reads. -/
theorem stored_ne_of_soleRead (hsole : ins.soleRead? = some k) :
    s.stored ins exprs ≠ .ok (some k) := by
  intro h
  obtain ⟨owner, z, hk⟩ := stored_ok h
  unfold stored at h
  split at h
  · next dst src hassigned =>
    unfold behind at h
    split at h
    · cases h
    · next base offset hpointer =>
      have hbase : k = base.slot := (assign_soleRead (Instruction.eq_of_assigned? hassigned).1
        hsole).2 _ (address?_of_pointer? hpointer)
      exact Slot.register_ne_ofFrame base owner s.frame z (hbase.symm.trans hk)
  · cases h

theorem loaded_of_soleRead (hsole : ins.soleRead? = some k) :
    s.loaded ins exprs = .ok none := by
  unfold loaded
  split
  · next dst src hassigned =>
    exact behind_of_address?_none
      (assign_soleRead (Instruction.eq_of_assigned? hassigned).1 hsole).1
  · rfl

theorem effectOf?_soleRead (h : s.apply idx ins exprs = .ok s') (hsole : ins.soleRead? = some k)
    (hw : s'.writerOf? k = some idx) (hold : s.writerOf? k ≠ some idx) :
    s'.effectOf? k = some .update := by
  obtain ⟨target, origin, htarget, -, -⟩ := apply_ok_iff.mp h
  have hread := Instruction.mem_reads_of_soleRead? hsole
  have hwrite : k ∈ ins.writes := by
    rw [writerOf?_apply h htarget] at hw
    split at hw
    · next hk =>
      refine hk.resolve_right ?_
      rintro rfl
      exact stored_ne_of_soleRead hsole htarget
    · exact absurd hw hold
  rw [effectOf?, get?_apply_of_marked h (stored_ne_of_soleRead hsole) (loaded_of_soleRead hsole),
    effect_mark (.inr hwrite), if_neg (not_not_intro hwrite), if_pos hread]

end State
end VerifierTrace
