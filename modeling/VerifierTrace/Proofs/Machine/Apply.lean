import VerifierTrace.Machine.Step
import VerifierTrace.Proofs.Instruction.Slots
import VerifierTrace.Proofs.Table

/-!
# VerifierTrace.Proofs.Machine.Apply

How an instruction marks the slots that it reads and writes.

* `get?_report`, `reported?_eq_none`: what the facts behind a line make of a slot.
* `get?_mark`: the cell of a slot after reads, writes and reports, from the cell before.
* `effect_mark`: the effect of a slot that is read or written.
* `writerOf?_mark`: the instruction is the last writer of exactly the slots that it writes.
-/

namespace VerifierTrace

/-- The cell of a slot for which a value is reported. -/
def Cell.reportOver (cell : Option Cell) : Option String → Option Cell
  | none => cell
  | some value =>
    match cell with
    | some c => some { c with value := value }
    | none => some ⟨value, .none, none⟩

theorem get?_settle (values : Table Slot Cell) (k : Slot) :
    (settle values).get? k = (values.get? k).map Cell.untouched := by
  rw [settle, Table.get?_mapValues]

theorem reported?_cons (e : StateExpr) (exprs : List StateExpr) (k : Slot) :
    reported? (e :: exprs) k =
      (reported? exprs k).or (if e.slot = k then some e.value else none) := by
  unfold reported?
  rw [List.reverse_cons, List.find?_append]
  cases hf : exprs.reverse.find? fun e => decide (e.slot = k) with
  | some e' => simp
  | none =>
    by_cases hk : e.slot = k
    · simp [hk]
    · simp [hk]

theorem reported?_eq_none {exprs : List StateExpr} {k : Slot} (h : ∀ e ∈ exprs, e.slot ≠ k) :
    reported? exprs k = none := by
  unfold reported?
  rw [Option.map_eq_none_iff, List.find?_eq_none]
  intro e he
  simpa using h e (List.mem_reverse.mp he)

theorem mem_of_reported? {exprs : List StateExpr} {k : Slot} {v : String}
    (h : reported? exprs k = some v) : ∃ e ∈ exprs, e.slot = k ∧ e.value = v := by
  obtain ⟨e, he, rfl⟩ := Option.map_eq_some_iff.mp h
  have hslot := List.find?_some he
  exact ⟨e, List.mem_reverse.mp (List.mem_of_find?_eq_some he), of_decide_eq_true hslot, rfl⟩

namespace State

theorem known?_eq_some_iff {value v : String} : known? value = some v ↔ value = v ∧ v ≠ "" := by
  unfold known?
  split
  · next hempty =>
    rw [String.isEmpty_iff] at hempty
    subst hempty
    simp [eq_comm]
  · next hvalue =>
    rw [String.isEmpty_iff] at hvalue
    simp only [Option.some.injEq]
    exact ⟨fun h => ⟨h, h ▸ hvalue⟩, And.left⟩

/-- What a load or a store takes is reported, or the value of the other slot. -/
theorem reportedOr_elim (exprs : List StateExpr) (slot : Slot) (values : Table Slot Cell)
    (other : Slot) : (∃ e ∈ exprs, reportedOr exprs slot values other = e.value) ∨
      reportedOr exprs slot values other = ((values.get? other).map Cell.value).getD "" := by
  unfold reportedOr
  split
  · next value hvalue =>
    obtain ⟨v, hv, hknown⟩ := Option.bind_eq_some_iff.mp hvalue
    obtain ⟨rfl, -⟩ := known?_eq_some_iff.mp hknown
    obtain ⟨e, he, -, heq⟩ := mem_of_reported? hv
    exact .inl ⟨e, he, heq.symm⟩
  · exact .inr rfl

end State

/-- Of the values reported for a slot the last replaces the one that is known. -/
theorem get?_report (values : Table Slot Cell) (exprs : List StateExpr) (k : Slot) :
    (report values exprs).get? k = Cell.reportOver (values.get? k) (reported? exprs k) := by
  induction exprs generalizing values with
  | nil => rfl
  | cons e exprs ih =>
    have hstep : report values (e :: exprs) =
        report (match values.get? e.slot with
          | some c => values.insert e.slot { c with value := e.value }
          | none => values.insert e.slot ⟨e.value, .none, none⟩) exprs := rfl
    rw [hstep, ih, reported?_cons]
    by_cases hk : e.slot = k
    · subst hk
      cases hc : values.get? e.slot with
      | none => cases reported? exprs e.slot <;> simp [Cell.reportOver, Table.get?_insert]
      | some c => cases reported? exprs e.slot <;> simp [Cell.reportOver, Table.get?_insert]
    · rw [if_neg hk, Option.or_none]
      cases hc : values.get? e.slot with
      | none => simp only [Table.get?_insert, if_neg hk]
      | some c => simp only [Table.get?_insert, if_neg hk]

theorem reportOver_effect {cell : Option Cell} {value : Option String} {c : Cell}
    (h : cell = some c) : (Cell.reportOver cell value).map Cell.effect = some c.effect := by
  subst h
  cases value <;> rfl

theorem isSome_reportOver {cell : Option Cell} (value : Option String) (h : cell.isSome) :
    (Cell.reportOver cell value).isSome := by
  cases cell with
  | none => cases h
  | some c => cases value <;> rfl

namespace State

/-! ## Marks -/

theorem get?_foldl_markRead (reads : List Slot) (values : Table Slot Cell) (k : Slot) :
    (reads.foldl markRead values).get? k =
      if k ∈ reads then some ⟨((values.get? k).map Cell.value).getD "", .read, none⟩
      else values.get? k := by
  induction reads generalizing values with
  | nil => rfl
  | cons slot reads ih =>
    rw [List.foldl_cons, ih, markRead, Table.get?_insert]
    by_cases hk : slot = k
    · subst hk
      simp
    · have hk' : ¬ k = slot := fun h => hk h.symm
      simp only [if_neg hk, List.mem_cons, hk', false_or]

theorem get?_foldl_markWritten {reads writes : List Slot} (hn : writes.Nodup)
    (values : Table Slot Cell) (k : Slot) :
    (writes.foldl (markWritten reads) values).get? k =
      if k ∈ writes then
        some (if k ∈ reads then ⟨"", .update, ((values.get? k).map Cell.value).bind known?⟩
          else ⟨"", .write, none⟩)
      else values.get? k := by
  induction writes generalizing values with
  | nil => rfl
  | cons slot writes ih =>
    obtain ⟨hslot, hn'⟩ := List.nodup_cons.mp hn
    have hset : (markWritten reads values slot).get? k =
        if slot = k then
          some (if k ∈ reads then ⟨"", .update, ((values.get? k).map Cell.value).bind known?⟩
            else ⟨"", .write, none⟩)
        else values.get? k := by
      unfold markWritten
      by_cases hr : slot ∈ reads
      · rw [if_pos hr, Table.get?_insert]
        by_cases hk : slot = k
        · subst hk
          simp [hr]
        · simp [hk]
      · rw [if_neg hr, Table.get?_insert]
        by_cases hk : slot = k
        · subst hk
          simp [hr]
        · simp [hk]
    rw [List.foldl_cons, ih hn', hset]
    by_cases hk : slot = k
    · subst hk
      simp [hslot]
    · have hk' : ¬ k = slot := fun h => hk h.symm
      simp only [if_neg hk, List.mem_cons, hk', false_or]

theorem nodup_writes (ins : Instruction) : ins.writes.Nodup := by
  unfold Instruction.writes
  cases ins.action with
  | compute op dst src => exact List.nodup_singleton _
  | cast dst src toSpace fromSpace => exact List.nodup_singleton _
  | exit => decide
  | goto word target extent => exact List.nodup_nil
  | branch left op right target => exact List.nodup_nil
  | callHelper target extent =>
    show ((Register.result :: Register.scratch).map Register.slot).Nodup
    decide
  | callSubprogram target extent =>
    show ((Register.result :: Register.preserved).map Register.slot).Nodup
    decide

/-- The cell of a slot that an instruction reads or writes, before anything is reported for it. -/
def touch (reads writes : List Slot) (k : Slot) (cell : Option Cell) : Option Cell :=
  if k ∈ writes then
    some (if k ∈ reads then ⟨"", .update, known? ((cell.map Cell.value).getD "")⟩
      else ⟨"", .write, none⟩)
  else if k ∈ reads then some ⟨(cell.map Cell.value).getD "", .read, none⟩
  else cell.map Cell.untouched

theorem get?_mark (s : State) (idx : Int) (ins : Instruction) (exprs : List StateExpr) (k : Slot) :
    (s.mark idx ins exprs).values.get? k =
      Cell.reportOver (touch ins.reads ins.writes k (s.values.get? k)) (reported? exprs k) := by
  have hcell : ∀ c : Option Cell, ((c.map Cell.untouched).map Cell.value) = c.map Cell.value := by
    intro c
    cases c <;> rfl
  rw [mark, get?_report, get?_foldl_markWritten (nodup_writes ins), get?_foldl_markRead,
    get?_settle, hcell, touch]
  congr 1
  by_cases hr : k ∈ ins.reads
  · simp [hr]
  · simp [hr]

theorem effect_mark {s : State} {idx : Int} {ins : Instruction} {exprs : List StateExpr} {k : Slot}
    (hk : k ∈ ins.reads ∨ k ∈ ins.writes) :
    ((s.mark idx ins exprs).values.get? k).map Cell.effect =
      some (if k ∉ ins.writes then .read else if k ∈ ins.reads then .update else .write) := by
  rw [get?_mark, touch]
  by_cases hwrite : k ∈ ins.writes
  · rw [if_pos hwrite, if_neg (not_not_intro hwrite)]
    by_cases hread : k ∈ ins.reads
    · rw [if_pos hread, if_pos hread]
      exact reportOver_effect rfl
    · rw [if_neg hread, if_neg hread]
      exact reportOver_effect rfl
  · rw [if_neg hwrite, if_pos hwrite, if_pos (hk.resolve_right hwrite)]
    exact reportOver_effect rfl

theorem get?_foldl_insert_idx (writes : List Slot) (writers : Table Slot Int) (idx : Int)
    (k : Slot) :
    (writes.foldl (fun t slot => t.insert slot idx) writers).get? k =
      if k ∈ writes then some idx else writers.get? k := by
  induction writes generalizing writers with
  | nil => rfl
  | cons slot writes ih =>
    rw [List.foldl_cons, ih, Table.get?_insert]
    by_cases hk : slot = k
    · subst hk
      simp
    · have hk' : ¬ k = slot := fun h => hk h.symm
      simp only [if_neg hk, List.mem_cons, hk', false_or]

theorem writerOf?_mark (s : State) (idx : Int) (ins : Instruction) (exprs : List StateExpr)
    (k : Slot) :
    (s.mark idx ins exprs).writers.get? k =
      if k ∈ ins.writes then some idx else s.writerOf? k :=
  get?_foldl_insert_idx ins.writes s.writers idx k

theorem isSome_get?_mark {s : State} {idx : Int} {ins : Instruction} {exprs : List StateExpr}
    {k : Slot} (h : k ∈ ins.writes ∨ (s.values.get? k).isSome) :
    ((s.mark idx ins exprs).values.get? k).isSome := by
  rw [get?_mark]
  refine isSome_reportOver _ ?_
  unfold touch
  by_cases hw : k ∈ ins.writes
  · rw [if_pos hw]
    rfl
  · rw [if_neg hw]
    by_cases hr : k ∈ ins.reads
    · rw [if_pos hr]
      rfl
    · rw [if_neg hr, Option.isSome_map]
      exact h.resolve_left hw

end State
end VerifierTrace
