import VerifierTrace.CommandLine.Run
import VerifierTrace.Proofs.Analysis.Pass
import VerifierTrace.Proofs.Instruction.Places
import VerifierTrace.Proofs.LogLine.Block
import VerifierTrace.Proofs.LogLine.Parts
import VerifierTrace.Proofs.Machine.Holding
import VerifierTrace.Proofs.Machine.Previous
import VerifierTrace.Proofs.Slot.Normal

/-!
# VerifierTrace.Proofs.Analysis.Normal

The names of slots in the states of a pass are in normal form.

* `Content.Normal`: what a line hands on to the machine is in normal form.
* `Content.normal_of_read`, `Notice.normal_settled`: so it is for lines of ASCII, and notices keep it.
* `Analysis.holding_of_run`: so all names and values in the states of a pass are.
* `Analysis.normal_of_run`: such a name is the slot that it stands for on the command line.
-/

namespace VerifierTrace

/-- The value is not the second spelling of the stack base. -/
def IsCanonical (value : String) : Prop := value ≠ "fp0"

theorem Slot.closed_proper : Closed Slot.Proper IsCanonical where
  register r := .inr (normal_register r)
  stack owner viewer offset := .inr (normal_ofFrame owner viewer offset)
  unknown := by unfold IsCanonical; decide

/-! ## Lines -/

/-- The instruction puts values into places, and what is reported is in normal form. -/
def Content.Normal : Content → Prop
  | .instruction ins exprs => ins.action.Placed ∧ ∀ e ∈ exprs, e.Has Slot.Proper IsCanonical
  | .notice (.stateBlock _ exprs) => ∀ e ∈ exprs, e.Has Slot.Proper IsCanonical
  | .notice (.globalFunction ..) | .source _ | .unrecognized _ => True

theorem StateExpr.normal_of_partOf {raw : List Char} (hraw : Text.Ascii raw) {e : StateExpr}
    (h : e.PartOf raw) : e.Has Slot.Proper IsCanonical := by
  obtain ⟨frame, key, value, rfl, hchars, hkey, -⟩ := h
  constructor
  · simp only [ofPair]
    refine .inr (Slot.normal_ofKey ?_ ?_)
    · rw [String.toList_ofList]
      exact hraw.of_infix hkey
    · rw [String.toList_ofList]
      exact hchars
  · exact Slot.canonical_ne_zero _

theorem Content.normal_of_read {line : LogLine} (hraw : Text.Ascii line.raw.toList)
    (h : Content.read line.raw.toList = .ok line.content) : line.content.Normal := by
  have hpart := Content.partOf_of_read h
  cases hcontent : line.content with
  | instruction ins exprs =>
    have hread : LogLine.read line.raw line.idx = .ok line := by rw [LogLine.read, h]
    have hins : line.instruction? = some ins := by rw [LogLine.instruction?, hcontent]
    obtain ⟨digits, body, rest, pc, -, haction, -⟩ := LogLine.read_instruction hread hins
    rw [hcontent] at hpart
    exact ⟨Action.placed_of_read haction, fun e he => StateExpr.normal_of_partOf hraw (hpart.2 e he)⟩
  | notice what =>
    rw [hcontent] at hpart
    cases what with
    | globalFunction id name => trivial
    | stateBlock pc exprs => exact fun e he => StateExpr.normal_of_partOf hraw (hpart.2 e he)
  | source note | unrecognized fault => trivial

theorem Instruction.placed_assuming {ins : Instruction} (h : ins.action.Placed)
    (name? : Option String) : (ins.assuming name?).action.Placed := by
  unfold Instruction.assuming
  split
  · trivial
  · exact h

theorem Notice.normal_settled {config : Config} {lines : List LogLine}
    (h : ∀ l ∈ lines, l.content.Normal) : ∀ l ∈ settled config lines, l.content.Normal := by
  refine forall_settled config (F := StateExpr.Has Slot.Proper IsCanonical) (fun hblock => hblock)
    ?_ h
  intro ins exprs more name? hline hmore
  exact ⟨Instruction.placed_assuming hline.1 name?, List.forall_mem_append.mpr ⟨hline.2, hmore⟩⟩

theorem Content.Normal.brings {content : Content} (h : content.Normal) :
    content.Brings Slot.Proper IsCanonical := by
  cases content with
  | instruction ins exprs =>
    refine ⟨List.forall_mem_append.mpr ⟨?_, ?_⟩, h.2⟩
    · intro slot hslot
      obtain ⟨f, hf, rfl⟩ := h.1.of_mem_reads hslot
      exact Slot.proper_of_form hf
    · intro slot hslot
      obtain ⟨f, hf, rfl⟩ := h.1.of_mem_writes hslot
      exact Slot.proper_of_form hf
  | source note | notice what | unrecognized fault => trivial

/-! ## The command line -/

/-- A user who names a proper slot, without the mark of a value just written, asks for that slot. -/
theorem CommandLine.slotOf_proper {slot : Slot} (h : Slot.Proper slot)
    (hwritten : ¬ ['_', 'w'] <:+ slot.toList) :
    slotOf (some slot) = if slot = "" then .error (.query .emptySlot) else .ok slot := by
  rcases h with rfl | h
  · rfl
  · have hmemory : slot ≠ Slot.memory := h.ne_of_isUpper (c := 'M') (by decide) (by decide)
    simp only [slotOf, h.trim_eq, String.ofList_toList, if_neg hmemory, h.ofKey_eq hwritten,
      String.isEmpty_iff]

namespace Analysis

variable {config : Config} {raws : List String} {a : Analysis}

/-- All names and values in the states of a pass over ASCII are in normal form, if the values that
it starts with are. -/
theorem holding_of_run (h : run config raws = .ok a) (hascii : ∀ raw ∈ raws, Text.Ascii raw.toList)
    (hcontext : config.setup.context ≠ "fp0") (hbase : config.setup.frameBase ≠ "fp0") :
    ∀ s ∈ a.states, Holding Slot.Proper IsCanonical s.values := by
  obtain ⟨read, hread, hlines, -⟩ := run_ok h
  obtain ⟨hraws, hcontents⟩ := read_of_readFrom hread
  refine Machine.holding_of_states Slot.closed_proper (states_of_run h) hcontext hbase ?_
  rw [hlines]
  intro line hline
  refine (Notice.normal_settled ?_ line hline).brings
  intro line hline
  refine Content.normal_of_read (hascii _ ?_) (hcontents line hline)
  rw [← hraws]
  exact List.mem_map_of_mem hline

theorem tidy_of_run (h : run config raws = .ok a) {s : State} (hs : s ∈ a.states) : s.Tidy := by
  obtain ⟨i, hi, rfl⟩ := List.mem_iff_getElem.mp hs
  exact (Machine.witnessed_of_states (numbered_of_run h) (states_of_run h)
    (List.getElem?_eq_getElem hi)).1

/-- In every state of a pass over ASCII with the default values, the names of slots that have a value
or a writer are in normal form, and so are the values. Such a name, unless it ends with the mark of a
value just written, stands for itself as a key, so it is the slot that a user asks for who names it;
nothing is asked for by the empty name. -/
theorem normal_of_run (h : run {} raws = .ok a) (hascii : ∀ raw ∈ raws, Text.Ascii raw.toList)
    {s : State} (hs : s ∈ a.states) :
    (∀ slot : Slot, (s.valueOf? slot).isSome ∨ (s.writerOf? slot).isSome →
      (slot = Slot.memory ∨ ∀ c ∈ slot.toList,
        c.toNat < 0x80 ∧ Text.isBlank c = false ∧ c ≠ '=' ∧ c.isUpper = false) ∧
      slot ≠ Slot.constant ∧ slot ≠ "fp0" ∧
      (¬ ['_', 'w'] <:+ slot.toList →
        (slot ≠ Slot.memory → Slot.ofKey (String.ofList (Text.trim slot.toList)) = slot) ∧
        CommandLine.slotOf (some slot) =
          if slot = "" then .error (.query .emptySlot) else .ok slot)) ∧
    ∀ (slot : Slot) (v : String), s.valueOf? slot = some v ∨ s.previousOf? slot = some v →
      v ≠ "fp0" := by
  have hholding := holding_of_run h hascii (by decide) (by decide) s hs
  refine ⟨?_, ?_⟩
  · intro slot hslot
    have hvalue : (s.values.get? slot).isSome := by
      rcases hslot with hslot | hslot
      · rwa [State.valueOf?, Option.isSome_map] at hslot
      · obtain ⟨w, hw⟩ := Option.isSome_iff_exists.mp hslot
        exact (tidy_of_run h hs).known slot w hw
    obtain ⟨c, hc⟩ := Option.isSome_iff_exists.mp hvalue
    have hproper := (hholding slot c hc).1
    refine ⟨?_, hproper.ne_constant, hproper.ne_zero, fun hwritten => ⟨?_, ?_⟩⟩
    · exact hproper.imp_right fun hnormal c hc => Slot.isNormalChar_iff.mp (hnormal.text c hc)
    · intro hmemory
      have hnormal := hproper.resolve_left hmemory
      rw [hnormal.trim_eq, String.ofList_toList, hnormal.ofKey_eq hwritten]
    · exact CommandLine.slotOf_proper hproper hwritten
  · intro slot v hv
    rw [State.valueOf?, State.previousOf?] at hv
    rcases hv with hv | hv
    · obtain ⟨c, hc, rfl⟩ := Option.map_eq_some_iff.mp hv
      exact (hholding slot c hc).2.value
    · obtain ⟨c, hc, hprevious⟩ := Option.bind_eq_some_iff.mp hv
      exact (hholding slot c hc).2.previous v hprevious

/-- A log that reports the stack base in its second spelling and a key that is but a mark, and stores
through a pointer to a slot that a called frame renames. -/
def namingLog : List String :=
  ["0: (bf) r2 = r10 ; R2_w=fp0 _w=5", "1: (07) r2 += -16 ; R2_w=fp-16",
    "2: (7b) *(u64 *)(r2 +0) = r1", "3: (85) call pc+1"]

theorem namingLog_normal : ∃ (a : Analysis) (s t : State),
    run {} namingLog = .ok a ∧ (∀ raw ∈ namingLog, Text.Ascii raw.toList) ∧
      s ∈ a.states ∧ t ∈ a.states ∧
      s.previousOf? "r2" = some "fp-0" ∧ "fp-0" ≠ "fp0" ∧
      CommandLine.slotOf (some "") = .error (.query .emptySlot) ∧
      t.writerOf? "fp[0]-16" = some 2 ∧
      CommandLine.slotOf (some "fp[0]-16") = .ok "fp[0]-16" := by
  have hrun : run {} namingLog = .ok (ofLog {} namingLog) := run_ofLog (by decide +kernel)
  have hascii : ∀ raw ∈ namingLog, Text.Ascii raw.toList := by decide +kernel
  obtain ⟨s, hs, hprevious, hempty⟩ : ∃ s, (ofLog {} namingLog).states[1]? = some s ∧
      s.previousOf? "r2" = some "fp-0" ∧ (s.valueOf? "").isSome := by
    simpa using (Option.any_eq_true (p := fun s : State => decide
      (s.previousOf? "r2" = some "fp-0" ∧ (s.valueOf? "").isSome)) _).mp (by decide +kernel)
  obtain ⟨t, ht, hwriter⟩ : ∃ t, (ofLog {} namingLog).states[3]? = some t ∧
      t.writerOf? "fp[0]-16" = some 2 := by
    simpa using (Option.any_eq_true (p := fun t : State => decide
      (t.writerOf? "fp[0]-16" = some 2)) _).mp (by decide +kernel)
  have hs := List.mem_of_getElem? hs
  have ht := List.mem_of_getElem? ht
  obtain ⟨hslots, hvalues⟩ := normal_of_run hrun hascii hs
  obtain ⟨htslots, -⟩ := normal_of_run hrun hascii ht
  refine ⟨ofLog {} namingLog, s, t, hrun, hascii, hs, ht, hprevious,
    hvalues "r2" "fp-0" (.inr hprevious), ?_, hwriter, ?_⟩
  · exact ((hslots "" (.inl hempty)).2.2.2 (by decide)).2
  · exact ((htslots "fp[0]-16" (.inr (by rw [hwriter]; rfl))).2.2.2 (by decide)).2

end Analysis
end VerifierTrace
