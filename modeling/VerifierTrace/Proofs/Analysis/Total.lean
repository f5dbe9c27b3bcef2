import VerifierTrace.Proofs.Analysis.Pass
import VerifierTrace.Proofs.Machine.Legible

/-!
# VerifierTrace.Proofs.Analysis.Total

Whatever a log holds, the pass over it comes to an end with a result, but for the bound on numerals.

* `Analysis.texts`: the texts that a pass is about, its lines and the two values that it is given.
* `yields_run`: if no more than `n` digits stand together in them, the pass goes through or fails
  within `n`.
* `NumeralFault.Founded`: there is a numeral beyond the bound behind the fault.
* `LookupsFound`: what is looked up without a default is there.
* `run_total`: without long numerals every pass goes through; a pass that fails does so for a
  numeral that it was given.

Numbers of frames are numerals too. They count open calls, so they are short in any log of up to
`10 ^ 4300` lines, which is more than can be written down.
-/

namespace VerifierTrace

open Decimal

/-! ## Notices -/

theorem Instruction.below_assuming {n : Nat} {ins : Instruction} (h : ins.action.Below n)
    (name? : Option String) : (ins.assuming name?).action.Below n := by
  unfold Instruction.assuming
  split
  · exact Action.below_of_operands_eq_nil rfl
  · exact h

namespace Notice

variable {n : Nat} {config : Config}

/-- Notices bring no numerals but those of the facts that they hold. -/
theorem brief_settled {lines : List LogLine} (h : ∀ l ∈ lines, l.content.Brief n) :
    ∀ l ∈ settled config lines, l.content.Brief n := by
  refine forall_settled config (F := StateExpr.Brief n) (fun h => h) ?_ h
  intro ins exprs more name? hline hmore
  refine ⟨Instruction.below_assuming hline.1 name?, ?_⟩
  intro e he
  rcases List.mem_append.mp he with he | he
  · exact hline.2 e he
  · exact hmore e he

end Notice

/-! ## Look-ups -/

namespace State

/-- Marks a slot as `markWritten` does, but fails if an update finds no value to replace. -/
def markWritten? (reads : List Slot) (values : Table Slot Cell) (slot : Slot) :
    Option (Table Slot Cell) :=
  if slot ∈ reads then
    (values.get? slot).map fun c => values.insert slot ⟨"", .update, known? c.value⟩
  else some (values.insert slot ⟨"", .write, none⟩)

theorem markWritten?_eq {reads : List Slot} {values : Table Slot Cell}
    (h : ∀ k ∈ reads, (values.get? k).isSome) (slot : Slot) :
    markWritten? reads values slot = some (markWritten reads values slot) := by
  unfold markWritten? markWritten
  split
  · next hslot =>
    obtain ⟨c, hc⟩ := Option.isSome_iff_exists.mp (h slot hslot)
    rw [hc]
    rfl
  · rfl

theorem isSome_markWritten {reads : List Slot} {values : Table Slot Cell} {k : Slot}
    (h : (values.get? k).isSome) (slot : Slot) :
    ((markWritten reads values slot).get? k).isSome := by
  have hinsert : ∀ c : Cell, ((values.insert slot c).get? k).isSome := by
    intro c
    rw [Table.get?_insert]
    split
    · rfl
    · exact h
  unfold markWritten
  split
  · exact hinsert _
  · exact hinsert _

theorem foldlM_markWritten? {reads : List Slot} {values : Table Slot Cell}
    (h : ∀ k ∈ reads, (values.get? k).isSome) (writes : List Slot) :
    writes.foldlM (markWritten? reads) values =
      some (writes.foldl (markWritten reads) values) := by
  induction writes generalizing values with
  | nil => rfl
  | cons slot writes ih =>
    rw [List.foldlM_cons, markWritten?_eq h]
    exact ih fun k hk => isSome_markWritten (h k hk) slot

/-- All slots that an instruction reads are known when it comes to what it writes. -/
theorem isSome_of_mem_reads (values : Table Slot Cell) {reads : List Slot} :
    ∀ k ∈ reads, ((reads.foldl markRead values).get? k).isSome := by
  intro k hk
  rw [get?_foldl_markRead, if_pos hk]
  rfl

end State

theorem Operand.eq_digitChar_of_isHexDigit {c : Char} (h : isHexDigit c = true) :
    ∃ i : Fin 16, c = Nat.digitChar i := by
  simp only [isHexDigit, Bool.or_eq_true, Bool.and_eq_true, decide_eq_true_eq] at h
  rcases h with hdigit | ⟨hlow, hhigh⟩
  · obtain ⟨i, rfl⟩ := eq_digitChar_of_isDigit hdigit
    exact ⟨⟨i, by omega⟩, rfl⟩
  · have hletters : ∀ i : Fin 6, (Nat.digitChar (10 + i)).toNat = 97 + i := by decide
    have hlow : 97 ≤ c.toNat := hlow
    have hhigh : c.toNat ≤ 102 := hhigh
    have hletter := hletters ⟨c.toNat - 97, by omega⟩
    refine ⟨⟨10 + (c.toNat - 97), by omega⟩, Char.toNat_inj.mp ?_⟩
    rw [hletter]
    simp only
    omega

theorem Opcode.isSome_ofHex? : ∀ i j : Fin 16,
    (Opcode.ofHex? [Nat.digitChar i, Nat.digitChar j]).isSome := by
  decide +kernel

/-- What is looked up without a default is there. -/
structure LookupsFound : Prop where
  /-- The low bits of an opcode are the number of a class. -/
  opClass : ∀ byte : Int, (Opcode.ofInt byte).opClass.number = (byte % 8).toNat
  /-- Two hexadecimal digits are an opcode. -/
  opcode : ∀ high low, Operand.isHexDigit high = true → Operand.isHexDigit low = true →
    (Opcode.ofHex? [high, low]).isSome
  /-- An update finds the value that it replaces. -/
  updated : ∀ (s : State) (ins : Instruction),
    let read := ins.reads.foldl State.markRead (settle s.values)
    ins.writes.foldlM (State.markWritten? ins.reads) read =
      some (ins.writes.foldl (State.markWritten ins.reads) read)

theorem lookupsFound : LookupsFound where
  opClass := by
    intro byte
    exact OpClass.number_ofNumber (by omega)
  opcode := by
    intro high low hhigh hlow
    obtain ⟨i, rfl⟩ := Operand.eq_digitChar_of_isHexDigit hhigh
    obtain ⟨j, rfl⟩ := Operand.eq_digitChar_of_isHexDigit hlow
    exact Opcode.isSome_ofHex? i j
  updated := by
    intro s ins
    exact State.foldlM_markWritten? (State.isSome_of_mem_reads _) ins.writes

/-! ## Passes -/

namespace Analysis

variable {n : Nat} {config : Config} {raws : List String}

/-- The texts that a pass is about. -/
def texts (config : Config) (raws : List String) : List (List Char) :=
  config.context.string.toList :: config.frameBase.string.toList :: raws.map String.toList

theorem yields_readFrom (h : ∀ raw ∈ raws, Brief n raw.toList) (start : Int) :
    Yields n (fun lines => ∀ l ∈ lines, l.content.Brief n) (readFrom start raws) := by
  induction raws generalizing start with
  | nil => simp [readFrom]
  | cons raw more ih =>
    have hline := LogLine.yields_read (h raw List.mem_cons_self) start
    have hmore := ih (fun raw' hraw => h raw' (List.mem_cons_of_mem _ hraw)) (start + 1)
    unfold readFrom
    cases hl : LogLine.read raw start with
    | error fault => exact hline.of_error hl
    | ok line =>
      cases hm : readFrom (start + 1) more with
      | error fault => exact hmore.of_error hm
      | ok lines =>
        intro l hl'
        rcases List.mem_cons.mp hl' with rfl | hl'
        · exact hline.of_ok hl
        · exact hmore.of_ok hm l hl'

theorem mem_texts (config : Config) {raw : String} (h : raw ∈ raws) :
    raw.toList ∈ texts config raws :=
  List.mem_cons_of_mem _ (List.mem_cons_of_mem _ (List.mem_map_of_mem h))

/-- A pass over texts in which no more than `n` digits stand together goes through, or fails
within `n`. -/
theorem yields_run (h : ∀ cs ∈ texts config raws, Brief n cs)
    (hcount : raws.length ≤ 10 ^ nameDigits n) : Yields n (fun _ => True) (run config raws) := by
  have hread := yields_readFrom (fun raw hraw => h _ (mem_texts config hraw)) 0
  unfold run readLines
  cases hr : readFrom 0 raws with
  | error fault => exact hread.of_error hr
  | ok read =>
    have hstart : (Machine.start config.setup).Brief n :=
      Machine.brief_start (h _ List.mem_cons_self)
        (h _ (List.mem_cons_of_mem _ List.mem_cons_self))
    have hlength : (Notice.settled config read).length ≤ 10 ^ nameDigits n := by
      rw [Notice.length_settled, length_readFrom hr]
      exact hcount
    have htrace := Machine.yields_trace hstart ⟨Machine.initial_tidy _ _ _, rfl, trivial⟩
      (by rw [Machine.start, List.length_nil, Nat.zero_add]; exact hlength)
      (Notice.brief_settled (hread.of_ok hr))
    simp only [ofLines, Notice.settleAll_eq]
    cases hm : Machine.run config.setup (Notice.settled config read) with
    | error fault => exact htrace.of_error hm
    | ok machines => trivial

/-- So many digits stand together in one of the texts. -/
def Holds (texts : List (List Char)) (digits : Nat) : Prop :=
  ∃ cs ∈ texts, ∃ ds, Occurs ds cs ∧ digits ≤ ds.length

theorem brief_of_not_holds {texts : List (List Char)} {digits : Nat} (h : ¬ Holds texts digits) :
    ∀ cs ∈ texts, Brief (digits - 1) cs := by
  intro cs hcs ds hds
  have hlt : ¬ digits ≤ ds.length := fun hle => h ⟨cs, hcs, ds, hds, hle⟩
  omega

theorem exists_brief (config : Config) (raws : List String) :
    ∃ n, (∀ cs ∈ texts config raws, Brief n cs) ∧ raws.length ≤ 10 ^ nameDigits n := by
  refine ⟨(texts config raws).flatten.length + raws.length, ?_, ?_⟩
  · intro cs hcs
    refine .of_length_le (Nat.le_trans ?_ (Nat.le_add_right _ _))
    exact (List.sublist_flatten_of_mem hcs).length_le
  · refine Nat.le_of_lt (lt_nameDigits ?_)
    exact Nat.lt_of_lt_of_le (Nat.lt_pow_self (by decide))
      (Nat.pow_le_pow_right (by decide) (Nat.le_add_left _ _))

end Analysis

/-- There is a numeral beyond the bound behind the fault: one of the texts has it, or it is the
number of a frame in a log of too many lines. -/
def NumeralFault.Founded (config : Config) (raws : List String) : NumeralFault → Prop
  | .unreadable digits => maxDigits < digits ∧
      (Analysis.Holds (Analysis.texts config raws) digits ∨ 10 ^ maxDigits < raws.length)
  | .unwritable =>
      Analysis.Holds (Analysis.texts config raws) maxDigits ∨ 10 ^ maxDigits < raws.length

namespace Analysis

variable {config : Config} {raws : List String}

theorem length_le_of_not_lt (n : Nat) (h : ¬ 10 ^ maxDigits < raws.length) :
    raws.length ≤ 10 ^ nameDigits n :=
  Nat.le_trans (Nat.not_lt.mp h) (Nat.pow_le_pow_right (by decide) (Nat.le_max_right n maxDigits))

theorem founded_of_run {fault : NumeralFault} (h : run config raws = .error fault) :
    fault.Founded config raws := by
  cases fault with
  | unreadable digits =>
    obtain ⟨n, hbrief, hcount⟩ := exists_brief config raws
    have hlong : maxDigits < digits := ((yields_run hbrief hcount).of_error h).1
    refine ⟨hlong, Classical.or_iff_not_imp_left.mpr ?_⟩
    intro hnot
    by_contra hlt
    obtain ⟨-, hle⟩ := (yields_run (brief_of_not_holds hnot) (length_le_of_not_lt _ hlt)).of_error h
    omega
  | unwritable =>
    refine Classical.or_iff_not_imp_left.mpr ?_
    intro hnot
    by_contra hlt
    have hle : maxDigits ≤ maxDigits - 1 :=
      (yields_run (brief_of_not_holds hnot) (length_le_of_not_lt _ hlt)).of_error h
    have hpos : 0 < maxDigits := by decide
    omega

/-- A pass over texts in which no more than 4299 digits stand together has a result. Any other pass
has one too, unless a numeral is beyond the bound. -/
theorem run_total (config : Config) (raws : List String) :
    ((∀ cs ∈ texts config raws, Brief 4299 cs) → raws.length ≤ 10 ^ maxDigits →
        ∃ a, run config raws = .ok a) ∧
      ((∃ a, run config raws = .ok a) ∨
        ∃ fault, run config raws = .error fault ∧ fault.Founded config raws) ∧
      LookupsFound := by
  refine ⟨?_, ?_, lookupsFound⟩
  · intro hbrief hcount
    have hrun := yields_run hbrief (length_le_of_not_lt 4299 (Nat.not_lt.mpr hcount))
    cases h : run config raws with
    | ok a => exact ⟨a, rfl⟩
    | error fault => exact absurd (hrun.of_error h) (fault.not_within (by decide))
  · cases h : run config raws with
    | ok a => exact .inl ⟨a, rfl⟩
    | error fault => exact .inr ⟨fault, rfl, founded_of_run h⟩

/-- A store through a pointer whose offset gains a digit, and two calls that read the name of that
slot back. -/
def growingLog : List String :=
  ["0: (bf) r6 = r10 ; R6_w=fp-99", "1: (7b) *(u64 *)(r6 -1) = r1", "2: (85) call pc+1",
    "3: (85) call pc+1", "4: (95) exit", "5: (95) exit", "6: (95) exit"]

theorem growingLog_total : ∃ a, run {} growingLog = .ok a ∧
    (a.stateAt 3).writerOf? "fp[0]-100" = some 1 := by
  have hbrief : ∀ cs ∈ texts {} growingLog, Brief 4299 cs := by
    have hshort : ∀ cs ∈ texts {} growingLog, cs.length ≤ 4299 := by decide +kernel
    intro cs hcs
    exact .of_length_le (hshort cs hcs)
  have hcount : growingLog.length ≤ 10 ^ maxDigits :=
    Nat.le_trans (by decide : growingLog.length ≤ 10 ^ 1)
      (Nat.pow_le_pow_right (by decide) (by decide))
  obtain ⟨a, ha⟩ := (run_total {} growingLog).1 hbrief hcount
  have hlog : run {} growingLog = .ok (ofLog {} growingLog) := run_ofLog (by decide +kernel)
  refine ⟨a, ha, ?_⟩
  rw [Except.ok.inj (ha.symm.trans hlog)]
  decide +kernel

end Analysis
end VerifierTrace
