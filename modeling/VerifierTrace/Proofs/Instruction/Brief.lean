import VerifierTrace.Proofs.Instruction.Slots
import VerifierTrace.Proofs.Instruction.Spelled
import VerifierTrace.Proofs.Instruction.Trailing
import VerifierTrace.Proofs.Slot.Brief

/-!
# VerifierTrace.Proofs.Instruction.Brief

Bodies of instructions in texts without long numerals.

Every reader leaves a later part of its text, and what it makes of a numeral is no longer than the
text lets it be. A body that does not fit is no fault here (`Accepts`), so over brief texts
`Action.read` fails in no other way.

* `Action.Below n`: the offsets of the operands have at most `n` digits.
* `Action.accepts_read`: over a text with at most `n` digits together, the action is `Below n`.
-/

namespace VerifierTrace

open Decimal

/-- The offset of an operand in memory has at most `n` digits. -/
def Operand.Form.Below (n : Nat) (f : Operand.Form) : Prop :=
  ∀ p ∈ f.address?, p.2.natAbs < 10 ^ n

namespace Action

/-- The offsets of all operands have at most `n` digits. -/
def Below (n : Nat) (a : Action) : Prop := ∀ o ∈ a.operands, o.form.Below n

theorem below_of_operands_eq_nil {n : Nat} {a : Action} (h : a.operands = []) : a.Below n := by
  intro o ho
  rw [h] at ho
  cases ho

theorem below_of_operands_eq_pair {n : Nat} {a : Action} {left right : Operand}
    (h : a.operands = [left, right]) (hleft : left.form.Below n) (hright : right.form.Below n) :
    a.Below n := by
  intro o ho
  rw [h] at ho
  rcases List.mem_pair.mp ho with rfl | rfl
  · exact hleft
  · exact hright

end Action

/-- A result with a property, a body that does not fit, or a fault within `n`. -/
def Accepts {α : Type} (n : Nat) (P : α → Prop) : Except Refusal α → Prop
  | .ok a => P a
  | .error (.body _) => True
  | .error (.numeral fault) => fault.Within n

namespace Accepts

variable {α β : Type} {n : Nat} {P : α → Prop} {Q : β → Prop} {x : Except Refusal α}

@[simp] theorem ok_iff {a : α} : Accepts n P (.ok a) ↔ P a := Iff.rfl

@[simp] theorem body {fault : BodyFault} : Accepts n P (.error (.body fault)) := trivial

theorem bind (h : Accepts n P x) {f : α → Except Refusal β} (hf : ∀ a, P a → Accepts n Q (f a)) :
    Accepts n Q (x >>= f) := by
  match x with
  | .ok a => exact hf a h
  | .error (.body fault) => exact trivial
  | .error (.numeral fault) => exact h

end Accepts

theorem suffix_of_isPrefixOf? {p cs more : List Char} (h : p.isPrefixOf? cs = some more) :
    more <:+ cs := ⟨p, List.isPrefixOf?_eq_some_iff_append_eq.mp h⟩

theorem suffix_of_run? {ds cs more : List Char} (h : run? cs = some (ds, more)) : more <:+ cs :=
  ⟨ds, append_of_run? h⟩

theorem suffix_of_readSymbol? {α : Type} {symbol : α → String} {all : List α} {a : α}
    {cs more : List Char} (h : readSymbol? symbol all cs = some (a, more)) : more <:+ cs :=
  ⟨_, append_of_readSymbol? h⟩

theorem suffix_of_register? {r : Register} {cs more : List Char}
    (h : Register.read? cs = some (r, more)) : more <:+ cs := ⟨_, Operand.append_of_register? h⟩

theorem suffix_of_width? {w : Width} {cs more : List Char} (h : Width.read? cs = some (w, more)) :
    more <:+ cs := ⟨_, Operand.append_of_width? h⟩

namespace Operand

theorem suffix_of_sign? {negative : Bool} {cs more : List Char}
    (h : sign? cs = some (negative, more)) : more <:+ cs :=
  ⟨[Decimal.signChar negative], cons_of_sign? h⟩

theorem Form.register?_eq_some {f : Form} {cs more : List Char}
    (h : Form.register? cs = some (f, more)) : f.address? = none ∧ more <:+ cs := by
  unfold Form.register? at h
  split at h
  · next d rest =>
    split at h
    · cases h
      exact ⟨rfl, List.suffix_append ['w', d] more⟩
    · cases h
  · obtain ⟨⟨r, tail⟩, hr, heq⟩ := Option.map_eq_some_iff.mp h
    cases heq
    exact ⟨rfl, suffix_of_register? hr⟩

theorem memory?_eq_some {m : MemorySpelling} {cs more : List Char}
    (h : memory? cs = some (m, more)) : Occurs m.digits cs ∧ more <:+ cs := by
  unfold memory? at h
  simp only [Option.bind_eq_bind, Option.bind_eq_some_iff] at h
  obtain ⟨c₁, hopen, ⟨width, c₂⟩, hwidth, c₃, hmiddle, ⟨base, c₄⟩, hbase, c₅, hspace,
    ⟨negative, c₆⟩, hsign, ⟨digits, c₇⟩, hdigits, c₈, hclose, heq⟩ := h
  cases heq
  have hbefore : c₆ <:+ cs :=
    (suffix_of_sign? hsign).trans <| (suffix_of_isPrefixOf? hspace).trans <|
      (suffix_of_register? hbase).trans <| (suffix_of_isPrefixOf? hmiddle).trans <|
        (suffix_of_width? hwidth).trans (suffix_of_isPrefixOf? hopen)
  refine ⟨(occurs_of_run? hdigits).of_part hbefore.isInfix, ?_⟩
  exact (suffix_of_isPrefixOf? hclose).trans ((suffix_of_run? hdigits).trans hbefore)

theorem suffix_of_constant? {cs more : List Char} (h : constant? cs = some more) : more <:+ cs := by
  obtain ⟨o, htext, -⟩ := printed_of_constant? h
  exact ⟨o.text, htext⟩

variable {n : Nat} {cs : List Char}

theorem Form.yields_read (choice : Choice) (hcs : Brief n cs) :
    Yields n (fun found => ∀ p ∈ found, p.1.Below n ∧ Brief n p.2) (Form.read choice cs) := by
  have hnone : ∀ {f : Form}, f.address? = none → f.Below n := by
    intro f hf p hp
    rw [hf] at hp
    cases hp
  unfold Form.read
  split
  · next found hregister =>
    rintro ⟨f, more⟩ ⟨⟩
    obtain ⟨hf, hmore⟩ := Form.register?_eq_some hregister
    exact ⟨hnone hf, hcs.of_part hmore.isInfix⟩
  · split
    · next m rest hmemory =>
      have hm : memory? cs = some (m, rest) := by
        split at hmemory
        · exact hmemory
        · cases hmemory
      obtain ⟨hdigits, hrest⟩ := memory?_eq_some hm
      have hoffset := yields_readSigned m.negative hdigits hcs (Nat.le_max_left n maxDigits)
      cases hz : readSigned m.negative m.digits with
      | error fault => exact hoffset.of_error hz
      | ok z =>
        rintro ⟨f, more⟩ ⟨⟩
        refine ⟨?_, hcs.of_part hrest.isInfix⟩
        rintro p ⟨⟩
        exact hoffset.of_ok hz
    · split
      · rintro ⟨f, more⟩ hp
        obtain ⟨tail, htail, heq⟩ := Option.map_eq_some_iff.mp hp
        cases heq
        exact ⟨hnone rfl, hcs.of_part (suffix_of_constant? htail).isInfix⟩
      · rintro p ⟨⟩

theorem accepts_read (choice : Choice) (hcs : Brief n cs) :
    Accepts n (fun p => p.1.form.Below n ∧ Brief n p.2) (read choice cs) := by
  have hform := Form.yields_read choice hcs
  unfold read
  cases hread : Form.read choice cs with
  | error fault => exact hform.of_error hread
  | ok found =>
    cases found with
    | none => exact Accepts.body
    | some p => exact hform.of_ok hread p rfl

end Operand

theorem accepts_readOperator {α : Type} {n : Nat} {cs : List Char} (symbol : α → String)
    (all : List α) (hcs : Brief n cs) :
    Accepts n (fun p => Brief n p.2) (readOperator symbol all cs) := by
  unfold readOperator
  split
  · next a rest hsymbol =>
    exact hcs.of_part ((Text.skipBlanks_suffix rest).trans (suffix_of_readSymbol? hsymbol)).isInfix
  · exact Accepts.body

theorem brief_skipBlanks {n : Nat} {cs : List Char} (h : Brief n cs) :
    Brief n (Text.skipBlanks cs) := h.of_part (Text.skipBlanks_suffix cs).isInfix

namespace Action

variable {n : Nat} {cs : List Char}

theorem suffix_of_position? {target more : List Char} (h : position? cs = some (target, more)) :
    more <:+ cs := ⟨target, append_of_position? h⟩

theorem suffix_of_cast? {rest : List Char} {action : Action}
    (h : cast? cs = some (action, rest)) : rest <:+ cs := by
  obtain ⟨dst, c₁, c₂, src, c₃, c₄, toSpace, c₅, c₆, fromSpace, c₇, hdst, hassign, hsrc, hcomma,
    hto, hcomma', hfrom, hclose, -⟩ := cast?_eq_some h
  exact (suffix_of_isPrefixOf? hclose).trans <| (suffix_of_run? hfrom).trans <|
    (suffix_of_isPrefixOf? hcomma').trans <| (suffix_of_run? hto).trans <|
      (suffix_of_isPrefixOf? hcomma).trans <| (suffix_of_register? hsrc).trans <|
        (suffix_of_isPrefixOf? hassign).trans (suffix_of_register? hdst)

theorem suffix_of_goto? {target rest : List Char} {word : GotoWord}
    (h : goto? cs = some (word, target, rest)) : rest <:+ cs := ⟨_, append_of_goto? h⟩

theorem suffix_of_target? {target rest : List Char} (h : target? cs = some (target, rest)) :
    rest <:+ cs := by
  unfold target? at h
  obtain ⟨more, hgoto, hposition⟩ := Option.bind_eq_some_iff.mp h
  exact (suffix_of_position? hposition).trans (suffix_of_isPrefixOf? hgoto)

theorem accepts_readCompute (hcs : Brief n cs) :
    Accepts n (fun p => p.1.Below n ∧ Brief n p.2) (readCompute cs) := by
  refine (Operand.accepts_read .place hcs).bind ?_
  rintro ⟨dst, c₁⟩ ⟨hdst, hc₁⟩
  refine (accepts_readOperator _ _ (brief_skipBlanks hc₁)).bind ?_
  rintro ⟨op, c₂⟩ hc₂
  refine (Operand.accepts_read .source hc₂).bind ?_
  rintro ⟨src, c₃⟩ ⟨hsrc, hc₃⟩
  exact ⟨below_of_operands_eq_pair rfl hdst hsrc, brief_skipBlanks hc₃⟩

theorem cast?_below {action : Action} {more : List Char} (h : cast? cs = some (action, more))
    (hcs : Brief n cs) : action.Below n ∧ Brief n more := by
  refine ⟨?_, hcs.of_part (suffix_of_cast? h).isInfix⟩
  obtain ⟨dst, -, -, src, -, -, -, -, -, -, -, -, -, -, -, -, -, -, -, rfl⟩ := cast?_eq_some h
  have hregister : ∀ r : Register, (Operand.Form.register r).Below n := by
    rintro r p ⟨⟩
  exact below_of_operands_eq_pair rfl (hregister dst) (hregister src)

theorem accepts_readAlu (opcode : Opcode) (hcs : Brief n cs) :
    Accepts n (fun p => p.1.Below n ∧ Brief n p.2) (readAlu opcode cs) := by
  unfold readAlu
  split
  · next found hfound =>
    split at hfound
    · exact cast?_below hfound hcs
    · cases hfound
  · exact accepts_readCompute hcs

theorem accepts_readGoto (allowed : GotoWord → Bool) (hcs : Brief n cs) :
    Accepts n (fun p => p.1.Below n ∧ Brief n p.2) (readGoto allowed cs) := by
  unfold readGoto
  split
  · next word target rest hgoto =>
    split
    · have hrest := (suffix_of_goto? hgoto).isInfix
      exact ⟨below_of_operands_eq_nil rfl, brief_skipBlanks (hcs.of_part hrest)⟩
    · exact Accepts.body
  · exact Accepts.body

theorem accepts_readBranch (hcs : Brief n cs) :
    Accepts n (fun p => p.1.Below n ∧ Brief n p.2) (readBranch cs) := by
  unfold readBranch
  split
  · exact Accepts.body
  · next c₀ hif =>
    refine (Operand.accepts_read .compared
      (hcs.of_part (suffix_of_isPrefixOf? hif).isInfix)).bind ?_
    rintro ⟨left, c₁⟩ ⟨hleft, hc₁⟩
    refine (accepts_readOperator _ _ (brief_skipBlanks hc₁)).bind ?_
    rintro ⟨op, c₂⟩ hc₂
    refine (Operand.accepts_read .compared hc₂).bind ?_
    rintro ⟨right, c₃⟩ ⟨hright, hc₃⟩
    simp only
    split
    · exact Accepts.body
    · next target c₄ htarget =>
      have hc₄ := (suffix_of_target? htarget).isInfix
      refine ⟨below_of_operands_eq_pair rfl hleft hright, ?_⟩
      exact brief_skipBlanks ((brief_skipBlanks hc₃).of_part hc₄)

theorem accepts_readCall (hcs : Brief n cs) :
    Accepts n (fun p => p.1.Below n ∧ Brief n p.2) (readCall cs) := by
  unfold readCall
  split
  · exact Accepts.body
  · next rest hcall =>
    have hafter : rest.dropWhile isNameChar <:+ cs :=
      (List.dropWhile_suffix _).trans (suffix_of_isPrefixOf? hcall)
    simp only
    split
    · exact Accepts.body
    · refine ⟨?_, brief_skipBlanks (hcs.of_part hafter.isInfix)⟩
      split
      · exact below_of_operands_eq_nil rfl
      · exact below_of_operands_eq_nil rfl

theorem accepts_readExit (hcs : Brief n cs) :
    Accepts n (fun p => p.1.Below n ∧ Brief n p.2) (readExit cs) := by
  unfold readExit
  split
  · exact Accepts.body
  · next rest hexit =>
    exact ⟨below_of_operands_eq_nil rfl,
      brief_skipBlanks (hcs.of_part (suffix_of_isPrefixOf? hexit).isInfix)⟩

/-- A body over a brief text is read, does not fit, or holds a numeral beyond the bound. -/
theorem accepts_read (opcode : Opcode) (hcs : Brief n cs) :
    Accepts n (fun p => p.1.Below n ∧ Brief n p.2) (Action.read opcode cs) := by
  unfold Action.read
  split
  · unfold readJump
    split
    · exact accepts_readGoto _ hcs
    · exact accepts_readCall hcs
    · exact accepts_readExit hcs
    · exact accepts_readBranch hcs
    · exact Accepts.body
  · exact accepts_readAlu opcode hcs

end Action
end VerifierTrace
