import VerifierTrace.Config.Reader
import VerifierTrace.Proofs.Table
import VerifierTrace.Record

/-!
# VerifierTrace.Proofs.Config.Members

A configuration is what the members of an object say.

A member fits if its key names a field and its value is of the type of that field. Setting a field
that fits changes this field and no other (`set_fits`), and a member that does not fit is refused
whatever was set before it (`set_offends`). So the members that fit add up in any order, and the first
one that does not is the fault.

* `Field`: the fields, with their keys, types and defaults.
* `Fits`, `Offends`: a member that can be set, and one that cannot, with its fault.
* `ofMembers_specified`: what is read from the members of an object.
-/

namespace VerifierTrace
namespace Config

/-! ## Fields -/

inductive Field where
  | foldCalls
  | mergeBlocks
  | context
  | frameBase
  deriving DecidableEq, Repr

namespace Field

def name : Field → String
  | .foldCalls => "fold_global_func_calls"
  | .mergeBlocks => "merge_bare_state_exprs"
  | .context => "initial_context_value"
  | .frameBase => "frame_base_value"

def key (f : Field) : WideText := .plain f.name

/-- Whether the field is a switch; the others are texts. -/
def isSwitch : Field → Bool
  | .foldCalls | .mergeBlocks => true
  | .context | .frameBase => false

def typeName (f : Field) : String := if f.isSwitch then "bool" else "str"

/-- The value is of the type of the field. -/
def Takes (f : Field) (value : Json) : Prop :=
  if f.isSwitch then ∃ b, value = .bool b else ∃ s, value = .text s

def get (c : Config) : Field → Json
  | .foldCalls => .bool c.foldCalls
  | .mergeBlocks => .bool c.mergeBlocks
  | .context => .text c.context
  | .frameBase => .text c.frameBase

/-- The value of the field if nothing is said of it. -/
def default : Field → Json
  | .foldCalls | .mergeBlocks => .bool true
  | .context => .text (.plain "ctx()")
  | .frameBase => .text (.plain "fp-0")

theorem get_default (f : Field) : f.get {} = f.default := by
  cases f <;> rfl

theorem key_injective : Function.Injective key := by
  intro f g h
  cases f <;> cases g <;> simp [key, name] at h ⊢

end Field

theorem eq_of_get {c d : Config} (h : ∀ f : Field, f.get c = f.get d) : c = d := by
  have hfold := h .foldCalls
  have hmerge := h .mergeBlocks
  have hcontext := h .context
  have hbase := h .frameBase
  simp only [Field.get, Json.bool.injEq, Json.text.injEq] at hfold hmerge hcontext hbase
  cases c
  cases d
  simp_all

/-! ## Members -/

/-- The key of the member names a field, and its value is of the type of the field. -/
def Fits (m : WideText × Json) : Prop := ∃ f : Field, m.1 = f.key ∧ f.Takes m.2

/-- The member cannot be set, with the fault that it is. -/
inductive Offends : WideText × Json → ConfigFault → Prop where
  | unknown {key : WideText} {value : Json} : (∀ f : Field, key ≠ f.key) →
      Offends (key, value) (.unknownKey key)
  | wrongType {f : Field} {value : Json} : ¬ f.Takes value →
      Offends (f.key, value) (.wrongType f.name f.typeName (typeName value))

theorem fits_or_offends (m : WideText × Json) : Fits m ∨ ∃ e, Offends m e := by
  obtain ⟨key, value⟩ := m
  by_cases hkey : ∃ f : Field, key = f.key
  · obtain ⟨f, rfl⟩ := hkey
    by_cases hvalue : f.Takes value
    · exact .inl ⟨f, rfl, hvalue⟩
    · exact .inr ⟨_, .wrongType hvalue⟩
  · exact .inr ⟨_, .unknown fun f hf => hkey ⟨f, hf⟩⟩

theorem Offends.not_fits {m : WideText × Json} {e : ConfigFault} (h : Offends m e) : ¬ Fits m := by
  rintro ⟨f, hkey, hvalue⟩
  cases h with
  | unknown hunknown => exact hunknown f hkey
  | wrongType hwrong =>
    cases Field.key_injective hkey
    exact hwrong hvalue

theorem Offends.code {m : WideText × Json} {e : ConfigFault} (h : Offends m e) :
    (e.toFault.code.text = "VLOG-4000" ∧ ∀ f : Field, m.1 ≠ f.key) ∨
      (e.toFault.code.text = "VLOG-4001" ∧ ∃ f : Field, m.1 = f.key ∧ ¬ f.Takes m.2) := by
  have hunknownCode : Code.unknownConfigKey.text = "VLOG-4000" := by decide
  have hinvalidCode : Code.invalidConfigValue.text = "VLOG-4001" := by decide
  cases h with
  | unknown hunknown => exact .inl ⟨hunknownCode, hunknown⟩
  | @wrongType f value hwrong => exact .inr ⟨hinvalidCode, f, rfl, hwrong⟩

/-! ## One member -/

variable (c : Config)

theorem set_takes {f : Field} {value : Json} (h : f.Takes value) :
    ∃ d, c.set f.key value = .ok d ∧ ∀ g, g.get d = if g = f then value else g.get c := by
  cases f with
  | foldCalls =>
    obtain ⟨b, rfl⟩ := h
    refine ⟨{ c with foldCalls := b }, rfl, fun g => ?_⟩
    cases g <;> rfl
  | mergeBlocks =>
    obtain ⟨b, rfl⟩ := h
    refine ⟨{ c with mergeBlocks := b }, rfl, fun g => ?_⟩
    cases g <;> rfl
  | context =>
    obtain ⟨s, rfl⟩ := h
    refine ⟨{ c with context := s }, rfl, fun g => ?_⟩
    cases g <;> rfl
  | frameBase =>
    obtain ⟨s, rfl⟩ := h
    refine ⟨{ c with frameBase := s }, rfl, fun g => ?_⟩
    cases g <;> rfl

theorem asBool_of_ne {j : Json} (h : ¬ ∃ b, j = .bool b) (key : String) :
    asBool key j = .error (.wrongType key "bool" (typeName j)) := by
  unfold asBool
  split
  · next b => exact absurd ⟨b, rfl⟩ h
  · rfl

theorem asText_of_ne {j : Json} (h : ¬ ∃ s, j = .text s) (key : String) :
    asText key j = .error (.wrongType key "str" (typeName j)) := by
  unfold asText
  split
  · next s => exact absurd ⟨s, rfl⟩ h
  · rfl

theorem set_offends {m : WideText × Json} {e : ConfigFault} (h : Offends m e) :
    c.set m.1 m.2 = .error e := by
  cases h with
  | unknown hunknown =>
    unfold set
    split
    · next hkey => exact absurd hkey (hunknown .foldCalls)
    · next hkey => exact absurd hkey (hunknown .mergeBlocks)
    · next hkey => exact absurd hkey (hunknown .context)
    · next hkey => exact absurd hkey (hunknown .frameBase)
    · rfl
  | @wrongType f value hwrong =>
    cases f with
    | foldCalls | mergeBlocks => simp only [Field.key, Field.name, set, asBool_of_ne hwrong]; rfl
    | context | frameBase => simp only [Field.key, Field.name, set, asText_of_ne hwrong]; rfl

/-! ## All members -/

variable {members : List (WideText × Json)}

theorem setAll_fits (h : ∀ m ∈ members, Fits m) (hdistinct : (members.map Prod.fst).Nodup) :
    ∃ d, setAll c members = .ok d ∧
      ∀ f : Field, f.get d = (Table.find f.key members).getD (f.get c) := by
  induction members generalizing c with
  | nil => exact ⟨c, rfl, fun f => rfl⟩
  | cons m more ih =>
    obtain ⟨⟨f, hkey, hvalue⟩, hmore⟩ := List.forall_mem_cons.mp h
    obtain ⟨hnew, hdistinct⟩ := List.nodup_cons.mp hdistinct
    obtain ⟨d, hset, hd⟩ := set_takes c hvalue
    obtain ⟨e, hall, he⟩ := ih d hmore hdistinct
    refine ⟨e, ?_, fun g => ?_⟩
    · rw [setAll, hkey, hset]
      exact hall
    · rw [he, hd, Table.find, hkey]
      by_cases hg : g = f
      · -- no later member sets the field again
        subst hg
        have hnone : Table.find g.key more = none := by
          rw [hkey, ← Table.find_isSome_iff, Option.not_isSome_iff_eq_none] at hnew
          exact hnew
        simp [hnone]
      · have hne : f.key ≠ g.key := fun heq => hg (Field.key_injective heq).symm
        simp [hg, hne]

theorem setAll_offends {before after : List (WideText × Json)} {m : WideText × Json}
    {e : ConfigFault} (hbefore : ∀ x ∈ before, Fits x) (hm : Offends m e) :
    setAll c (before ++ m :: after) = .error e := by
  induction before generalizing c with
  | nil => rw [List.nil_append, setAll, set_offends c hm]
  | cons x before ih =>
    obtain ⟨⟨f, hkey, hvalue⟩, hbefore⟩ := List.forall_mem_cons.mp hbefore
    obtain ⟨d, hset, -⟩ := set_takes c hvalue
    rw [List.cons_append, setAll, hkey, hset]
    exact ih d hbefore

theorem all_fit_or_offends (members : List (WideText × Json)) :
    (∀ m ∈ members, Fits m) ∨ ∃ before m after e,
      members = before ++ m :: after ∧ (∀ x ∈ before, Fits x) ∧ Offends m e := by
  induction members with
  | nil => exact .inl (by simp)
  | cons m more ih =>
    rcases fits_or_offends m with hm | ⟨e, he⟩
    · rcases ih with hmore | ⟨before, x, after, e, rfl, hbefore, hx⟩
      · exact .inl (List.forall_mem_cons.mpr ⟨hm, hmore⟩)
      · exact .inr ⟨m :: before, x, after, e, rfl, List.forall_mem_cons.mpr ⟨hm, hbefore⟩, hx⟩
    · exact .inr ⟨[], m, more, e, rfl, by simp, he⟩

/-! ## Objects -/

/-- What is read from the members of an object. -/
structure Specified (t : Table WideText Json) (result : Except ConfigFault Config) : Prop where
  /-- Some member does not fit, or there is a configuration. -/
  refused : (∃ e, result = .error e) ↔ ∃ m ∈ t.entries, ¬ Fits m
  /-- The fault is that of the first member that does not fit. -/
  first : ∀ e, result = .error e ↔ ∃ before m after,
    t.entries = before ++ m :: after ∧ (∀ x ∈ before, Fits x) ∧ Offends m e
  /-- The fields have the values that the members give them, and all others their defaults. -/
  values : ∀ c, result = .ok c → ∀ f : Field, f.get c = (t.get? f.key).getD f.default

theorem specified_ofMembers (t : Table WideText Json) : Specified t (ofMembers t.entries) := by
  have hfirst : ∀ before m after e, t.entries = before ++ m :: after → (∀ x ∈ before, Fits x) →
      Offends m e → ofMembers t.entries = .error e := by
    intro before m after e hsplit hbefore hm
    rw [hsplit]
    exact setAll_offends {} hbefore hm
  rcases all_fit_or_offends t.entries with hfit | ⟨before, m, after, e, hsplit, hbefore, hm⟩
  · obtain ⟨d, hd, hvalues⟩ := setAll_fits {} hfit t.distinct
    have hok : ofMembers t.entries = .ok d := hd
    rw [hok]
    refine ⟨⟨?_, ?_⟩, fun e => ⟨?_, ?_⟩, ?_⟩
    · rintro ⟨e, he⟩
      cases he
    · rintro ⟨m, hm, hnot⟩
      exact absurd (hfit m hm) hnot
    · intro he
      cases he
    · rintro ⟨before, m, after, hsplit, hbefore, hm⟩
      rw [← hok]
      exact hfirst before m after e hsplit hbefore hm
    · rintro c ⟨⟩ f
      rw [hvalues f, Field.get_default]
      rfl
  · have herror := hfirst before m after e hsplit hbefore hm
    rw [herror]
    refine ⟨⟨fun _ => ?_, fun _ => ⟨e, rfl⟩⟩, fun e' => ⟨?_, ?_⟩, ?_⟩
    · exact ⟨m, by rw [hsplit]; simp, hm.not_fits⟩
    · rintro ⟨⟩
      exact ⟨before, m, after, hsplit, hbefore, hm⟩
    · rintro ⟨before', m', after', hsplit', hbefore', hm'⟩
      rw [← herror]
      exact hfirst before' m' after' e' hsplit' hbefore' hm'
    · rintro c ⟨⟩

/-- The members of an object give a configuration exactly if all of them fit, whatever their order,
and the first one that does not is told, by a code for its key or for its value. The record of a
configuration is an object that gives it back. -/
theorem ofMembers_specified (t : Table WideText Json) :
    Specified t (ofMembers t.entries) ∧
      (∀ m e, Offends m e →
        (e.toFault.code.text = "VLOG-4000" ∧ ∀ f : Field, m.1 ≠ f.key) ∨
          (e.toFault.code.text = "VLOG-4001" ∧ ∃ f : Field, m.1 = f.key ∧ ¬ f.Takes m.2)) ∧
      (∀ u : Table WideText Json, u.entries.Perm t.entries → ∀ c,
        ofMembers t.entries = .ok c → ofMembers u.entries = .ok c) ∧
      ∀ c : Config, ∃ members, c.record = .mapping members ∧ ofMembers members = .ok c := by
  refine ⟨specified_ofMembers t, fun m e h => h.code, ?_, fun c => ⟨_, rfl, rfl⟩⟩
  intro u hperm c hc
  have ht := specified_ofMembers t
  have hu := specified_ofMembers u
  have hlookup : ∀ k, u.get? k = t.get? k := by
    intro k
    refine Option.ext fun v => ?_
    rw [← Table.mem_entries_iff, ← Table.mem_entries_iff, hperm.mem_iff]
  cases hresult : ofMembers u.entries with
  | error e =>
    obtain ⟨m, hm, hnot⟩ := hu.refused.mp ⟨e, hresult⟩
    obtain ⟨e', he'⟩ := ht.refused.mpr ⟨m, hperm.mem_iff.mp hm, hnot⟩
    rw [hc] at he'
    cases he'
  | ok d =>
    rw [eq_of_get fun f => (hu.values d hresult f).trans
      ((congrArg (fun v => v.getD f.default) (hlookup f.key)).trans (ht.values c hc f).symm)]

end Config
end VerifierTrace
