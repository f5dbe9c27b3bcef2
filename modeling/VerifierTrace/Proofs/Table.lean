import Mathlib.Data.List.Nodup
import VerifierTrace.Table

/-!
# VerifierTrace.Proofs.Table

Tables as sets of entries, and many insertions one after another.

`mem_entries_iff` says that the entries are what look-ups find. `insertAll` puts entries in one by
one: a look-up finds the last of them that has the key, else what was there before. Setting and
removing entries commute with a map of all values (`mapValues_insert`, `mapValues_erase`). What holds
of all entries (`All`) goes on to hold when entries of which it holds are put in.
-/

namespace VerifierTrace
namespace Table

variable {κ α : Type} [DecidableEq κ]

theorem mem_of_find {k : κ} {v : α} {es : List (κ × α)} (h : find k es = some v) : (k, v) ∈ es := by
  induction es with
  | nil => cases h
  | cons e rest ih =>
    obtain ⟨k', v'⟩ := e
    by_cases hk : k' = k
    · subst hk
      rw [find, if_pos rfl] at h
      cases h
      exact List.mem_cons_self
    · rw [find, if_neg hk] at h
      exact List.mem_cons_of_mem _ (ih h)

theorem find_of_mem {k : κ} {v : α} {es : List (κ × α)} (h : (k, v) ∈ es)
    (hone : ∀ w, (k, w) ∈ es → w = v) : find k es = some v := by
  induction es with
  | nil => cases h
  | cons e rest ih =>
    obtain ⟨k', v'⟩ := e
    by_cases hk : k' = k
    · subst hk
      rw [find, if_pos rfl, hone v' List.mem_cons_self]
    · rw [find, if_neg hk]
      refine ih ?_ fun w hw => hone w (List.mem_cons_of_mem _ hw)
      rcases List.mem_cons.mp h with heq | hmem
      · exact absurd (congrArg Prod.fst heq).symm hk
      · exact hmem

theorem find_append (k : κ) (es fs : List (κ × α)) :
    find k (es ++ fs) = (find k es).or (find k fs) := by
  induction es with
  | nil => rfl
  | cons e rest ih =>
    by_cases hk : e.1 = k
    · simp [find, hk]
    · simp only [List.cons_append, find, if_neg hk, ih]

/-- The entries are the pairs of keys and values that a look-up finds. -/
theorem mem_entries_iff (t : Table κ α) (k : κ) (v : α) :
    (k, v) ∈ t.entries ↔ t.get? k = some v := by
  constructor
  · intro h
    refine find_of_mem h ?_
    intro w hw
    have := List.inj_on_of_nodup_map t.distinct h hw rfl
    cases this
    rfl
  · intro h
    exact mem_of_find h

/-- Of two values set for one key the second counts. -/
theorem insert_insert (t : Table κ α) (k : κ) (v w : α) :
    (t.insert k v).insert k w = t.insert k w := by
  have hput : ∀ es : List (κ × α), put k w (put k v es) = put k w es := by
    intro es
    induction es with
    | nil => simp [put]
    | cons e rest ih =>
      by_cases hk : e.1 = k
      · simp only [put, hk, if_true]
      · simp only [put, hk, if_false, ih]
  exact ext_entries (hput t.entries)

def insertAll (t : Table κ α) (es : List (κ × α)) : Table κ α :=
  es.foldl (fun t e => t.insert e.1 e.2) t

theorem insertAll_cons (t : Table κ α) (e : κ × α) (es : List (κ × α)) :
    t.insertAll (e :: es) = (t.insert e.1 e.2).insertAll es := rfl

theorem get?_insertAll (t : Table κ α) (es : List (κ × α)) (k : κ) :
    (t.insertAll es).get? k = (find k es.reverse).or (t.get? k) := by
  induction es generalizing t with
  | nil => rfl
  | cons e rest ih =>
    rw [insertAll_cons, ih, get?_insert, List.reverse_cons, find_append, Option.or_assoc]
    congr 1
    by_cases hk : e.1 = k
    · simp [find, hk]
    · simp [find, hk]

theorem put_of_not_mem {k : κ} {v : α} {es : List (κ × α)} (h : k ∉ es.map Prod.fst) :
    put k v es = es ++ [(k, v)] := by
  induction es with
  | nil => rfl
  | cons e rest ih =>
    rw [List.map_cons, List.mem_cons, not_or] at h
    rw [put, if_neg (Ne.symm h.1), ih h.2, List.cons_append]

theorem entries_insertAll {t : Table κ α} {es : List (κ × α)}
    (h : ((t.entries ++ es).map Prod.fst).Nodup) : (t.insertAll es).entries = t.entries ++ es := by
  induction es generalizing t with
  | nil => exact (List.append_nil _).symm
  | cons e rest ih =>
    have hnew : e.1 ∉ t.entries.map Prod.fst := by
      rw [List.map_append, List.nodup_append] at h
      exact fun hmem => h.2.2 e.1 hmem e.1 (by simp) rfl
    have hput : (t.insert e.1 e.2).entries = t.entries ++ [e] := put_of_not_mem hnew
    rw [insertAll_cons, ih, hput, List.append_assoc]
    · rfl
    · rw [hput, List.append_assoc]
      exact h

theorem get?_insertAll_elim {t : Table κ α} {es : List (κ × α)} {k : κ} {v : α}
    (h : (t.insertAll es).get? k = some v) : (k, v) ∈ es ∨ t.get? k = some v := by
  rw [get?_insertAll] at h
  cases hf : find k es.reverse with
  | none =>
    rw [hf, Option.none_or] at h
    exact .inr h
  | some w =>
    rw [hf, Option.some_or] at h
    cases h
    exact .inl (List.mem_reverse.mp (mem_of_find hf))

theorem get?_insertAll_of_mem {t : Table κ α} {es : List (κ × α)} {k : κ} {v : α}
    (h : (k, v) ∈ es) (hone : ∀ w, (k, w) ∈ es → w = v) : (t.insertAll es).get? k = some v := by
  rw [get?_insertAll, find_of_mem (List.mem_reverse.mpr h), Option.some_or]
  intro w hw
  exact hone w (List.mem_reverse.mp hw)

theorem get?_insertAll_of_not_mem {t : Table κ α} {es : List (κ × α)} {k : κ}
    (h : ∀ v, (k, v) ∉ es) : (t.insertAll es).get? k = t.get? k := by
  rw [get?_insertAll]
  cases hf : find k es.reverse with
  | none => rfl
  | some w => exact absurd (List.mem_reverse.mp (mem_of_find hf)) (h w)

theorem isSome_get?_insertAll (t : Table κ α) (es : List (κ × α)) (k : κ) :
    ((t.insertAll es).get? k).isSome ↔ (t.get? k).isSome ∨ ∃ v, (k, v) ∈ es := by
  constructor
  · intro h
    obtain ⟨v, hv⟩ := Option.isSome_iff_exists.mp h
    rcases get?_insertAll_elim hv with hmem | hold
    · exact .inr ⟨v, hmem⟩
    · exact .inl (by rw [hold]; rfl)
  · intro h
    rw [get?_insertAll]
    cases hf : find k es.reverse with
    | some w => rfl
    | none =>
      rw [Option.none_or]
      rcases h with hold | ⟨v, hmem⟩
      · exact hold
      · have hkey : k ∈ es.reverse.map Prod.fst :=
          List.mem_map.mpr ⟨(k, v), List.mem_reverse.mpr hmem, rfl⟩
        have hsome := (find_isSome_iff k es.reverse).mpr hkey
        rw [hf] at hsome
        cases hsome

/-! ## Values under a map -/

variable {β : Type} (f : α → β)

theorem mapValues_insert (t : Table κ α) (k : κ) (v : α) :
    (t.insert k v).mapValues f = (t.mapValues f).insert k (f v) := by
  have hput : ∀ es : List (κ × α), (put k v es).map (fun e => (e.1, f e.2)) =
      put k (f v) (es.map fun e => (e.1, f e.2)) := by
    intro es
    induction es with
    | nil => rfl
    | cons e rest ih =>
      by_cases hk : e.1 = k
      · simp only [put, hk, if_true, List.map_cons]
      · simp only [put, hk, if_false, List.map_cons, ih]
  exact ext_entries (hput t.entries)

theorem mapValues_erase (t : Table κ α) (k : κ) :
    (t.erase k).mapValues f = (t.mapValues f).erase k := by
  refine ext_entries ?_
  show (t.entries.filter _).map _ = (t.entries.map _).filter _
  rw [List.filter_map]
  rfl

/-! ## All entries -/

/-- The property holds of every key and its value. -/
def All (P : κ → α → Prop) (t : Table κ α) : Prop := ∀ k v, t.get? k = some v → P k v

namespace All

variable {P : κ → α → Prop} {t : Table κ α}

theorem empty : (Table.empty : Table κ α).All P := by
  intro k v h
  cases h

theorem insert (h : t.All P) {k : κ} {v : α} (hv : P k v) : (t.insert k v).All P := by
  intro k' v' hget
  rw [get?_insert] at hget
  split at hget
  · next heq =>
    cases hget
    exact heq ▸ hv
  · exact h k' v' hget

theorem insertAll (h : t.All P) {es : List (κ × α)} (hes : ∀ e ∈ es, P e.1 e.2) :
    (t.insertAll es).All P := by
  intro k v hget
  rcases get?_insertAll_elim hget with hmem | hold
  · exact hes _ hmem
  · exact h k v hold

theorem foldl {β : Type} {f : Table κ α → β → Table κ α} {bs : List β}
    (hf : ∀ t, t.All P → ∀ b ∈ bs, (f t b).All P) (h : t.All P) : (bs.foldl f t).All P := by
  induction bs generalizing t with
  | nil => exact h
  | cons b bs ih =>
    exact ih (fun t ht b' hb' => hf t ht b' (List.mem_cons_of_mem _ hb')) (hf t h b List.mem_cons_self)

end All

end Table
end VerifierTrace
