/-!
# VerifierTrace.Table

Finite maps that remember the order in which their keys came.

A table is a list of entries no two of which have one key. Looking up goes through `get?`; `insert`
replaces the value of a known key in its place and puts a new key at the end; `erase` closes the
gap. The lemmas say what each operation does to `get?` and to the keys.
-/

namespace VerifierTrace

/-- A map from `κ` to `α` whose keys keep their order. -/
structure Table (κ α : Type) where
  entries : List (κ × α)
  /-- No two entries have one key. -/
  distinct : (entries.map Prod.fst).Nodup

namespace Table

variable {κ α β : Type}

theorem ext_entries {t u : Table κ α} (h : t.entries = u.entries) : t = u := by
  cases t; cases u; cases h; rfl

instance [DecidableEq κ] [DecidableEq α] : DecidableEq (Table κ α) := fun t u =>
  decidable_of_iff (t.entries = u.entries) ⟨ext_entries, fun h => h ▸ rfl⟩

def empty : Table κ α := ⟨[], .nil⟩

instance : Inhabited (Table κ α) := ⟨empty⟩

def keys (t : Table κ α) : List κ := t.entries.map Prod.fst

def size (t : Table κ α) : Nat := t.entries.length

def mapValues (f : α → β) (t : Table κ α) : Table κ β where
  entries := t.entries.map fun e => (e.1, f e.2)
  distinct := by
    rw [List.map_map]
    exact t.distinct

section Lookup

variable [DecidableEq κ]

def find (k : κ) : List (κ × α) → Option α
  | [] => none
  | e :: rest => if e.1 = k then some e.2 else find k rest

def get? (t : Table κ α) (k : κ) : Option α := find k t.entries

def contains (t : Table κ α) (k : κ) : Bool := (t.get? k).isSome

/-- Entries with one set: in its place if the key is known, else at the end. -/
def put (k : κ) (v : α) : List (κ × α) → List (κ × α)
  | [] => [(k, v)]
  | e :: rest => if e.1 = k then (e.1, v) :: rest else e :: put k v rest

/-- Setting an entry adds its key at the end or changes no key. -/
theorem map_fst_put (k : κ) (v : α) (es : List (κ × α)) :
    (put k v es).map Prod.fst =
      if k ∈ es.map Prod.fst then es.map Prod.fst else es.map Prod.fst ++ [k] := by
  induction es with
  | nil => simp [put]
  | cons e rest ih =>
    by_cases h : e.1 = k
    · simp [put, h]
    · have h' : ¬ k = e.1 := fun hk => h hk.symm
      simp only [put, h, if_false, List.map_cons, ih, List.mem_cons, h', false_or]
      split <;> simp

theorem nodup_put {k : κ} {v : α} {es : List (κ × α)} (h : (es.map Prod.fst).Nodup) :
    ((put k v es).map Prod.fst).Nodup := by
  rw [map_fst_put]
  split
  · exact h
  · next hk =>
    rw [List.nodup_append]
    refine ⟨h, by simp, ?_⟩
    intro a ha b hb hab
    rw [List.mem_singleton] at hb
    exact hk (hb ▸ hab ▸ ha)

def insert (t : Table κ α) (k : κ) (v : α) : Table κ α := ⟨put k v t.entries, nodup_put t.distinct⟩

def erase (t : Table κ α) (k : κ) : Table κ α where
  entries := t.entries.filter fun e => decide (e.1 ≠ k)
  distinct := by
    have hs : ((t.entries.filter fun e => decide (e.1 ≠ k)).map Prod.fst).Sublist
        (t.entries.map Prod.fst) := List.filter_sublist.map _
    exact hs.nodup t.distinct

/-- The table that a list of entries builds up in order; the last value of a key counts. -/
def ofList (es : List (κ × α)) : Table κ α := es.foldl (fun t e => t.insert e.1 e.2) empty

@[simp] theorem get?_empty (k : κ) : (empty : Table κ α).get? k = none := rfl

theorem find_put (k k' : κ) (v : α) (es : List (κ × α)) :
    find k' (put k v es) = if k = k' then some v else find k' es := by
  induction es with
  | nil => simp [put, find]
  | cons e rest ih =>
    by_cases h : e.1 = k
    · subst h
      by_cases h' : e.1 = k' <;> simp [put, find, h']
    · by_cases h' : e.1 = k'
      · have hk : ¬ k = k' := fun hk => h (h'.trans hk.symm)
        rw [put, if_neg h, find, if_pos h', if_neg hk, find, if_pos h']
      · rw [put, if_neg h, find, if_neg h', ih, find, if_neg h']

theorem get?_insert (t : Table κ α) (k k' : κ) (v : α) :
    (t.insert k v).get? k' = if k = k' then some v else t.get? k' := find_put k k' v t.entries

theorem find_filter_ne (k k' : κ) (es : List (κ × α)) :
    find k' (es.filter fun e => decide (e.1 ≠ k)) = if k = k' then none else find k' es := by
  induction es with
  | nil => simp [find]
  | cons e rest ih =>
    rw [List.filter_cons]
    by_cases h : e.1 = k
    · subst h
      by_cases h' : e.1 = k' <;> simp_all [find]
    · by_cases h' : e.1 = k'
      · have : ¬ k = k' := fun hk => h (h'.trans hk.symm)
        simp [find, h', this, Ne.symm this]
      · simp_all [find]

theorem get?_erase (t : Table κ α) (k k' : κ) :
    (t.erase k).get? k' = if k = k' then none else t.get? k' := find_filter_ne k k' t.entries

theorem find_map (f : α → β) (k : κ) (es : List (κ × α)) :
    find k (es.map fun e => (e.1, f e.2)) = (find k es).map f := by
  induction es with
  | nil => rfl
  | cons e rest ih =>
    by_cases h : e.1 = k <;> simp [find, h, ih]

theorem get?_mapValues (f : α → β) (t : Table κ α) (k : κ) :
    (t.mapValues f).get? k = (t.get? k).map f := find_map f k t.entries

theorem keys_insert (t : Table κ α) (k : κ) (v : α) :
    (t.insert k v).keys = if k ∈ t.keys then t.keys else t.keys ++ [k] :=
  map_fst_put k v t.entries

theorem find_isSome_iff (k : κ) (es : List (κ × α)) :
    (find k es).isSome ↔ k ∈ es.map Prod.fst := by
  induction es with
  | nil => simp [find]
  | cons e rest ih =>
    by_cases h : e.1 = k
    · simp [find, h]
    · have h' : ¬ k = e.1 := fun hk => h hk.symm
      simp only [find, h, if_false, ih, List.map_cons, List.mem_cons, h', false_or]

theorem mem_keys_iff (t : Table κ α) (k : κ) : k ∈ t.keys ↔ (t.get? k).isSome :=
  (find_isSome_iff k t.entries).symm

end Lookup

end Table
end VerifierTrace
