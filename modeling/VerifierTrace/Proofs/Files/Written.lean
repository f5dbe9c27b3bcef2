import VerifierTrace.Files.Tree

/-!
# VerifierTrace.Proofs.Files.Written

A file that was written is found again where it was written.

Paths are followed from node to node, and `..` leads back to nodes that were passed before the tree
was changed, so the way through the old tree and the one through the new tree have no node in common.
They have their names in common, though: `walkFrom` follows a path by what stands at the names that
it has come to (`walk_eq`), and a node that is put where no directory was stands in the way of no
directory (`get?_put`).

* `FileTree.place_put`: a path leads to what was put where it led before.
* `FileTree.read_of_write`, `FileTree.read_of_writeDeep`: the bytes that were written are read.
-/

namespace VerifierTrace
namespace Node

def IsDirectory (node : Node) : Prop := ∃ es, node = .directory es

theorem lookup_put (name : String) (node : Node) (es : List (String × Node)) (name' : String) :
    (Table.put name node es).lookup name' = if name = name' then some node else es.lookup name' := by
  have hbeq : ∀ key : String, (name' == key) = decide (key = name') := by
    intro key
    rw [Bool.eq_iff_iff, beq_iff_eq, decide_eq_true_eq, eq_comm]
  induction es with
  | nil =>
    rw [Table.put, List.lookup_cons, hbeq]
    by_cases h : name = name' <;> simp [h]
  | cons e rest ih =>
    obtain ⟨key, other⟩ := e
    unfold Table.put
    by_cases hkey : key = name
    · subst hkey
      simp only [if_true, List.lookup_cons, hbeq]
      by_cases h : key = name' <;> simp [h]
    · simp only [hkey, if_false, List.lookup_cons, hbeq, ih]
      by_cases h : name = name'
      · subst h
        simp [hkey]
      · simp only [h, if_false]

theorem get?_append (root : Node) (names more : List String) :
    root.get? (names ++ more) = (root.get? names).bind fun node => node.get? more := by
  induction names generalizing root with
  | nil => rfl
  | cons name names ih =>
    rw [List.cons_append, get?, get?, Option.bind_assoc]
    exact congrArg _ (funext fun node => ih node)

theorem get?_put_self (root new : Node) (names : List String) :
    (root.put new names).get? names = some new := by
  induction names generalizing root with
  | nil => rfl
  | cons name more ih =>
    rw [put, get?, entries, lookup_put, if_pos rfl, Option.bind_some, ih]

/-- Where no directory was before, what is put hides nothing, and directories stay. -/
theorem get?_put {root new node : Node} {names front : List String}
    (hleaf : ∀ old, root.get? names = some old → ¬ old.IsDirectory)
    (h : root.get? front = some node) : ∃ node', (root.put new names).get? front = some node' ∧
      (node.IsDirectory → node'.IsDirectory) := by
  induction names generalizing root front with
  | nil =>
    have hroot := hleaf root rfl
    cases front with
    | nil =>
      cases h
      exact ⟨new, rfl, fun hnode => absurd hnode hroot⟩
    | cons name front =>
      have hentries : root.entries = [] := by
        cases root with
        | directory es => exact absurd ⟨es, rfl⟩ hroot
        | file | device => rfl
      rw [get?, hentries] at h
      cases h
  | cons name more ih =>
    cases front with
    | nil => exact ⟨_, rfl, fun _ => ⟨_, rfl⟩⟩
    | cons name' front =>
      rw [put, get?, entries, lookup_put]
      by_cases hname : name = name'
      · subst hname
        obtain ⟨child, hchild, hfront⟩ := Option.bind_eq_some_iff.mp h
        rw [if_pos rfl, hchild, Option.getD_some, Option.bind_some]
        refine ih (fun old hold => hleaf old ?_) hfront
        rw [get?, hchild, Option.bind_some, hold]
      · rw [if_neg hname]
        exact ⟨node, h, id⟩

end Node

namespace FileTree

open Node

/-! ## Paths by names -/

/-- Follows names from the place `front`. -/
def walkFrom (root : Node) (front : List String) : List String → Except FileFault Spot
  | [] => .ok ⟨front, root.get? front⟩
  | name :: more =>
    match root.get? front with
    | some (.directory _) =>
      if maxNameSize < name.utf8ByteSize then .error .nameTooLong
      else if name = ".." then walkFrom root front.dropLast more
      else match root.get? (front ++ [name]) with
        | some _ => walkFrom root (front ++ [name]) more
        | none => if more.isEmpty then .ok ⟨front ++ [name], none⟩ else .error .notFound
    | _ => .error .notDirectory

inductive Leads (root : Node) : Trail → Prop where
  | start : Leads root ⟨root, []⟩
  | down {t : Trail} {name : String} {node : Node} : Leads root t →
      t.node.entries.lookup name = some node → Leads root (t.down name node)

theorem names_down (t : Trail) (name : String) (node : Node) :
    (t.down name node).names = t.names ++ [name] := by
  simp [Trail.down, Trail.names]

theorem Leads.get? {root : Node} {t : Trail} (h : Leads root t) :
    root.get? t.names = some t.node := by
  induction h with
  | start => rfl
  | @down t name node _ hlookup ih =>
    rw [names_down, get?_append, ih, Option.bind_some, Node.get?, hlookup]
    rfl

theorem Leads.up {root : Node} {t : Trail} (h : Leads root t) :
    Leads root t.up ∧ t.up.names = t.names.dropLast := by
  cases h with
  | start => exact ⟨.start, rfl⟩
  | @down t name node ht _ =>
    refine ⟨ht, ?_⟩
    rw [names_down, List.dropLast_concat]
    rfl

theorem walk_eq {root : Node} {t : Trail} (h : Leads root t) (path : List String) :
    t.walk path = walkFrom root t.names path := by
  induction path generalizing t with
  | nil => rw [Trail.walk, walkFrom, h.get?]
  | cons name more ih =>
    rw [Trail.walk, walkFrom, h.get?]
    cases hnode : t.node with
    | file | device => rfl
    | directory es =>
      have hbelow : root.get? (t.names ++ [name]) = es.lookup name := by
        rw [get?_append, h.get?, Option.bind_some, hnode, Node.get?, entries]
        cases es.lookup name <;> rfl
      simp only [hbelow, ih h.up.1, h.up.2]
      cases hlookup : es.lookup name with
      | none => rfl
      | some node =>
        have hdown : Leads root (t.down name node) := .down h (by rw [hnode]; exact hlookup)
        simp only [ih hdown, names_down]

/-! ## What was written -/

theorem get?_of_walkFrom {root : Node} {front path : List String} {spot : Spot}
    (h : walkFrom root front path = .ok spot) : root.get? spot.names = spot.node := by
  induction path generalizing front with
  | nil =>
    cases h
    rfl
  | cons name more ih =>
    unfold walkFrom at h
    split at h
    · split at h
      · cases h
      · split at h
        · exact ih h
        · split at h
          · exact ih h
          · next hnone =>
            split at h
            · cases h
              exact hnone
            · cases h
    · cases h

theorem walkFrom_put {root new : Node} {names front path : List String} {old : Option Node}
    (hleaf : ∀ node, old = some node → ¬ node.IsDirectory)
    (h : walkFrom root front path = .ok ⟨names, old⟩) :
    walkFrom (root.put new names) front path = .ok ⟨names, some new⟩ := by
  have hold := get?_of_walkFrom h
  have hput : ∀ {names' node}, root.get? names' = some node →
      ∃ node', (root.put new names).get? names' = some node' ∧
        (node.IsDirectory → node'.IsDirectory) := fun hnode =>
    get?_put (fun node hget => hleaf node (hold.symm.trans hget)) hnode
  induction path generalizing front with
  | nil =>
    cases h
    rw [walkFrom, get?_put_self]
  | cons name more ih =>
    unfold walkFrom at h
    split at h
    · next es hfront =>
      obtain ⟨dir, hfront', hdir⟩ := hput hfront
      obtain ⟨es', rfl⟩ := hdir ⟨es, rfl⟩
      split at h
      · cases h
      · next hsize =>
        rw [walkFrom, hfront']
        simp only [if_neg hsize]
        split at h
        · next hup =>
          rw [if_pos hup]
          exact ih h
        · next hdown =>
          rw [if_neg hdown]
          split at h
          · next node hbelow =>
            obtain ⟨node', hbelow', -⟩ := hput hbelow
            rw [hbelow']
            exact ih h
          · split at h
            · next hlast =>
              cases h
              rw [get?_put_self, List.isEmpty_iff.mp hlast]
              simp only [walkFrom, get?_put_self]
            · cases h
    · cases h

theorem place_put {t : FileTree} {p : Path} {names : List String} {old : Option Node}
    (h : t.place p = .ok ⟨names, old⟩) (hleaf : ∀ node, old = some node → ¬ node.IsDirectory)
    (new : Node) : place { t with top := t.top.put new names } p = .ok ⟨names, some new⟩ := by
  unfold place at h ⊢
  split at h
  · cases h
  · next hnull =>
    rw [if_neg hnull]
    split at h
    · cases h
    · next hsize =>
      rw [if_neg hsize]
      rw [walk_eq .start] at h ⊢
      exact walkFrom_put hleaf h

theorem read_of_write {t t' : FileTree} {p : Path} {bytes : List UInt8}
    (h : t.write p bytes = .ok t') : t'.read p = .ok bytes := by
  unfold write at h
  split at h
  · cases h
  · cases h
  · next names old hplace =>
    cases h
    rw [read, place_put hplace (by rintro node ⟨⟩ ⟨es, hes⟩; cases hes)]
  · next names old hnotDirectory _ hplace =>
    cases h
    rw [read, place_put hplace (by rintro node rfl ⟨es, rfl⟩; exact hnotDirectory es rfl)]

/-- The directories that a file lies in may have been missing. -/
theorem read_of_writeDeep {t t' : FileTree} {p : Path} {bytes : List UInt8}
    (h : t.writeDeep p bytes = .ok t') : t'.read p = .ok bytes := by
  unfold writeDeep at h
  split at h
  · cases h
  · exact read_of_write h

end FileTree
end VerifierTrace
