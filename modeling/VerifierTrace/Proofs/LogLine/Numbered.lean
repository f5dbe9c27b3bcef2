import VerifierTrace.Analysis

/-!
# VerifierTrace.Proofs.LogLine.Numbered

Lines whose indices are their positions.

Reading a log numbers its lines from zero (`numbered_of_readLines`), and notices change no index
(`numbered_settleAll`), so the lines that the machine runs over are numbered.
-/

namespace VerifierTrace
namespace LogLine

/-- Every line stands where its index says. -/
def Numbered (lines : List LogLine) : Prop :=
  ∀ (i : Nat) (line : LogLine), lines[i]? = some line → line.idx = i

/-- The lines of a log, none if one of them cannot be read. -/
def ofLog (raws : List String) : List LogLine := (Analysis.readLines raws).toOption.getD []

/-- The line with an index and a text, not understood if it cannot be read. -/
def ofText (idx : Int) (raw : String) : LogLine :=
  (read raw idx).toOption.getD ⟨idx, raw, .unrecognized none⟩

theorem idx_of_readFrom {start : Int} {raws : List String} {lines : List LogLine}
    (h : Analysis.readFrom start raws = .ok lines) (i : Nat) (line : LogLine)
    (hi : lines[i]? = some line) : line.idx = start + i := by
  induction raws generalizing start lines i with
  | nil => cases h; simp at hi
  | cons raw more ih =>
    unfold Analysis.readFrom at h
    cases hr : read raw start with
    | error e => rw [hr] at h; cases h
    | ok first =>
      rw [hr] at h
      cases hm : Analysis.readFrom (start + 1) more with
      | error e => simp only [hm] at h; cases h
      | ok rest =>
        simp only [hm] at h
        cases h
        cases i with
        | zero =>
          simp only [List.getElem?_cons_zero, Option.some.injEq] at hi
          subst hi
          unfold read at hr
          cases hc : Content.read raw.toList with
          | error e => rw [hc] at hr; cases hr
          | ok content => rw [hc] at hr; cases hr; simp
        | succ i =>
          have hnext := ih hm i (by simpa using hi)
          rw [hnext]
          push_cast
          omega

theorem numbered_of_readLines {raws : List String} {lines : List LogLine}
    (h : Analysis.readLines raws = .ok lines) : Numbered lines := by
  intro i line hi
  have := idx_of_readFrom h i line hi
  omega

theorem numbered_ofLog (raws : List String) : Numbered (ofLog raws) := by
  unfold ofLog
  cases h : Analysis.readLines raws with
  | error e => intro i line hi; simp [Except.toOption] at hi
  | ok lines => exact numbered_of_readLines h

theorem Numbered.of_concat {lines : List LogLine} {line : LogLine}
    (h : Numbered (lines ++ [line])) : Numbered lines ∧ line.idx = lines.length := by
  refine ⟨fun i l hl => ?_, h lines.length line (by rw [List.getElem?_concat_length])⟩
  have hlt := (List.getElem?_eq_some_iff.mp hl).1
  exact h i l (by rw [List.getElem?_append_left hlt, hl])

/-! ## Notices -/

theorem numbered_iff_map_idx {lines : List LogLine} :
    Numbered lines ↔ lines.map idx = (List.range lines.length).map Int.ofNat := by
  constructor
  · intro h
    refine List.ext_getElem (by simp) ?_
    intro i h₁ _
    have hi : i < lines.length := by simpa using h₁
    simpa using h i lines[i] (List.getElem?_eq_getElem hi)
  · intro h i line hi
    have hmap := congrArg (fun l => l[i]?) h
    obtain ⟨hlt, rfl⟩ := List.getElem?_eq_some_iff.mp hi
    simpa [hlt] using hmap

theorem map_idx_fold? {name : String} {before before' : List LogLine}
    (h : Notice.fold? name before = some before') : before'.map idx = before.map idx := by
  cases before with
  | nil => cases h
  | cons line before =>
    unfold Notice.fold? at h
    obtain ⟨line', hl, rfl⟩ := Option.map_eq_some_iff.mp h
    unfold folded? at hl
    split at hl
    · split at hl
      · cases hl
        rfl
      · cases hl
    · cases hl

theorem map_idx_merge? {exprs : List StateExpr} {before before' : List LogLine}
    (h : Notice.merge? exprs before = some before') : before'.map idx = before.map idx := by
  induction before generalizing before' with
  | nil => cases h
  | cons line before ih =>
    unfold Notice.merge? at h
    split at h
    · next line' hl =>
      cases h
      unfold extended? at hl
      split at hl
      · cases hl
        rfl
      · cases hl
    · obtain ⟨before'', hb, rfl⟩ := Option.map_eq_some_iff.mp h
      rw [List.map_cons, List.map_cons, ih hb]

theorem map_idx_settle? {config : Config} {before before' : List LogLine} {n : Notice}
    {s : Settlement} (h : Notice.settle? config before n = some (before', s)) :
    before'.map idx = before.map idx := by
  cases n with
  | globalFunction id name =>
    simp only [Notice.settle?] at h
    split at h
    · obtain ⟨lines, hl, heq⟩ := Option.map_eq_some_iff.mp h
      cases heq
      exact map_idx_fold? hl
    · cases h
  | stateBlock pc exprs =>
    simp only [Notice.settle?] at h
    split at h
    · obtain ⟨lines, hl, heq⟩ := Option.map_eq_some_iff.mp h
      cases heq
      exact map_idx_merge? hl
    · cases h

theorem map_idx_settleFrom (config : Config) (before rest : List LogLine) :
    (Notice.settleFrom config before rest).1.map idx = before.reverse.map idx ++ rest.map idx := by
  induction rest generalizing before with
  | nil => simp [Notice.settleFrom]
  | cons line rest ih =>
    unfold Notice.settleFrom
    split
    · next n hn =>
      split
      · next before' s hs =>
        simp only [ih, List.reverse_cons, List.map_append, List.map_reverse, map_idx_settle? hs]
        simp
      · simp [ih]
    · simp [ih]

theorem numbered_settleAll (config : Config) {lines : List LogLine} (h : Numbered lines) :
    Numbered (Notice.settleAll config lines).1 := by
  have hmap := map_idx_settleFrom config [] lines
  have hlen := congrArg List.length hmap
  rw [numbered_iff_map_idx] at h ⊢
  simp only [List.length_map, List.reverse_nil, List.map_nil, List.nil_append] at hlen hmap
  unfold Notice.settleAll
  rw [hmap, h, hlen]

end LogLine
end VerifierTrace
