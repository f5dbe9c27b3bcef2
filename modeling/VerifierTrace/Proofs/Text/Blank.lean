import Mathlib.Data.List.TakeWhile
import VerifierTrace.Text.Blank

/-!
# VerifierTrace.Proofs.Text.Blank

White space around a text.

* `skipBlanks_append`, `trim_append`: white space in front makes no difference.
* `trim_around`: a text that neither begins nor ends with white space is what is left of it with white
  space around.
* `exists_eq_trim`: nothing but white space is cut off.
-/

namespace VerifierTrace
namespace Text

def Blank (cs : List Char) : Prop := ∀ c ∈ cs, isBlank c = true

instance (cs : List Char) : Decidable (Blank cs) := List.decidableBAll _ cs

/-- There is neither white space nor the mark. -/
def Unmarked (mark : Char) (cs : List Char) : Prop := ∀ c ∈ cs, isBlank c = false ∧ c ≠ mark

instance (mark : Char) (cs : List Char) : Decidable (Unmarked mark cs) := List.decidableBAll _ cs

theorem blank_replicate (n : Nat) : Blank (List.replicate n ' ') := by
  intro c hc
  rw [List.eq_of_mem_replicate hc]
  decide

variable {cs front behind : List Char}

theorem skipBlanks_append (h : Blank front) (cs : List Char) :
    skipBlanks (front ++ cs) = skipBlanks cs := List.dropWhile_append_of_pos h

theorem skipBlanks_of_head (h : ∀ c ∈ cs.head?, isBlank c = false) : skipBlanks cs = cs := by
  cases cs with
  | nil => rfl
  | cons c cs => rw [skipBlanks_cons, if_neg (by simp [h c rfl])]

theorem isBlank_head?_skipBlanks (cs : List Char) :
    ∀ c ∈ (skipBlanks cs).head?, isBlank c = false := by
  intro c hc
  have hnot := List.head?_dropWhile_not isBlank cs
  rw [skipBlanks] at hc
  rw [Option.mem_def.mp hc] at hnot
  simpa using hnot

theorem exists_eq_skipBlanks (cs : List Char) :
    ∃ front, Blank front ∧ cs = front ++ skipBlanks cs :=
  ⟨cs.takeWhile isBlank, fun _ hc => List.mem_takeWhile_imp hc,
    List.takeWhile_append_dropWhile.symm⟩

theorem trimEnd_append (h : Blank behind) (cs : List Char) : trimEnd (cs ++ behind) = trimEnd cs := by
  have hreverse : ∀ c ∈ behind.reverse, isBlank c = true := by
    intro c hc
    exact h c (List.mem_reverse.mp hc)
  rw [trimEnd, trimEnd, List.reverse_append, List.dropWhile_append_of_pos hreverse]

theorem trimEnd_of_last (h : ∀ c ∈ cs.getLast?, isBlank c = false) : trimEnd cs = cs := by
  have hskip : skipBlanks cs.reverse = cs.reverse := by
    refine skipBlanks_of_head fun c hc => h c ?_
    rwa [List.head?_reverse] at hc
  rw [trimEnd, ← skipBlanks, hskip, List.reverse_reverse]

theorem exists_eq_trimEnd (cs : List Char) :
    ∃ behind, Blank behind ∧ cs = trimEnd cs ++ behind := by
  obtain ⟨front, hblank, heq⟩ := exists_eq_skipBlanks cs.reverse
  refine ⟨front.reverse, fun c hc => hblank c (List.mem_reverse.mp hc), ?_⟩
  have hcs := congrArg List.reverse heq
  rwa [List.reverse_reverse, List.reverse_append] at hcs

theorem trim_append (h : Blank front) (cs : List Char) : trim (front ++ cs) = trim cs := by
  rw [trim, trim, skipBlanks_append h]

theorem trim_around (hfront : Blank front) (hbehind : Blank behind)
    (hhead : ∀ c ∈ cs.head?, isBlank c = false) (hlast : ∀ c ∈ cs.getLast?, isBlank c = false) :
    trim (front ++ (cs ++ behind)) = cs := by
  rw [trim_append hfront, trim]
  cases cs with
  | nil =>
    have hnil := skipBlanks_append hbehind []
    rw [List.append_nil] at hnil
    rw [List.nil_append, hnil]
    rfl
  | cons c cs =>
    rw [skipBlanks_of_head (by simpa using hhead), trimEnd_append hbehind, trimEnd_of_last hlast]

theorem exists_eq_trim (cs : List Char) :
    ∃ front behind, Blank front ∧ Blank behind ∧ cs = front ++ (trim cs ++ behind) := by
  obtain ⟨front, hfront, heq⟩ := exists_eq_skipBlanks cs
  obtain ⟨behind, hbehind, heq'⟩ := exists_eq_trimEnd (skipBlanks cs)
  exact ⟨front, behind, hfront, hbehind, by rw [trim, ← heq', ← heq]⟩

theorem trim_infix (cs : List Char) : trim cs <:+: cs := by
  obtain ⟨front, behind, -, -, heq⟩ := exists_eq_trim cs
  exact ⟨front, behind, by rw [List.append_assoc, ← heq]⟩

theorem trim_eq_nil_iff : trim cs = [] ↔ Blank cs := by
  constructor
  · intro h
    obtain ⟨front, behind, hfront, hbehind, heq⟩ := exists_eq_trim cs
    rw [h, List.nil_append] at heq
    subst heq
    exact List.forall_mem_append.mpr ⟨hfront, hbehind⟩
  · intro h
    have htrim := trim_append h []
    rwa [List.append_nil] at htrim

end Text
end VerifierTrace
