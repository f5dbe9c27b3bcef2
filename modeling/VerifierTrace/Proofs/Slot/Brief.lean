import VerifierTrace.Proofs.Numeral.Brief
import VerifierTrace.Proofs.Slot.Naming

/-!
# VerifierTrace.Proofs.Slot.Brief

Names of slots without long numerals.

The name that a printed key stands for has no longer numerals than the key (`brief_ofKey`): lower
case neither makes digits nor moves them together. The name of a stack slot has those of its frame
and its offset (`brief_ofFrame`), and gives them back when it is read (`yields_location`).
-/

namespace VerifierTrace
namespace Text

namespace Lower

theorem digit_lt_of_mem_runs : ∀ r ∈ runs, 57 < (r.first : Int) + r.shift := by decide +kernel

theorem isDigit_of_lt {c : Char} (h : 57 < c.toNat) : c.isDigit = false := by
  rw [← Bool.not_eq_true, Char.isDigit_iff_toNat]
  have hnine : '9'.toNat = 57 := rfl
  omega

theorem isDigit_ofNat_of_lt {i : Nat} (h : 57 < i) : (Char.ofNat i).isDigit = false := by
  by_cases hi : i.isValidChar
  · rw [Char.ofNat, dif_pos hi]
    exact isDigit_of_lt h
  · rw [Char.ofNat, dif_neg hi]
    rfl

theorem isDigit_toLower (c : Char) : c.toLower.isDigit = c.isDigit := by
  unfold Char.toLower
  split
  · next h =>
    have hlow : 65 ≤ c.toNat := h.1
    have hhigh : c.toNat ≤ 90 := h.2
    have hsmall : (c.val + ('a'.val - 'A'.val)).toNat = c.toNat + 32 := by
      rw [UInt32.toNat_add, Nat.mod_eq_of_lt]
      · rfl
      · show c.toNat + 32 < 4294967296
        omega
    rw [isDigit_of_lt (c := c) (by omega)]
    refine isDigit_of_lt ?_
    rw [Char.toNat, hsmall]
    omega
  · rfl

theorem isDigit_ofChar (c : Char) : (ofChar c).isDigit = c.isDigit := by
  unfold ofChar
  simp only
  split
  · exact isDigit_toLower c
  · next hc =>
    split
    · next r hr =>
      have hshift := digit_lt_of_mem_runs r (List.mem_of_find?_eq_some hr)
      have hfirst := List.find?_some hr
      simp only [Bool.and_eq_true, decide_eq_true_eq] at hfirst
      have hsmall : 57 < (Int.ofNat c.toNat + r.shift).toNat := by
        rw [Int.ofNat_eq_natCast]
        omega
      rw [isDigit_ofNat_of_lt hsmall, isDigit_of_lt (by omega)]
    · rfl

theorem takeWhile_go (before cs : List Char) :
    ((go before cs).takeWhile Char.isDigit).length = (cs.takeWhile Char.isDigit).length := by
  fun_induction go before cs with
  | case1 => rfl
  | case2 => rfl
  | case3 before rest ih =>
    split
    · rfl
    · rfl
  | case4 before c rest _ _ ih =>
    simp only [List.takeWhile_cons, isDigit_ofChar]
    split
    · simp [ih]
    · rfl

theorem brief_go {n : Nat} (before : List Char) {cs : List Char} (h : Decimal.Brief n cs) :
    Decimal.Brief n (go before cs) := by
  induction cs generalizing before with
  | nil => exact h
  | cons c rest ih =>
    obtain ⟨hfront, hrest⟩ := Decimal.Brief.cons_iff.mp h
    rw [← takeWhile_go before] at hfront
    generalize hgo : go before (c :: rest) = out at hfront ⊢
    unfold go at hgo
    split at hgo
    · next heq => cases heq
    · next heq =>
      cases heq
      subst hgo
      exact .cons_of_not_isDigit rfl (.cons_of_not_isDigit rfl (ih _ hrest))
    · next heq =>
      cases heq
      subst hgo
      exact Decimal.Brief.cons_iff.mpr ⟨hfront, ih _ hrest⟩
    · next heq =>
      cases heq
      subst hgo
      exact Decimal.Brief.cons_iff.mpr ⟨hfront, ih _ hrest⟩

end Lower

theorem brief_lower {n : Nat} {cs : List Char} (h : Decimal.Brief n cs) :
    Decimal.Brief n (lower cs) := Lower.brief_go [] h

end Text

namespace Slot

open Decimal

variable {n k : Nat}

theorem brief_canonical {name : String} (h : Brief n name.toList) :
    Brief n (canonical name).toList := by
  unfold canonical
  split
  · next hname =>
    subst hname
    have hn : 1 ≤ n := h ['0'] ⟨by simp, ['f', 'p'], [], rfl⟩
    show Brief n ['f', 'p', '-', '0']
    exact .cons_of_not_isDigit rfl (.cons_of_not_isDigit rfl (.cons_of_not_isDigit rfl
      (.of_length_le hn)))
  · exact h

/-- The slot that a key names has no longer numerals than the key. -/
theorem brief_ofKey {key : List Char} (h : Brief n key) :
    Brief n (ofKey (String.ofList key)).toList := by
  unfold ofKey
  rw [String.toList_ofList]
  refine brief_canonical ?_
  rw [String.toList_ofList]
  refine Text.brief_lower ?_
  unfold dropWritten
  split
  · exact h.of_part (List.take_prefix _ _).isInfix
  · exact h

/-! ## Names of stack slots -/

theorem brief_toDigits (hk : 0 < k) {i : Nat} (hi : i < 10 ^ k) {rest : List Char}
    (hrest : NoDigitHead rest) (h : Brief k rest) : Brief k (Nat.toDigits 10 i ++ rest) := by
  have hlen : (Nat.toDigits 10 i).length ≤ k := (Nat.length_toDigits_le_iff (by decide) hk).mpr hi
  exact .digits_append isDigit_of_mem_toDigits hlen hrest h

theorem brief_stackSuffix (hk : 0 < k) {offset : Int} (h : offset.natAbs < 10 ^ k) :
    Brief k (stackSuffix offset).toList := by
  have hdigits := brief_toDigits hk h noDigitHead_nil .nil
  rw [List.append_nil] at hdigits
  rw [toList_stackSuffix]
  split
  · exact .cons_of_not_isDigit rfl hdigits
  · exact hdigits

theorem brief_stack (hk : 0 < k) {offset : Int} (h : offset.natAbs < 10 ^ k) :
    Brief k (stack offset).toList := by
  rw [stack_eq, String.toList_append]
  exact .cons_of_not_isDigit rfl (.cons_of_not_isDigit rfl (brief_stackSuffix hk h))

theorem brief_ofFrame (hk : 0 < k) {owner : Nat} {offset : Int} (howner : owner < 10 ^ k)
    (h : offset.natAbs < 10 ^ k) (viewer : Nat) : Brief k (ofFrame owner offset viewer).toList := by
  unfold ofFrame
  split
  · exact brief_stack hk h
  · have hn : ¬ (owner : Int) < 0 := by omega
    simp only [String.toList_append, toList_toString_int, if_neg hn, Int.natAbs_natCast,
      List.nil_append, List.append_assoc]
    refine .cons_of_not_isDigit rfl (.cons_of_not_isDigit rfl (.cons_of_not_isDigit rfl ?_))
    refine brief_toDigits hk howner (noDigitHead_cons rfl) ?_
    exact .cons_of_not_isDigit rfl (brief_stackSuffix hk h)

theorem brief_register (hk : 3 ≤ k) (r : Register) : Brief k r.slot.toList := by
  refine .of_length_le (Nat.le_trans ?_ hk)
  obtain ⟨i⟩ := r
  revert i
  decide

/-! ## Reading names -/

namespace Spelling

theorem frame?_eq_some {cs ds more : List Char} (h : frame? cs = some (ds, more)) :
    Occurs ds cs ∧ more <:+: cs := by
  unfold frame? at h
  split at h
  · next rest =>
    split at h
    · next digits tail hrun =>
      cases h
      have hrest := append_of_run? hrun
      refine ⟨(occurs_of_run? hrun).of_part (List.suffix_cons _ _).isInfix, ?_⟩
      refine ⟨'[' :: (ds ++ [']']), [], ?_⟩
      rw [← hrest]
      simp
    · cases h
  · cases h

theorem ofOffset?_eq_some {frame : Option (List Char)} {cs : List Char} {s : Spelling}
    (h : ofOffset? frame cs = some s) : s.frame = frame ∧ Occurs s.digits cs := by
  have hbody : (minus cs).2 <:+: cs := by
    unfold minus
    split
    · exact (List.suffix_cons _ _).isInfix
    · exact List.infix_refl _
  unfold ofOffset? at h
  simp only at h
  split at h
  · next digits rest hrun =>
    split at h
    · cases h
      exact ⟨rfl, (occurs_of_run? hrun).of_part hbody⟩
    · cases h
  · cases h

theorem ofText?_eq_some {cs : List Char} {s : Spelling} (h : ofText? cs = some s) :
    (∀ ds ∈ s.frame, Occurs ds cs) ∧ Occurs s.digits cs := by
  unfold ofText? at h
  split at h
  · next rest =>
    have hrest : rest <:+: 'f' :: 'p' :: rest := (List.suffix_append ['f', 'p'] rest).isInfix
    split at h
    · next digits more hframe =>
      obtain ⟨hdigits, hmore⟩ := frame?_eq_some hframe
      obtain ⟨heq, hoffset⟩ := ofOffset?_eq_some h
      refine ⟨?_, hoffset.of_part (hmore.trans hrest)⟩
      intro ds hds
      rw [heq] at hds
      cases hds
      exact hdigits.of_part hrest
    · obtain ⟨heq, hoffset⟩ := ofOffset?_eq_some h
      refine ⟨?_, hoffset.of_part hrest⟩
      intro ds hds
      rw [heq] at hds
      cases hds
  · cases h

end Spelling

/-- The frame and the offset have at most `k` digits. -/
structure Location.Below (k : Nat) (l : Location) : Prop where
  frame : ∀ i ∈ l.frame, i < 10 ^ k
  offset : l.offset.natAbs < 10 ^ k

/-- Reading a name gives no longer numbers than the numerals in it. -/
theorem yields_location {name : String} (hname : Brief k name.toList)
    (hk : k ≤ max n maxDigits) :
    Yields n (fun l? => ∀ l ∈ l?, Location.Below k l) (location name) := by
  unfold location
  cases hs : Spelling.ofText? name.toList with
  | none =>
    intro l hl
    cases hl
  | some s =>
    obtain ⟨frame, negative, digits⟩ := s
    obtain ⟨hframe, hdigits⟩ := Spelling.ofText?_eq_some hs
    have hoffset := yields_readSigned negative hdigits hname hk
    cases frame with
    | none =>
      cases hz : readSigned negative digits with
      | error fault => simpa [hz] using hoffset.of_error hz
      | ok z =>
        simp only [hz]
        rintro l ⟨⟩
        exact ⟨by simp, hoffset.of_ok hz⟩
    | some ds =>
      have hread := yields_read (n := n) (hframe ds rfl) hname hk
      cases hi : read ds with
      | error fault => simpa [hi] using hread.of_error hi
      | ok i =>
        cases hz : readSigned negative digits with
        | error fault => simpa [hi, hz] using hoffset.of_error hz
        | ok z =>
          simp only [hi, hz]
          rintro l ⟨⟩
          refine ⟨?_, hoffset.of_ok hz⟩
          rintro j ⟨⟩
          exact hread.of_ok hi

end Slot
end VerifierTrace
