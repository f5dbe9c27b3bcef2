import Mathlib.Data.List.Basic
import VerifierTrace.Proofs.Numeral.Written
import VerifierTrace.Sexp.Reader

/-!
# VerifierTrace.Proofs.Sexp.Pieces

The pieces of an S-expression, in front of a text.

What is written of a symbol, a number, a text or a list is read up to what follows it: an atom ends
before a space or a bracket (`Stops`), a text at the quote that is not behind a backslash, and a list
at its own bracket. `Reads` and `Roomy` say what the reader and the test of its depth make of a text
whatever the fuel, so the pieces of a text are put together without counting it.

* `Sexp.isBare`: a symbol whose name is read back as that name, and not as a number, as `nil` or as
  `t`.
* `readAtom_append`, `readText_append`: no character of an atom or of a text is lost.
* `reads_…`, `roomy_…`: one lemma of each kind for each piece.
-/

namespace VerifierTrace
namespace Sexp

/-! ## Atoms and texts -/

/-- Whether a symbol is written in printable ASCII and stands for its name when it is read. -/
def isBare (name : List Char) : Bool :=
  !name.isEmpty && name.all Text.isPrintableAscii && name != ['n', 'i', 'l'] && name != ['t'] &&
    (Numeral.decimal? name).isNone

theorem isBare_iff {name : List Char} : isBare name = true ↔
    name ≠ [] ∧ (∀ c ∈ name, Text.isPrintableAscii c = true) ∧ name ≠ ['n', 'i', 'l'] ∧
      name ≠ ['t'] ∧ Numeral.decimal? name = none := by
  simp [isBare, and_assoc]

theorem ofAtom_of_isBare {name : List Char} (h : isBare name = true) :
    ofAtom name = .text (String.ofList name) := by
  obtain ⟨-, -, hnil, htruth, hdecimal⟩ := isBare_iff.mp h
  rw [ofAtom, if_neg hnil, if_neg htruth, hdecimal]

theorem ofAtom_toString {z : Int} (hz : Decimal.Writable z) :
    ofAtom (toString z).toList = .number z := by
  have hdecimal := Numeral.decimal?_toString hz
  have hne : ∀ name, Numeral.decimal? name = none → (toString z).toList ≠ name := by
    rintro name hname rfl
    rw [hname] at hdecimal
    cases hdecimal
  rw [ofAtom, if_neg (hne _ (by decide)), if_neg (hne _ (by decide)), hdecimal]

/-- The text does not go on with a character of an atom. -/
def Stops (cs : List Char) : Prop := ∀ c ∈ cs.head?, endsAtom c = true

theorem stops_nil : Stops [] := by
  intro c hc
  cases hc

theorem stops_cons {c : Char} {cs : List Char} (h : endsAtom c = true) : Stops (c :: cs) := by
  rintro d ⟨⟩
  exact h

theorem endsAtom_of_isPrintableAscii {c : Char} (h : Text.isPrintableAscii c = true)
    (hspecial : isSpecial c = false) : endsAtom c = false := by
  obtain ⟨hlow, -⟩ := Text.isPrintableAscii_iff.mp h
  simp only [isSpecial, List.contains_cons, List.contains_nil, Bool.or_false, Bool.or_eq_false_iff,
    beq_eq_false_iff_ne] at hspecial
  simp only [endsAtom, isSpace, List.contains_cons, List.contains_nil, Bool.or_false,
    Bool.or_eq_false_iff, decide_eq_false_iff_not, beq_eq_false_iff_ne, Bool.and_eq_false_iff]
  refine ⟨⟨by simp_all, .inr (by omega)⟩, ?_⟩
  simp_all

theorem readAtom_stop {rest : List Char} (hrest : Stops rest) : readAtom rest = some ([], rest) := by
  cases rest with
  | nil => rfl
  | cons c cs =>
    have hc : endsAtom c = true := hrest c rfl
    have hback : c ≠ '\\' := by
      rintro rfl
      revert hc
      decide
    rw [readAtom.eq_4 _ _ (fun h _ => hback h) (fun _ _ h _ => hback h), if_pos hc]

theorem readAtom_append {name rest : List Char} (hrest : Stops rest)
    (h : ∀ c ∈ name, Text.isPrintableAscii c = true) :
    readAtom (name.flatMap escapeSymbol ++ rest) = some (name, rest) := by
  induction name with
  | nil => exact readAtom_stop hrest
  | cons c name ih =>
    have hname := ih fun d hd => h d (List.mem_cons_of_mem c hd)
    rw [List.flatMap_cons, List.append_assoc]
    by_cases hspecial : isSpecial c = true
    · rw [escapeSymbol, if_pos hspecial]
      show readAtom ('\\' :: c :: (name.flatMap escapeSymbol ++ rest)) = _
      rw [readAtom, hname, if_pos hspecial]
      rfl
    · have hplain : isSpecial c = false := by simpa using hspecial
      have hends := endsAtom_of_isPrintableAscii (h c (by simp)) hplain
      have hback : c ≠ '\\' := by
        rintro rfl
        exact hspecial (by decide)
      rw [escapeSymbol, if_neg hspecial]
      show readAtom (c :: (name.flatMap escapeSymbol ++ rest)) = _
      rw [readAtom.eq_4 _ _ (fun h _ => hback h) (fun _ _ h _ => hback h), hname, hends]
      rfl

theorem escapeSymbol_of_toNat {c : Char} (hlow : 45 ≤ c.toNat) (hhigh : c.toNat ≤ 57) :
    escapeSymbol c = [c] := by
  have hall : ∀ i < 58, 45 ≤ i → isSpecial (Char.ofNat i) = false := by decide
  have hspecial := hall c.toNat (Nat.lt_succ_of_le hhigh) hlow
  rw [Char.ofNat_toNat] at hspecial
  rw [escapeSymbol, hspecial]
  rfl

theorem flatMap_escapeSymbol_toString (z : Int) :
    (toString z).toList.flatMap escapeSymbol = (toString z).toList := by
  have hplain : ∀ cs : List Char, (∀ c ∈ cs, 45 ≤ c.toNat ∧ c.toNat ≤ 57) →
      cs.flatMap escapeSymbol = cs := by
    intro cs hcs
    induction cs with
    | nil => rfl
    | cons c cs ih =>
      obtain ⟨hlow, hhigh⟩ := hcs c (by simp)
      rw [List.flatMap_cons, escapeSymbol_of_toNat hlow hhigh,
        ih fun d hd => hcs d (List.mem_cons_of_mem c hd)]
      rfl
  exact hplain _ fun c hc => Text.toNat_of_mem_toString hc

/-- The characters of a text are read back up to the quote that ends it. -/
theorem readText_append (s rest : List Char) :
    readText (s.flatMap escapeText ++ '"' :: rest) = some (s, rest) := by
  induction s with
  | nil => rfl
  | cons c s ih =>
    rw [List.flatMap_cons, List.append_assoc]
    have hescaped : ∀ d : Char, unescapeText d = [c] →
        readText ('\\' :: d :: (s.flatMap escapeText ++ '"' :: rest)) = some (c :: s, rest) := by
      intro d hd
      rw [readText, ih, Option.map_some, hd]
      rfl
    unfold escapeText
    split
    · next h => exact hescaped c (by rw [unescapeText, if_pos h])
    · next hquoted =>
      rw [not_or] at hquoted
      split
      · next h => exact hescaped 'n' (by rw [h]; decide)
      · split
        · next h => exact hescaped 'r' (by rw [h]; decide)
        · split
          · next h => exact hescaped 't' (by rw [h]; decide)
          · split
            · next h =>
              have hc : c = '\x08' := Char.toNat_inj.mp h
              exact hescaped 'b' (by rw [hc]; decide)
            · split
              · next h =>
                have hc : c = '\x0c' := Char.toNat_inj.mp h
                exact hescaped 'f' (by rw [hc]; decide)
              · show readText (c :: (s.flatMap escapeText ++ '"' :: rest)) = _
                rw [readText.eq_5 _ _ (fun h => hquoted.2 h) (fun h _ => hquoted.1 h)
                  (fun _ _ h _ => hquoted.1 h), ih]
                rfl

/-! ## Pieces of a text

What the reader makes of a text, and whether too many brackets are open in it, whatever the fuel. -/

/-- With enough fuel, the text is read as `items` up to `tail`. -/
def Reads (cs : List Char) (items : List Datum) (tail : List Char) : Prop :=
  ∀ fuel, cs.length < fuel → readItems fuel cs = .ok (items, tail)

/-- No more than `free` brackets are opened beside those that are open. -/
def Roomy (free : Nat) (awaited cs : List Char) : Prop :=
  ∀ fuel, overfull fuel free awaited cs = false

variable {free : Nat} {awaited cs rest tail : List Char} {items more : List Datum}

theorem reads_nil : Reads [] [] [] := by
  intro fuel hfuel
  cases fuel with
  | zero => cases hfuel
  | succ fuel => rfl

theorem roomy_nil : Roomy free awaited [] := by
  intro fuel
  cases fuel with
  | zero => rfl
  | succ fuel => rfl

theorem reads_close : Reads (')' :: rest) [] (')' :: rest) := by
  intro fuel hfuel
  cases fuel with
  | zero => cases hfuel
  | succ fuel => rfl

theorem roomy_close (h : Roomy (free + 1) awaited rest) : Roomy free (')' :: awaited) (')' :: rest) := by
  intro fuel
  cases fuel with
  | zero => rfl
  | succ fuel => exact h fuel

theorem reads_space (h : Reads rest items tail) : Reads (' ' :: rest) items tail := by
  intro fuel hfuel
  cases fuel with
  | zero => cases hfuel
  | succ fuel => exact h fuel (Nat.lt_of_succ_lt_succ hfuel)

theorem roomy_space (h : Roomy free awaited rest) : Roomy free awaited (' ' :: rest) := by
  intro fuel
  cases fuel with
  | zero => rfl
  | succ fuel => exact h fuel

theorem reads_text (s : List Char) (h : Reads rest items tail) :
    Reads ('"' :: s.flatMap escapeText ++ '"' :: rest) (.text (String.ofList s) :: items) tail := by
  intro fuel hfuel
  cases fuel with
  | zero => cases hfuel
  | succ fuel =>
    simp only [List.cons_append, List.length_cons, List.length_append] at hfuel
    rw [List.cons_append, readItems, if_pos rfl, readText_append]
    simp only
    rw [h fuel (by omega)]
    rfl

theorem roomy_text (s : List Char) (h : Roomy free awaited rest) :
    Roomy free awaited ('"' :: s.flatMap escapeText ++ '"' :: rest) := by
  intro fuel
  cases fuel with
  | zero => rfl
  | succ fuel =>
    rw [List.cons_append, overfull.eq_def]
    simp only [if_pos, readText_append]
    exact h fuel

theorem reads_list (h : Reads cs items (')' :: rest)) (hlen : rest.length < cs.length)
    (hrest : Reads rest more tail) : Reads ('(' :: cs) (.list items :: more) tail := by
  intro fuel hfuel
  cases fuel with
  | zero => cases hfuel
  | succ fuel =>
    have hcs := Nat.lt_of_succ_lt_succ hfuel
    have hclose : closing? '(' = some ')' := rfl
    rw [readItems, if_neg (by decide), if_neg (by decide), if_neg (by decide), if_neg (by decide),
      hclose, h fuel hcs]
    simp only
    rw [if_pos trivial, hrest fuel (by omega)]
    rfl

theorem roomy_list (h : Roomy free (')' :: awaited) cs) : Roomy (free + 1) awaited ('(' :: cs) := by
  intro fuel
  cases fuel with
  | zero => rfl
  | succ fuel => exact h fuel

theorem of_endsAtom_eq_false {d : Char} (h : endsAtom d = false) :
    d ≠ '"' ∧ isSpace d = false ∧ d ≠ ';' ∧ ¬ (d = ')' ∨ d = ']') ∧ closing? d = none := by
  simp only [endsAtom, List.contains_cons, List.contains_nil, Bool.or_false, Bool.or_eq_false_iff,
    beq_eq_false_iff_ne] at h
  obtain ⟨hspace, hopen, hclose, hsquare, hsquare', hquote, hcomment⟩ := h
  refine ⟨hquote, hspace, hcomment, not_or.mpr ⟨hclose, hsquare'⟩, ?_⟩
  unfold closing?
  split
  · exact absurd rfl hopen
  · exact absurd rfl hsquare
  · rfl

theorem reads_atom {d : Char} {ds atom : List Char} (hd : endsAtom d = false)
    (hatom : readAtom (d :: ds) = some (atom, rest)) (hlen : rest.length ≤ ds.length)
    (h : Reads rest items tail) : Reads (d :: ds) (ofAtom atom :: items) tail := by
  obtain ⟨hquote, hspace, hcomment, hclose, hopen⟩ := of_endsAtom_eq_false hd
  intro fuel hfuel
  cases fuel with
  | zero => cases hfuel
  | succ fuel =>
    have hds := Nat.lt_of_succ_lt_succ hfuel
    rw [readItems, if_neg hquote, hspace, if_neg Bool.false_ne_true, if_neg hcomment,
      if_neg hclose, hopen, hatom]
    simp only
    rw [h fuel (by omega)]
    rfl

theorem roomy_atom {d : Char} {ds atom : List Char} (hd : endsAtom d = false)
    (hatom : readAtom (d :: ds) = some (atom, rest)) (h : Roomy free awaited rest) :
    Roomy free awaited (d :: ds) := by
  obtain ⟨hquote, hspace, hcomment, hclose, hopen⟩ := of_endsAtom_eq_false hd
  intro fuel
  cases fuel with
  | zero => rfl
  | succ fuel =>
    unfold overfull
    rw [if_neg hquote, hspace, if_neg Bool.false_ne_true, if_neg hcomment, if_neg hclose, hopen]
    simp only
    rw [hatom]
    exact h fuel

/-- What is written of a symbol begins an atom. -/
theorem flatMap_escapeSymbol_eq_cons {name : List Char} (hne : name ≠ [])
    (h : ∀ c ∈ name, Text.isPrintableAscii c = true) :
    ∃ d ds, name.flatMap escapeSymbol = d :: ds ∧ endsAtom d = false := by
  cases name with
  | nil => exact absurd rfl hne
  | cons c name =>
    rw [List.flatMap_cons, escapeSymbol]
    by_cases hspecial : isSpecial c = true
    · rw [if_pos hspecial]
      exact ⟨'\\', _, rfl, rfl⟩
    · rw [if_neg hspecial]
      refine ⟨c, _, rfl, endsAtom_of_isPrintableAscii (h c (by simp)) ?_⟩
      simpa using hspecial

end Sexp
end VerifierTrace
