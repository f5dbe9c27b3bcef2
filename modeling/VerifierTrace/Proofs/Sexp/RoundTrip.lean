import VerifierTrace.Proofs.Sexp.Pieces

/-!
# VerifierTrace.Proofs.Sexp.RoundTrip

S-expressions that are read back as they were written.

* `Sexp.Readable P Q n e`: all symbols of `e` are bare, the characters of its texts are of `P` and its
  numbers of `Q`, and its lists lie at most `n` deep in each other.
* `Sexp.Readable.load_chars`: such an expression is read back, symbols as their names, if its numbers
  are not too long to be written.
* `Sexp.splitOn_writeLines`: expressions that are written one a line are found again on the lines.
-/

namespace VerifierTrace
namespace Sexp

/-- The symbols are bare, the characters of the texts are of `P` and the numbers of `Q`, and lists lie
at most so deep in each other. -/
inductive Readable (P : Char → Prop) (Q : Int → Prop) : Nat → Sexp → Prop where
  | symbol {n : Nat} {name : String} : isBare name.toList = true → Readable P Q n (.symbol name)
  | text {n : Nat} {s : String} : (∀ c ∈ s.toList, P c) → Readable P Q n (.text s)
  | number {n : Nat} {z : Int} : Q z → Readable P Q n (.number z)
  | list {n : Nat} {items : List Sexp} :
      (∀ e ∈ items, Readable P Q n e) → Readable P Q (n + 1) (.list items)

variable {P : Char → Prop} {Q : Int → Prop} {n : Nat} {e : Sexp} {es : List Sexp}
  {free : Nat} {awaited rest tail : List Char} {items : List Datum}

theorem reads_spelled {atom : List Char} (hne : atom ≠ [])
    (hatom : ∀ c ∈ atom, Text.isPrintableAscii c = true) (hstop : Stops rest)
    (hrest : Reads rest items tail) :
    Reads (atom.flatMap escapeSymbol ++ rest) (ofAtom atom :: items) tail := by
  obtain ⟨d, ds, hspelled, hd⟩ := flatMap_escapeSymbol_eq_cons hne hatom
  have hread := readAtom_append hstop hatom
  rw [hspelled, List.cons_append] at hread ⊢
  exact reads_atom hd hread (by simp) hrest

theorem roomy_spelled {atom : List Char} (hne : atom ≠ [])
    (hatom : ∀ c ∈ atom, Text.isPrintableAscii c = true) (hstop : Stops rest)
    (hrest : Roomy free awaited rest) :
    Roomy free awaited (atom.flatMap escapeSymbol ++ rest) := by
  obtain ⟨d, ds, hspelled, hd⟩ := flatMap_escapeSymbol_eq_cons hne hatom
  have hread := readAtom_append hstop hatom
  rw [hspelled, List.cons_append] at hread ⊢
  exact roomy_atom hd hread hrest

/-- In front of a text that is read, the expression comes first of what is read. -/
def Leads (e : Sexp) : Prop :=
  ∀ {rest tail more}, Stops rest → Reads rest more tail →
    Reads (e.chars ++ rest) (e.plain :: more) tail

/-- In front of a text, the expression opens no more than `n` brackets at once. -/
def Nests (n : Nat) (e : Sexp) : Prop :=
  ∀ {rest awaited free}, Stops rest → n ≤ free → Roomy free awaited rest →
    Roomy free awaited (e.chars ++ rest)

theorem stops_close : Stops (')' :: rest) := stops_cons (by decide)

theorem stops_space : Stops (' ' :: rest) := stops_cons (by decide)

theorem chars_text_append (s : String) (rest : List Char) :
    (text s).chars ++ rest = '"' :: s.toList.flatMap escapeText ++ '"' :: rest := by
  simp [chars]

theorem chars_list_append (es : List Sexp) (rest : List Char) :
    (list es).chars ++ rest = '(' :: (spaced (itemChars es) ++ ')' :: rest) := by
  simp [chars]

theorem spaced_cons_cons_append (e e' : Sexp) (es : List Sexp) (rest : List Char) :
    spaced (itemChars (e :: e' :: es)) ++ rest =
      e.chars ++ ' ' :: (spaced (itemChars (e' :: es)) ++ rest) := by
  simp [itemChars, spaced]

theorem reads_members (h : ∀ e ∈ es, Leads e) :
    Reads (spaced (itemChars es) ++ ')' :: rest) (plainItems es) (')' :: rest) := by
  induction es with
  | nil => exact reads_close
  | cons e es ih =>
    have he : Leads e := h e (by simp)
    cases es with
    | nil => exact he stops_close reads_close
    | cons e' es =>
      rw [spaced_cons_cons_append]
      exact he stops_space (reads_space (ih fun x hx => h x (List.mem_cons_of_mem e hx)))

theorem roomy_members (h : ∀ e ∈ es, Nests n e) (hn : n ≤ free)
    (hrest : Roomy (free + 1) awaited rest) :
    Roomy free (')' :: awaited) (spaced (itemChars es) ++ ')' :: rest) := by
  induction es with
  | nil => exact roomy_close hrest
  | cons e es ih =>
    have he : Nests n e := h e (by simp)
    cases es with
    | nil => exact he stops_close hn (roomy_close hrest)
    | cons e' es =>
      rw [spaced_cons_cons_append]
      exact he stops_space hn (roomy_space (ih fun x hx => h x (List.mem_cons_of_mem e hx)))

theorem depthOfItems_plainItems_le (h : ∀ e ∈ es, e.plain.depth ≤ n) :
    Datum.depthOfItems (plainItems es) ≤ n := by
  induction es with
  | nil => exact Nat.zero_le n
  | cons e es ih =>
    exact Nat.max_le.mpr ⟨h e (by simp), ih fun x hx => h x (List.mem_cons_of_mem e hx)⟩

theorem isPrintableAscii_of_mem_escapeSymbol {c d : Char} (hd : Text.isPrintableAscii d = true)
    (hc : c ∈ escapeSymbol d) : Text.isPrintableAscii c = true := by
  unfold escapeSymbol at hc
  split at hc
  · rcases List.mem_pair.mp hc with rfl | rfl
    · rfl
    · exact hd
  · rw [List.mem_singleton.mp hc]
    exact hd

theorem mem_escapeText {c d : Char} (hc : c ∈ escapeText d) :
    Text.isPrintableAscii c = true ∨ (c = d ∧ c ≠ '\n') := by
  have hpair : ∀ x : Char, Text.isPrintableAscii x = true → c ∈ ['\\', x] →
      Text.isPrintableAscii c = true := by
    intro x hx hmem
    rcases List.mem_pair.mp hmem with rfl | rfl
    · rfl
    · exact hx
  unfold escapeText at hc
  split at hc
  · next hquoted =>
    refine .inl (hpair d ?_ hc)
    rcases hquoted with rfl | rfl <;> rfl
  · split at hc
    · exact .inl (hpair 'n' rfl hc)
    · next hfeed =>
      split at hc
      · exact .inl (hpair 'r' rfl hc)
      · split at hc
        · exact .inl (hpair 't' rfl hc)
        · split at hc
          · exact .inl (hpair 'b' rfl hc)
          · split at hc
            · exact .inl (hpair 'f' rfl hc)
            · rw [List.mem_singleton.mp hc]
              exact .inr ⟨rfl, hfeed⟩

theorem mem_spaced {c : Char} (hc : c ∈ spaced (itemChars es)) :
    c = ' ' ∨ ∃ e ∈ es, c ∈ e.chars := by
  induction es with
  | nil => cases hc
  | cons e es ih =>
    cases es with
    | nil => exact .inr ⟨e, by simp, hc⟩
    | cons e' es =>
      rw [← List.append_nil (spaced _), spaced_cons_cons_append, List.append_nil] at hc
      rcases List.mem_append.mp hc with hc | hc
      · exact .inr ⟨e, by simp, hc⟩
      · rcases List.mem_cons.mp hc with rfl | hc
        · exact .inl rfl
        · rcases ih hc with rfl | ⟨x, hx, hc⟩
          · exact .inl rfl
          · exact .inr ⟨x, List.mem_cons_of_mem e hx, hc⟩

namespace Readable

theorem leads (h : Readable P Decimal.Writable n e) : Leads e := by
  induction h with
  | symbol hbare =>
    obtain ⟨hne, hname, -⟩ := isBare_iff.mp hbare
    intro rest tail more hstop hrest
    have hread := reads_spelled hne hname hstop hrest
    rw [ofAtom_of_isBare hbare, String.ofList_toList] at hread
    exact hread
  | @text n s _ =>
    intro rest tail more _ hrest
    have hread := reads_text s.toList hrest
    rw [String.ofList_toList] at hread
    rw [chars_text_append]
    exact hread
  | @number n z hz =>
    intro rest tail more hstop hrest
    have hread := reads_spelled (Text.toString_ne_nil z)
      (fun c hc => Text.isPrintableAscii_of_mem_toString hc) hstop hrest
    rw [ofAtom_toString hz, flatMap_escapeSymbol_toString] at hread
    exact hread
  | list _ ih =>
    intro rest tail more _ hrest
    rw [chars_list_append]
    refine reads_list (reads_members ih) ?_ hrest
    rw [List.length_append, List.length_cons]
    omega

theorem nests (h : Readable P Q n e) : Nests n e := by
  induction h with
  | symbol hbare =>
    obtain ⟨hne, hname, -⟩ := isBare_iff.mp hbare
    intro rest awaited free hstop _ hrest
    exact roomy_spelled hne hname hstop hrest
  | @text n s _ =>
    intro rest awaited free _ _ hrest
    rw [chars_text_append]
    exact roomy_text s.toList hrest
  | @number n z _ =>
    intro rest awaited free hstop _ hrest
    have hroomy := roomy_spelled (Text.toString_ne_nil z)
      (fun c hc => Text.isPrintableAscii_of_mem_toString hc) hstop hrest
    rw [flatMap_escapeSymbol_toString] at hroomy
    exact hroomy
  | @list n items _ ih =>
    intro rest awaited free _ hn hrest
    rw [chars_list_append]
    cases free with
    | zero => cases hn
    | succ free => exact roomy_list (roomy_members ih (Nat.le_of_succ_le_succ hn) hrest)

theorem depth_plain_le (h : Readable P Q n e) : e.plain.depth ≤ n := by
  induction h with
  | symbol | text | number => exact Nat.zero_le _
  | list _ ih => exact Nat.succ_le_succ (depthOfItems_plainItems_le ih)

/-- An expression is read back, symbols as their names. -/
theorem load_chars (h : Readable P Decimal.Writable n e) (hn : n ≤ maxDepth) :
    load e.chars = .ok e.plain := by
  have hroomy : overfull (e.chars.length + 1) maxOpen [] e.chars = false := by
    have hfree : n ≤ maxOpen := Nat.le_trans hn (by decide)
    have hempty : Roomy maxOpen [] [] := roomy_nil
    have hnests := h.nests stops_nil hfree hempty
    rw [List.append_nil] at hnests
    exact hnests _
  have hread : readItems (e.chars.length + 1) e.chars = .ok ([e.plain], []) := by
    have hleads := h.leads stops_nil reads_nil
    rw [List.append_nil] at hleads
    exact hleads _ (Nat.lt_succ_self _)
  have hdepth : ¬ maxDepth < e.plain.depth := Nat.not_lt.mpr (Nat.le_trans h.depth_plain_le hn)
  rw [load, hroomy, if_neg Bool.false_ne_true, read, hread]
  simp only
  rw [if_neg hdepth]

/-- Texts have the characters of `P` that need no backslash, all else is printable ASCII. -/
theorem mem_chars (h : Readable P Q n e) {c : Char} (hc : c ∈ e.chars) :
    Text.isPrintableAscii c = true ∨ (P c ∧ c ≠ '\n') := by
  induction h with
  | symbol hbare =>
    obtain ⟨-, hname, -⟩ := isBare_iff.mp hbare
    obtain ⟨d, hd, hc⟩ := List.mem_flatMap.mp hc
    exact .inl (isPrintableAscii_of_mem_escapeSymbol (hname d hd) hc)
  | text htext =>
    rw [← List.append_nil (chars _), chars_text_append, List.cons_append] at hc
    rcases List.mem_cons.mp hc with rfl | hc
    · exact .inl rfl
    · rcases List.mem_append.mp hc with hc | hc
      · obtain ⟨d, hd, hc⟩ := List.mem_flatMap.mp hc
        rcases mem_escapeText hc with hc | ⟨rfl, hne⟩
        · exact .inl hc
        · exact .inr ⟨htext c hd, hne⟩
      · rw [List.mem_singleton.mp hc]
        exact .inl rfl
  | number => exact .inl (Text.isPrintableAscii_of_mem_toString hc)
  | list _ ih =>
    rw [← List.append_nil (chars _), chars_list_append] at hc
    rcases List.mem_cons.mp hc with rfl | hc
    · exact .inl rfl
    · rcases List.mem_append.mp hc with hc | hc
      · rcases mem_spaced hc with rfl | ⟨e, he, hc⟩
        · exact .inl rfl
        · exact ih e he hc
      · rw [List.mem_singleton.mp hc]
        exact .inl rfl

theorem feed_not_mem_chars (h : Readable P Q n e) : '\n' ∉ e.chars := by
  intro hmem
  rcases h.mem_chars hmem with hc | ⟨-, hc⟩
  · exact absurd hc (by decide)
  · exact hc rfl

end Readable

/-! ## Expressions on lines -/

theorem toList_writeLines (es : List Sexp) :
    (writeLines es).toList = ['\n'].intercalate (es.map chars) := by
  rw [writeLines, String.toList_intercalate, List.map_map]
  congr 1
  refine List.map_congr_left fun e _ => ?_
  exact String.toList_ofList

theorem splitOn_writeLines (hne : es ≠ []) (h : ∀ e ∈ es, Readable P Q n e) :
    (writeLines es).toList.splitOn '\n' = es.map chars := by
  rw [toList_writeLines, List.splitOn_intercalate]
  · intro cs hcs
    obtain ⟨e, he, rfl⟩ := List.mem_map.mp hcs
    exact (h e he).feed_not_mem_chars
  · simpa using hne

end Sexp
end VerifierTrace
