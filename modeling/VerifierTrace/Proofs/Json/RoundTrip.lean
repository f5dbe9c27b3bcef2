import Mathlib.Data.List.TakeWhile
import VerifierTrace.Proofs.Json.Quoted
import VerifierTrace.Proofs.Numeral.Written
import VerifierTrace.Proofs.Table

/-!
# VerifierTrace.Proofs.Json.RoundTrip

JSON documents that are read back as they were written.

What is written of a part is read up to what may follow it, a comma or white space (`Ends`): a
number goes no further, and a text, a list and an object have a closing mark of their own. No part
begins with white space or with a closing mark (`Begins`), so the line feed and the spaces in front
of it are skipped and it is not taken for the end of the list or of the object that it is in.

* `Json.Readable n j`: the documents that are read back. Not among them are texts with halves of
  surrogate pairs, which can come together to characters, and numbers that are not integers.
* `Json.Readable.read_append`: such a document is read back, with white space behind its text.
-/

namespace VerifierTrace
namespace Json

variable {c : Char} {cs rest behind tail : List Char} {depth : Nat}

/-! ## White space -/

theorem skipSpaces_of_head (h : ∀ c ∈ cs.head?, isSpace c = false) : skipSpaces cs = cs := by
  cases cs with
  | nil => rfl
  | cons c cs => exact List.dropWhile_cons_of_neg (by simp [h c rfl])

theorem skipSpaces_newline (n : Nat) (cs : List Char) :
    skipSpaces ((newline n).toList ++ cs) = skipSpaces cs := by
  refine List.dropWhile_append_of_pos ?_
  rw [newline, String.toList_ofList, List.forall_mem_cons]
  refine ⟨rfl, fun c hc => ?_⟩
  rw [List.eq_of_mem_replicate hc]
  rfl

/-! ## Numbers -/

/-- What may follow a part of a document. -/
def Ends (cs : List Char) : Prop := ∀ c ∈ cs.head?, c = ',' ∨ isSpace c = true

theorem ends_cons (h : c = ',' ∨ isSpace c = true) : Ends (c :: cs) := by
  rintro d ⟨⟩
  exact h

theorem Ends.apart (h : Ends cs) :
    ∀ c ∈ cs.head?, c.isDigit = false ∧ c ≠ '.' ∧ c ≠ 'e' ∧ c ≠ 'E' := by
  intro c hc
  rcases h c hc with rfl | hspace
  · decide
  · simp only [isSpace, Bool.or_eq_true, decide_eq_true_eq] at hspace
    rcases hspace with ((rfl | rfl) | rfl) | rfl <;> decide

/-- Only zero is written with a zero in front. -/
theorem ne_zero_of_mem_head?_toDigits {n : Nat} (h : 0 < n) :
    ∀ c ∈ (Nat.toDigits 10 n).head?, c ≠ '0' := by
  induction n using Nat.strongRecOn with
  | ind n ih =>
    by_cases hn : n < 10
    · have hall : ∀ d < 10, 0 < d → Nat.digitChar d ≠ '0' := by decide
      rw [Nat.toDigits_of_lt_base hn]
      rintro c ⟨⟩
      exact hall n hn h
    · intro c hc
      rw [Nat.toDigits_of_base_le (by decide) (by omega),
        List.head?_append_of_ne_nil _ Nat.toDigits_ne_nil] at hc
      exact ih (n / 10) (by omega) (by omega) c hc

theorem wholeDigits?_append (n : Nat) (hrest : Ends rest) :
    wholeDigits? (Nat.toDigits 10 n ++ rest) = some (Nat.toDigits 10 n, rest) := by
  cases n with
  | zero => rfl
  | succ n =>
    have hrun := Decimal.run?_toDigits_append (n := n + 1) fun c hc => (hrest.apart c hc).1
    unfold wholeDigits?
    split
    · next more heq =>
      obtain ⟨d, ds, hds⟩ := List.exists_cons_of_ne_nil (Nat.toDigits_ne_nil (b := 10) (n := n + 1))
      have hd := ne_zero_of_mem_head?_toDigits (Nat.succ_pos n) d (by rw [hds]; rfl)
      rw [hds] at heq
      exact absurd (List.cons.inj heq).1 hd
    · exact hrun

theorem fraction_of_ends (h : Ends rest) : fraction rest = ([], rest) := by
  unfold fraction
  split
  · exact absurd rfl (h.apart '.' rfl).2.1
  · rfl

theorem exponent_of_ends (h : Ends rest) : exponent rest = ([], rest) := by
  unfold exponent
  split
  · next c more =>
    obtain ⟨-, -, hlower, hupper⟩ := h.apart c rfl
    exact if_neg (not_or.mpr ⟨hlower, hupper⟩)
  · rfl

theorem readSigned_toDigits {z : Int} (hz : Decimal.Writable z) :
    Decimal.readSigned (decide (z < 0)) (Nat.toDigits 10 z.natAbs) = .ok z := by
  have hlen : (Nat.toDigits 10 z.natAbs).length ≤ Decimal.maxDigits :=
    (Nat.length_toDigits_le_iff (by decide) (by decide)).mpr hz
  rw [Decimal.readSigned, Decimal.read, if_pos hlen, Decimal.value_toDigits]
  refine congrArg Except.ok ?_
  by_cases hneg : z < 0
  · simp only [hneg, decide_true, if_true]
    omega
  · simp only [hneg, decide_false, Bool.false_eq_true, if_false]
    omega

theorem readScalar_digit (hc : c.isDigit = true) : readScalar (c :: cs) = readNumber (c :: cs) := by
  rw [readScalar.eq_7]
  all_goals
    rintro more ⟨⟩
    revert hc
    decide

theorem readScalar_minus (hc : c.isDigit = true) :
    readScalar ('-' :: c :: cs) = readNumber ('-' :: c :: cs) := by
  rw [readScalar.eq_7]
  all_goals
    intro more h
    simp only [List.cons.injEq, Char.reduceEq, false_and] at h
  rw [h.2.1] at hc
  revert hc
  decide

/-- A number is read up to what follows it, and it is not taken for a word. -/
theorem readScalar_toString {z : Int} (hz : Decimal.Writable z) (hrest : Ends rest) :
    readScalar ((toString z).toList ++ rest) = .ok (.int z, rest) := by
  have hread := readSigned_toDigits hz
  have hwhole := wholeDigits?_append z.natAbs hrest
  have hfraction := fraction_of_ends hrest
  have hexponent := exponent_of_ends hrest
  obtain ⟨d, ds, hds⟩ := List.exists_cons_of_ne_nil (Nat.toDigits_ne_nil (b := 10) (n := z.natAbs))
  have hd : d.isDigit = true := Decimal.isDigit_of_mem_toDigits d (by rw [hds]; simp)
  rw [Slot.toList_toString_int, hds]
  rw [hds] at hread hwhole
  rw [List.cons_append] at hwhole
  by_cases hneg : z < 0
  · rw [if_pos hneg]
    rw [decide_eq_true hneg] at hread
    show readScalar ('-' :: d :: (ds ++ rest)) = _
    rw [readScalar_minus hd, readNumber, hwhole]
    simp only [hfraction, hexponent, hread, List.isEmpty_nil, Bool.and_self, if_true]
  · rw [if_neg hneg, List.nil_append]
    rw [decide_eq_false hneg] at hread
    have hminus : ∀ more, d :: (ds ++ rest) = '-' :: more → False := by
      rintro more ⟨⟩
      revert hd
      decide
    show readScalar (d :: (ds ++ rest)) = _
    rw [readScalar_digit hd, readNumber.eq_2 _ hminus, hwhole]
    simp only [hfraction, hexponent, hread, List.isEmpty_nil, Bool.and_self, if_true]

/-! ## Parts of a text

What the reader makes of a text whatever the fuel. Items and members are told by the one that comes
last and by one with others behind it. -/

/-- With enough fuel, the text is read as a document up to `tail`. -/
def Reads (depth : Nat) (cs : List Char) (j : Json) (tail : List Char) : Prop :=
  ∀ fuel, cs.length < fuel → readValue depth fuel cs = .ok (j, tail)

def ReadsItems (depth : Nat) (cs : List Char) (items : List Json) (tail : List Char) : Prop :=
  ∀ fuel, cs.length + 1 < fuel → readItems depth fuel cs = .ok (items, tail)

def ReadsMembers (depth : Nat) (cs : List Char) (members : List (WideText × Json))
    (tail : List Char) : Prop :=
  ∀ fuel, cs.length + 1 < fuel → readMembers depth fuel cs = .ok (members, tail)

variable {j : Json} {items : List Json} {members : List (WideText × Json)} {next : List Char}

theorem reads_quoted (s : String) (rest : List Char) :
    Reads depth ('"' :: (s.toList.flatMap escape ++ '"' :: rest)) (.text (.plain s)) rest := by
  intro fuel hfuel
  cases fuel with
  | zero => cases hfuel
  | succ fuel =>
    rw [readValue, readText_append]
    rfl

/-- Words and numbers begin with none of the marks of the other documents. -/
theorem reads_scalar (h : readScalar (c :: cs) = .ok (j, tail)) (hquote : c ≠ '"') (hlist : c ≠ '[')
    (hobject : c ≠ '\x7b') : Reads depth (c :: cs) j tail := by
  intro fuel hfuel
  cases fuel with
  | zero => cases hfuel
  | succ fuel =>
    rw [readValue.eq_7, h]
    · rintro rest ⟨⟩
      exact hquote rfl
    · rintro rest ⟨⟩
      exact hlist rfl
    · rintro rest ⟨⟩
      exact hobject rfl

theorem readsItems_last (h : Reads depth cs j rest) (hclose : skipSpaces rest = ']' :: tail) :
    ReadsItems depth cs [j] tail := by
  intro fuel hfuel
  cases fuel with
  | zero => cases hfuel
  | succ fuel =>
    rw [readItems, h fuel (Nat.lt_of_succ_lt_succ hfuel)]
    simp only [hclose]

theorem readsItems_cons (h : Reads depth cs j rest) (hcomma : skipSpaces rest = ',' :: behind)
    (hnext : skipSpaces behind = next) (hlen : next.length < cs.length)
    (hmore : ReadsItems depth next items tail) : ReadsItems depth cs (j :: items) tail := by
  intro fuel hfuel
  cases fuel with
  | zero => cases hfuel
  | succ fuel =>
    rw [readItems, h fuel (Nat.lt_of_succ_lt_succ hfuel)]
    simp only [hcomma, hnext]
    rw [hmore fuel (by omega)]
    rfl

theorem reads_list (hnext : skipSpaces cs = next) (hfirst : ∀ more, next ≠ ']' :: more)
    (hlen : next.length < cs.length) (h : ReadsItems depth next items tail) :
    Reads (depth + 1) ('[' :: cs) (.list items) tail := by
  intro fuel hfuel
  cases fuel with
  | zero => cases hfuel
  | succ fuel =>
    rw [List.length_cons] at hfuel
    rw [readValue, hnext]
    split
    · exact absurd rfl (hfirst _)
    · rw [h fuel (by omega)]
      rfl

/-- A member of an object, its value in front of what follows. -/
def memberText (name : String) (value : List Char) : List Char :=
  '"' :: (name.toList.flatMap escape ++ '"' :: ':' :: ' ' :: value)

theorem length_memberText (name : String) (cs : List Char) :
    cs.length + 1 < (memberText name cs).length := by
  simp only [memberText, List.length_cons, List.length_append]
  omega

theorem skipSpaces_colon : skipSpaces (':' :: ' ' :: cs) = ':' :: ' ' :: cs := rfl

theorem skipSpaces_space (h : skipSpaces cs = cs) : skipSpaces (' ' :: cs) = cs := h

theorem readsMembers_last (name : String) (h : Reads depth cs j rest) (hcs : skipSpaces cs = cs)
    (hclose : skipSpaces rest = '\x7d' :: tail) :
    ReadsMembers depth (memberText name cs) [(.plain name, j)] tail := by
  have hlen := length_memberText name cs
  intro fuel hfuel
  cases fuel with
  | zero => cases hfuel
  | succ fuel =>
    rw [memberText, readMembers, readText_append]
    simp only [skipSpaces_colon, skipSpaces_space hcs, h fuel (by omega), hclose]

theorem readsMembers_cons (name : String) (h : Reads depth cs j rest) (hcs : skipSpaces cs = cs)
    (hcomma : skipSpaces rest = ',' :: behind) (hnext : skipSpaces behind = next)
    (hlen : next.length < cs.length) (hmore : ReadsMembers depth next members tail) :
    ReadsMembers depth (memberText name cs) ((.plain name, j) :: members) tail := by
  have hmember := length_memberText name cs
  intro fuel hfuel
  cases fuel with
  | zero => cases hfuel
  | succ fuel =>
    rw [memberText, readMembers, readText_append]
    simp only [skipSpaces_colon, skipSpaces_space hcs, h fuel (by omega), hcomma, hnext]
    rw [hmore fuel (by omega)]
    rfl

/-- Names that differ stay as they are in the table of the members that are read. -/
theorem entries_ofList_plain {xs : List (String × Json)} (h : (xs.map Prod.fst).Nodup) :
    (Table.ofList (xs.map fun x => (WideText.plain x.1, x.2))).entries =
      xs.map fun x => (WideText.plain x.1, x.2) := by
  have hplain : Function.Injective WideText.plain := fun _ _ hs => WideText.plain.inj hs
  have hnames := h.map hplain
  rw [List.map_map] at hnames
  refine Table.entries_insertAll (t := .empty) ?_
  rw [Table.empty, List.nil_append, List.map_map]
  exact hnames

theorem reads_object {xs : List (String × Json)} (hnodup : (xs.map Prod.fst).Nodup)
    (hnext : skipSpaces cs = next) (hfirst : ∀ more, next ≠ '\x7d' :: more)
    (hlen : next.length < cs.length)
    (h : ReadsMembers depth next (xs.map fun x => (.plain x.1, x.2)) tail) :
    Reads (depth + 1) ('{' :: cs) (object xs) tail := by
  intro fuel hfuel
  cases fuel with
  | zero => cases hfuel
  | succ fuel =>
    rw [List.length_cons] at hfuel
    rw [readValue, hnext]
    split
    · exact absurd rfl (hfirst _)
    · rw [h fuel (by omega)]
      simp only [Except.map, entries_ofList_plain hnodup]
      rfl

/-! ## Layouts -/

/-- Parts with `m` spaces in front of each, up to the bracket that closes them. -/
def partsText (m n : Nat) (closing : Char) (parts : List String) (rest : List Char) : List Char :=
  (String.intercalate ("," ++ newline m) parts).toList ++ ((newline n).toList ++ closing :: rest)

variable {m n : Nat} {closing : Char} {p q : String} {parts : List String}

theorem partsText_singleton :
    partsText m n closing [p] rest = p.toList ++ ((newline n).toList ++ closing :: rest) := by
  rw [partsText, String.intercalate_singleton]

theorem partsText_cons_cons : partsText m n closing (p :: q :: parts) rest =
    p.toList ++ ',' :: ((newline m).toList ++ partsText m n closing (q :: parts) rest) := by
  have hcomma : (",":String).toList = [','] := rfl
  simp only [partsText, String.intercalate_cons_cons, String.toList_append, hcomma,
    List.append_assoc, List.cons_append, List.nil_append]

theorem exists_partsText_eq (m n : Nat) (closing : Char) (p : String) (parts : List String)
    (rest : List Char) : ∃ more, partsText m n closing (p :: parts) rest = p.toList ++ more := by
  cases parts with
  | nil => exact ⟨_, partsText_singleton⟩
  | cons q parts => exact ⟨_, partsText_cons_cons⟩

theorem toList_onLines_append {opening ending : String} {c : Char} (hopening : opening.toList = [c])
    (hending : ending.toList = [closing]) : (onLines n opening ending (p :: parts)).toList ++ rest =
      c :: ((newline (n + 2)).toList ++ partsText (n + 2) n closing (p :: parts) rest) := by
  simp only [onLines, List.isEmpty_cons, Bool.false_eq_true, if_false, partsText,
    String.toList_append, hopening, hending, List.append_assoc, List.cons_append, List.nil_append]

theorem ends_newline (n : Nat) (cs : List Char) : Ends ((newline n).toList ++ cs) := by
  rw [newline, String.toList_ofList]
  exact ends_cons (.inr rfl)

/-- Whether a part may begin with a character. -/
def begins (c : Char) : Bool := !isSpace c && c != '\uFEFF' && c != ']' && c != '\x7d'

theorem begins_iff : begins c = true ↔
    isSpace c = false ∧ c ≠ '\uFEFF' ∧ c ≠ ']' ∧ c ≠ '\x7d' := by
  simp [begins, and_assoc]

/-- The first character of a part is no white space, and it closes nothing. -/
def Begins (p : String) : Prop := ∃ c cs, p.toList = c :: cs ∧ begins c = true

theorem Begins.skipSpaces_append (h : Begins p) (rest : List Char) :
    skipSpaces (p.toList ++ rest) = p.toList ++ rest := by
  obtain ⟨c, cs, hp, hc⟩ := h
  rw [hp]
  refine skipSpaces_of_head ?_
  rintro d ⟨⟩
  exact (begins_iff.mp hc).1

theorem Begins.skipSpaces_parts (h : Begins p) :
    skipSpaces ((newline m).toList ++ partsText m n closing (p :: parts) rest) =
      partsText m n closing (p :: parts) rest := by
  obtain ⟨more, hmore⟩ := exists_partsText_eq m n closing p parts rest
  rw [skipSpaces_newline, hmore, h.skipSpaces_append]

theorem Begins.parts_ne (h : Begins p) {d : Char} (hd : begins d = false) :
    ∀ more, partsText m n closing (p :: parts) rest ≠ d :: more := by
  obtain ⟨more, hmore⟩ := exists_partsText_eq m n closing p parts rest
  obtain ⟨c, cs, hp, hc⟩ := h
  rw [hmore, hp]
  rintro more ⟨⟩
  rw [hd] at hc
  cases hc

theorem skipSpaces_closing (n : Nat) (h : isSpace closing = false) (rest : List Char) :
    skipSpaces ((newline n).toList ++ closing :: rest) = closing :: rest := by
  rw [skipSpaces_newline]
  exact skipSpaces_of_head fun c hc => by rwa [← Option.some.inj hc]

theorem length_lt_append_newline (cs more : List Char) (c : Char) :
    more.length < (cs ++ c :: ((newline m).toList ++ more)).length := by
  simp only [List.length_append, List.length_cons]
  omega

theorem length_lt_newline_append (n : Nat) (cs : List Char) :
    cs.length < ((newline n).toList ++ cs).length := by
  rw [newline, String.toList_ofList, List.length_append, List.length_cons]
  omega

/-- In front of what may follow it, the document is read up to there. -/
structure Leads (depth : Nat) (j : Json) : Prop where
  first : ∀ n, Begins (layout n j)
  reads : ∀ n rest, Ends rest → Reads depth ((layout n j).toList ++ rest) j rest

theorem readsItems_layout {j : Json} {js : List Json} (h : ∀ x ∈ j :: js, Leads depth x)
    (rest : List Char) : ReadsItems depth
      (partsText m n ']' (layoutItems m (j :: js)) rest) (j :: js) rest := by
  induction js generalizing j with
  | nil =>
    have hj : Leads depth j := h j (by simp)
    simp only [layoutItems]
    rw [partsText_singleton]
    exact readsItems_last (hj.reads m _ (ends_newline n _)) (skipSpaces_closing n rfl rest)
  | cons x js ih =>
    have hj : Leads depth j := h j (by simp)
    have hx : Leads depth x := h x (by simp)
    have hrest := ih fun y hy => h y (List.mem_cons_of_mem j hy)
    simp only [layoutItems] at hrest ⊢
    rw [partsText_cons_cons]
    exact readsItems_cons (hj.reads m _ (ends_cons (.inl rfl))) rfl (hx.first m).skipSpaces_parts
      (length_lt_append_newline _ _ _) hrest

theorem toList_member (name : String) (j : Json) (m : Nat) (rest : List Char) :
    (quoted (.plain name) ++ ": " ++ layout m j).toList ++ rest =
      memberText name ((layout m j).toList ++ rest) := by
  have hcolon : (": ":String).toList = [':', ' '] := rfl
  simp only [quoted, WideText.spell, memberText, String.toList_append, String.toList_ofList, hcolon,
    List.append_assoc, List.cons_append, List.nil_append]

theorem begins_member (name : String) (j : Json) (m : Nat) :
    Begins (quoted (.plain name) ++ ": " ++ layout m j) := by
  have h := toList_member name j m []
  rw [List.append_nil] at h
  exact ⟨'"', _, h, rfl⟩

theorem readsMembers_layout {x : String × Json} {xs : List (String × Json)}
    (h : ∀ y ∈ x :: xs, Leads depth y.2) (rest : List Char) : ReadsMembers depth
      (partsText m n '\x7d' (layoutMembers m ((x :: xs).map fun y => (.plain y.1, y.2))) rest)
      ((x :: xs).map fun y => (.plain y.1, y.2)) rest := by
  induction xs generalizing x with
  | nil =>
    have hx : Leads depth x.2 := h x (by simp)
    simp only [List.map_cons, List.map_nil, layoutMembers]
    rw [partsText_singleton, toList_member]
    exact readsMembers_last x.1 (hx.reads m _ (ends_newline n _)) ((hx.first m).skipSpaces_append _)
      (skipSpaces_closing n rfl rest)
  | cons y xs ih =>
    have hx : Leads depth x.2 := h x (by simp)
    have hrest := ih fun z hz => h z (List.mem_cons_of_mem x hz)
    simp only [List.map_cons, layoutMembers] at hrest ⊢
    rw [partsText_cons_cons, toList_member]
    exact readsMembers_cons x.1 (hx.reads m _ (ends_cons (.inl rfl)))
      ((hx.first m).skipSpaces_append _) rfl (begins_member y.1 y.2 m).skipSpaces_parts
      (length_lt_append_newline _ _ _) hrest

/-- Texts are without halves of pairs and numbers are integers that can be written, the members of
an object have names of their own, and lists and objects lie at most so deep in each other. -/
inductive Readable : Nat → Json → Prop where
  | null {n : Nat} : Readable n .null
  | bool {n : Nat} {b : Bool} : Readable n (.bool b)
  | int {n : Nat} {z : Int} : Decimal.Writable z → Readable n (.int z)
  | text {n : Nat} {s : String} : Readable n (.text (.plain s))
  | list {n : Nat} {items : List Json} :
      (∀ j ∈ items, Readable n j) → Readable (n + 1) (.list items)
  | object {n : Nat} {members : List (String × Json)} : (members.map Prod.fst).Nodup →
      (∀ m ∈ members, Readable n m.2) → Readable (n + 1) (object members)

/-- It is enough to know with which character the document begins. -/
theorem leads_of_layout {text : Nat → List Char → List Char} (hc : begins c = true)
    (hlayout : ∀ n rest, (layout n j).toList ++ rest = c :: text n rest)
    (hread : ∀ n rest, Ends rest → Reads depth (c :: text n rest) j rest) : Leads depth j where
  first n := by
    have hfirst := hlayout n []
    rw [List.append_nil] at hfirst
    exact ⟨c, _, hfirst, hc⟩
  reads n rest hrest := by
    rw [hlayout]
    exact hread n rest hrest

theorem leads_scalar {text : String} (hlayout : ∀ n, layout n j = text)
    (htext : text.toList = c :: cs) (hc : begins c = true)
    (hmarks : c ≠ '"' ∧ c ≠ '[' ∧ c ≠ '\x7b')
    (hread : ∀ rest, Ends rest → readScalar (text.toList ++ rest) = .ok (j, rest)) :
    Leads depth j := by
  rw [htext] at hread
  refine leads_of_layout hc (fun n rest => ?_) fun n rest hrest =>
    reads_scalar (hread rest hrest) hmarks.1 hmarks.2.1 hmarks.2.2
  rw [hlayout, htext]
  rfl

theorem begins_of_toNat (hlow : 45 ≤ c.toNat) (hhigh : c.toNat ≤ 57) :
    begins c = true ∧ c ≠ '"' ∧ c ≠ '[' ∧ c ≠ '\x7b' := by
  have hall : ∀ i < 58, 45 ≤ i → begins (Char.ofNat i) = true ∧ Char.ofNat i ≠ '"' ∧
      Char.ofNat i ≠ '[' ∧ Char.ofNat i ≠ '\x7b' := by decide
  have h := hall c.toNat (Nat.lt_succ_of_le hhigh) hlow
  rwa [Char.ofNat_toNat] at h

theorem leads_int {z : Int} (hz : Decimal.Writable z) : Leads depth (.int z) := by
  obtain ⟨c, cs, htext⟩ := List.exists_cons_of_ne_nil (Text.toString_ne_nil z)
  obtain ⟨hlow, hhigh⟩ := Text.toNat_of_mem_toString (z := z) (c := c) (by rw [htext]; simp)
  obtain ⟨hc, hmarks⟩ := begins_of_toNat hlow hhigh
  exact leads_scalar (fun _ => rfl) htext hc hmarks fun rest hrest => readScalar_toString hz hrest

theorem leads_text (s : String) : Leads depth (.text (.plain s)) := by
  refine leads_of_layout (by decide) (fun n rest => ?_) fun n rest _ => reads_quoted s rest
  have hquoted : layout n (.text (.plain s)) =
    String.ofList ('"' :: s.toList.flatMap escape ++ ['"']) := rfl
  simp only [hquoted, String.toList_ofList, List.append_assoc, List.cons_append, List.nil_append]

theorem reads_nil_list : Reads (depth + 1) ('[' :: ']' :: rest) (.list []) rest := by
  intro fuel hfuel
  cases fuel with
  | zero => cases hfuel
  | succ fuel => rfl

theorem reads_nil_object : Reads (depth + 1) ('{' :: '}' :: rest) (object []) rest := by
  intro fuel hfuel
  cases fuel with
  | zero => cases hfuel
  | succ fuel => rfl

theorem leads_list (h : ∀ j ∈ items, Leads depth j) : Leads (depth + 1) (.list items) := by
  cases items with
  | nil =>
    refine leads_of_layout (by decide) (fun n rest => ?_) fun n rest _ => reads_nil_list
    have hlayout : layout n (.list []) = "[]" := rfl
    rw [hlayout]
    rfl
  | cons j js =>
    have hj : Leads depth j := h j (by simp)
    refine leads_of_layout (by decide) (fun n rest => toList_onLines_append rfl rfl)
      fun n rest _ => ?_
    exact reads_list (hj.first _).skipSpaces_parts ((hj.first _).parts_ne rfl)
      (length_lt_newline_append _ _) (readsItems_layout h rest)

theorem leads_object {xs : List (String × Json)} (hnodup : (xs.map Prod.fst).Nodup)
    (h : ∀ x ∈ xs, Leads depth x.2) : Leads (depth + 1) (object xs) := by
  cases xs with
  | nil =>
    refine leads_of_layout (by decide) (fun n rest => ?_) fun n rest _ => reads_nil_object
    have hlayout : layout n (object []) = "\x7b\x7d" := rfl
    rw [hlayout]
    rfl
  | cons x xs =>
    refine leads_of_layout (by decide) (fun n rest => toList_onLines_append rfl rfl)
      fun n rest _ => ?_
    have hfirst := begins_member x.1 x.2 (n + 2)
    exact reads_object hnodup hfirst.skipSpaces_parts (hfirst.parts_ne rfl)
      (length_lt_newline_append _ _) (readsMembers_layout h rest)

namespace Readable

theorem leads (h : Readable n j) : Leads n j := by
  induction h with
  | null => exact leads_scalar (fun _ => rfl) rfl rfl (by decide) fun _ _ => rfl
  | @bool n b =>
    cases b with
    | true => exact leads_scalar (fun _ => rfl) rfl rfl (by decide) fun _ _ => rfl
    | false => exact leads_scalar (fun _ => rfl) rfl rfl (by decide) fun _ _ => rfl
  | int hz => exact leads_int hz
  | @text n s => exact leads_text s
  | list _ ih => exact leads_list ih
  | object hnodup _ ih => exact leads_object hnodup ih

/-- A readable document is read back from its text, whatever white space is behind it. -/
theorem read_append (h : Readable maxDepth j) {behind : List Char}
    (hbehind : ∀ c ∈ behind, isSpace c = true) : read (j.indented.toList ++ behind) = .ok j := by
  have hends : Ends behind := fun c hc => .inr (hbehind c (List.mem_of_mem_head? hc))
  have hskip : skipSpaces behind = [] := List.dropWhile_eq_nil_iff.mpr hbehind
  have hfront : skipSpaces (j.indented.toList ++ behind) = j.indented.toList ++ behind :=
    (h.leads.first 0).skipSpaces_append behind
  have hread : ∀ fuel, (j.indented.toList ++ behind).length < fuel →
      readValue maxDepth fuel (j.indented.toList ++ behind) = .ok (j, behind) :=
    h.leads.reads 0 behind hends
  have hmark : ∀ more, j.indented.toList ++ behind = '\uFEFF' :: more → False := by
    intro more hmore
    obtain ⟨c, cs, htext, hc⟩ := h.leads.first 0
    rw [indented, htext] at hmore
    exact (begins_iff.mp hc).2.1 (List.cons.inj hmore).1
  rw [read, readWhole.eq_2 _ hmark, hfront, hread _ (by omega)]
  simp only [hskip]

end Readable

end Json
end VerifierTrace
