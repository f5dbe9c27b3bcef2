import VerifierTrace.Proofs.Instruction.Printed
import VerifierTrace.Proofs.Numeral.Digits

/-!
# VerifierTrace.Proofs.Instruction.Operands

Printed operands are read back.

An operand is followed by a space or by nothing (`Stops`), so its reader stops exactly behind it:
`r1` is not cut from `r10`, nor `0` from `0x10`. One lemma for each reader, and `read_operand` for
all operands together.
-/

namespace VerifierTrace

/-- The text is empty, or goes on with a space. -/
def Stops (rest : List Char) : Prop := ∀ c ∈ rest.head?, c = ' '

theorem stops_nil : Stops [] := by
  intro c hc
  simp at hc

theorem stops_space (rest : List Char) : Stops (' ' :: rest) := by
  intro c hc
  simp at hc
  exact hc.symm

theorem Stops.noDigitHead {rest : List Char} (h : Stops rest) : Decimal.NoDigitHead rest := by
  intro c hc
  rw [h c hc]
  decide

theorem toNat_of_isDigit {c : Char} (h : c.isDigit = true) : 48 ≤ c.toNat ∧ c.toNat ≤ 57 :=
  Char.isDigit_iff_toNat.mp h

theorem isBlank_of_isDigit {c : Char} (h : c.isDigit = true) : Text.isBlank c = false := by
  obtain ⟨hlow, hhigh⟩ := toNat_of_isDigit h
  simp only [Text.isBlank, Bool.or_eq_false_iff, Bool.and_eq_false_iff, decide_eq_false_iff_not,
    beq_eq_false_iff_ne]
  omega

theorem ne_of_isDigit {c d : Char} (h : c.isDigit = true) (hd : d.isDigit = false) : c ≠ d := by
  rintro rfl
  rw [h] at hd
  cases hd

theorem isPrefixOf?_cons (c d : Char) (p rest : List Char) :
    (c :: p).isPrefixOf? (d :: rest) = if c == d then p.isPrefixOf? rest else none := rfl

theorem isPrefixOf?_append_append (p q rest : List Char) :
    (p ++ q).isPrefixOf? (p ++ rest) = q.isPrefixOf? rest := by
  induction p with
  | nil => rfl
  | cons c p ih =>
    rw [List.cons_append, List.cons_append, isPrefixOf?_cons, if_pos (beq_self_eq_true c), ih]

theorem isPrefixOf?_append (p rest : List Char) : p.isPrefixOf? (p ++ rest) = some rest := by
  have h := isPrefixOf?_append_append p [] rest
  rwa [List.append_nil] at h

theorem isPrefixOf?_cons_ne {c d : Char} (p rest : List Char) (h : c ≠ d) :
    (c :: p).isPrefixOf? (d :: rest) = none := by
  rw [isPrefixOf?_cons, if_neg (by simp [h])]

theorem Extent.between_append (part after : List Char) :
    Extent.between (part ++ after) after = Extent.ahead part after := by
  unfold Extent.between Extent.ahead
  rw [List.length_append]
  congr 1
  omega

/-! ## Numerals -/

namespace Decimal

theorem Digits.run?_append (d : Digits) {rest : List Char} (h : NoDigitHead rest) :
    run? (d.chars ++ rest) = some (d.chars, rest) :=
  Decimal.run?_append d.decimal d.nonempty h

theorem Digits.eq_cons (d : Digits) : ∃ c cs, d.chars = c :: cs ∧ c.isDigit = true := by
  cases h : d.chars with
  | nil => exact absurd h d.nonempty
  | cons c cs => exact ⟨c, cs, rfl, d.decimal c (by rw [h]; exact List.mem_cons_self)⟩

theorem Numeral.read_eq (n : Numeral) : Decimal.read n.chars = .ok n.value := by
  rw [Decimal.read, if_pos n.bounded]
  rfl

theorem Offset.readSigned_eq (o : Offset) :
    readSigned o.negative o.digits.chars = .ok o.value := by
  rw [readSigned, o.digits.read_eq]
  rfl

end Decimal

namespace Operand

/-! ## Parts of operands -/

theorem text_register (r : Register) :
    r.text = if r.index = 10 then ['r', '1', '0'] else ['r', Nat.digitChar r.index.val] := by
  obtain ⟨i⟩ := r
  revert i
  decide

theorem register_eq_cons (r : Register) : ∃ cs, r.text = 'r' :: cs := by
  rw [text_register]
  split
  · exact ⟨_, rfl⟩
  · exact ⟨_, rfl⟩

theorem read?_register (r : Register) {rest : List Char} (h : Decimal.NoDigitHead rest) :
    Register.read? (r.text ++ rest) = some (r, rest) := by
  rw [text_register]
  obtain ⟨i, hi⟩ := r
  match i, hi with
  | 1, _ =>
    -- the only register whose name starts that of another
    cases rest with
    | nil => rfl
    | cons c rest =>
      have hc : c ≠ '0' := by
        rintro rfl
        exact absurd (h '0' rfl) (by decide)
      show Register.read? ('r' :: '1' :: c :: rest) = _
      unfold Register.read?
      split
      · rename_i heq
        cases heq
        exact absurd rfl hc
      · rename_i heq
        cases heq
        rfl
      · rename_i hno
        exact absurd rfl (hno '1' (c :: rest))
  | 0, _ | 2, _ | 3, _ | 4, _ | 5, _ | 6, _ | 7, _ | 8, _ | 9, _ | 10, _ => rfl

theorem read?_width (w : Width) (rest : List Char) :
    Width.read? (w.name.toList ++ rest) = some (w, rest) := by
  cases w <;> rfl

theorem sign?_text (o : Decimal.Offset) (rest : List Char) :
    sign? (o.text ++ rest) = some (o.negative, o.digits.chars ++ rest) := by
  obtain ⟨negative, digits⟩ := o
  cases negative <;> rfl

theorem memory?_text (width : Width) (base : Register) (o : Decimal.Offset) (rest : List Char) :
    memory? ((Printed.memory width base o).text ++ rest) =
      some (⟨width, base, o.negative, o.digits.chars⟩, rest) := by
  have hspace : Decimal.NoDigitHead (" ".toList ++ (o.text ++ (")".toList ++ rest))) :=
    Decimal.noDigitHead_cons (by decide)
  have hparen : Decimal.NoDigitHead (")".toList ++ rest) := Decimal.noDigitHead_cons (by decide)
  have htext : (Printed.memory width base o).text ++ rest =
      "*(".toList ++ (width.name.toList ++ (" *)(".toList ++ (base.text ++
        (" ".toList ++ (o.text ++ (")".toList ++ rest)))))) := by
    simp [Printed.text]
  rw [htext]
  simp only [memory?, isPrefixOf?_append, read?_width, read?_register base hspace, sign?_text,
    o.digits.run?_append hparen, Option.bind_eq_bind, Option.bind_some, Option.pure_def]

/-! ## Constants -/

theorem dropWhile_hexDigits {ds rest : List Char} (hds : ∀ c ∈ ds, isHexDigit c = true)
    (h : Stops rest) : (ds ++ rest).dropWhile isHexDigit = rest := by
  rw [List.dropWhile_append_of_pos hds]
  cases rest with
  | nil => rfl
  | cons c rest =>
    have hc : isHexDigit c = false := by
      rw [h c rfl]
      decide
    simp [hc]

theorem constant?_hex (d : HexDigits) {rest : List Char} (h : Stops rest) :
    constant? ((Printed.hex d).text ++ rest) = some rest := by
  obtain ⟨chars, hne, hhex⟩ := d
  cases chars with
  | nil => exact absurd rfl hne
  | cons c cs =>
    have hc : isHexDigit c = true := hhex c List.mem_cons_self
    have hcs : ∀ d ∈ cs, isHexDigit d = true := fun d hd => hhex d (List.mem_cons_of_mem _ hd)
    simp only [Printed.text, List.cons_append, constant?, hc, if_true, dropWhile_hexDigits hcs h]

theorem decimal?_text (negative : Option Bool) (d : Decimal.Digits) {rest : List Char}
    (h : Stops rest) : decimal? ((Printed.decimal negative d).text ++ rest) = some rest := by
  have hrun := d.run?_append h.noDigitHead
  match negative with
  | some true | some false =>
    show (Decimal.run? (d.chars ++ rest)).map Prod.snd = some rest
    rw [hrun]
    rfl
  | none =>
    obtain ⟨c, cs, hd, hc⟩ := d.eq_cons
    have hminus : c ≠ '-' := ne_of_isDigit hc (by decide)
    have hplus : c ≠ '+' := ne_of_isDigit hc (by decide)
    show decimal? (d.chars ++ rest) = some rest
    unfold decimal?
    split
    · rename_i heq
      rw [hd] at heq
      cases heq
      exact absurd rfl hminus
    · rename_i heq
      rw [hd] at heq
      cases heq
      exact absurd rfl hplus
    · rw [hrun]
      rfl

theorem decimal_eq_cons (negative : Option Bool) (d : Decimal.Digits) :
    ∃ c cs, (Printed.decimal negative d).text = c :: cs ∧
      (c.isDigit = true ∨ c = '-' ∨ c = '+') := by
  match negative with
  | none =>
    obtain ⟨c, cs, hd, hc⟩ := d.eq_cons
    exact ⟨c, cs, hd, .inl hc⟩
  | some true => exact ⟨'-', d.chars, rfl, .inr (.inl rfl)⟩
  | some false => exact ⟨'+', d.chars, rfl, .inr (.inr rfl)⟩

/-- No decimal constant begins like a hexadecimal one. -/
theorem decimal_ne_hex {negative : Option Bool} {d : Decimal.Digits} {rest more : List Char}
    (h : Stops rest) : (Printed.decimal negative d).text ++ rest ≠ '0' :: 'x' :: more := by
  intro heq
  match negative with
  | some true => cases heq
  | some false => cases heq
  | none =>
    replace heq : d.chars ++ rest = '0' :: 'x' :: more := heq
    obtain ⟨c, cs, hd, -⟩ := d.eq_cons
    rw [hd] at heq
    cases cs with
    | nil =>
      simp only [List.cons_append, List.nil_append, List.cons.injEq] at heq
      have hspace := h 'x' (by rw [heq.2]; rfl)
      exact absurd hspace (by decide)
    | cons e cs =>
      simp only [List.cons_append, List.cons.injEq] at heq
      have he : e.isDigit = true := d.decimal e (by rw [hd]; simp)
      exact ne_of_isDigit he (by decide) heq.2.1

theorem constant?_decimal (negative : Option Bool) (d : Decimal.Digits) {rest : List Char}
    (h : Stops rest) : constant? ((Printed.decimal negative d).text ++ rest) = some rest := by
  rw [← decimal?_text negative d h]
  unfold constant?
  split
  · rename_i heq
    exact absurd heq (decimal_ne_hex h)
  · rfl

/-! ## Operands -/

theorem register?_cons {c : Char} (cs : List Char) (hw : c ≠ 'w') :
    Form.register? (c :: cs) =
      (Register.read? (c :: cs)).map fun p => (.register p.1, p.2) := by
  unfold Form.register?
  split
  · rename_i heq
    cases heq
    exact absurd rfl hw
  · rfl

theorem read?_eq_none {c : Char} (cs : List Char) (hr : c ≠ 'r') :
    Register.read? (c :: cs) = none := by
  unfold Register.read?
  split
  · rename_i heq
    cases heq
    exact absurd rfl hr
  · rename_i heq
    cases heq
    exact absurd rfl hr
  · rfl

theorem register?_eq_none {c : Char} (cs : List Char) (hw : c ≠ 'w') (hr : c ≠ 'r') :
    Form.register? (c :: cs) = none := by
  rw [register?_cons cs hw, read?_eq_none cs hr]
  rfl

theorem memory?_eq_none {c : Char} (cs : List Char) (h : '*' ≠ c) : memory? (c :: cs) = none := by
  have hp : "*(".toList.isPrefixOf? (c :: cs) = none := isPrefixOf?_cons_ne ['('] cs h
  rw [memory?, hp]
  rfl

theorem read_constant {choice : Choice} {c : Char} {cs rest : List Char}
    (hchoice : choice.constant = true) (hw : c ≠ 'w') (hr : c ≠ 'r') (hstar : '*' ≠ c)
    (h : constant? (c :: cs) = some rest) :
    Form.read choice (c :: cs) = .ok (some (.constant, rest)) := by
  have hmem : (if choice.memory then memory? (c :: cs) else none) = none := by
    split
    · exact memory?_eq_none cs hstar
    · rfl
  simp only [Form.read, register?_eq_none cs hw hr, hmem, hchoice, if_true, h, Option.map_some]

/-- Memory ends with its own parenthesis, so any text may follow it. -/
theorem read_memory {choice : Choice} (hchoice : choice.memory = true) (width : Width)
    (base : Register) (offset : Decimal.Offset) (rest : List Char) :
    Form.read choice ((Printed.memory width base offset).text ++ rest) =
      .ok (some (.memory width base offset.value, rest)) := by
  have hreg : Form.register? ((Printed.memory width base offset).text ++ rest) = none :=
    register?_eq_none _ (by decide) (by decide)
  simp only [Form.read, hreg, hchoice, if_true, memory?_text, offset.readSigned_eq]

theorem read_form {o : Printed} {choice : Choice} (ho : o.allowed choice = true)
    {rest : List Char} (h : Stops rest) :
    Form.read choice (o.text ++ rest) = .ok (some (o.form, rest)) := by
  cases o with
  | register r =>
    have hreg : Form.register? (r.text ++ rest) = some (.register r, rest) := by
      obtain ⟨cs, hcs⟩ := register_eq_cons r
      have hread := read?_register r h.noDigitHead
      rw [hcs, List.cons_append] at hread ⊢
      rw [register?_cons _ (by decide), hread]
      rfl
    simp only [Form.read, Printed.text, hreg, Printed.form]
  | half n =>
    obtain ⟨n, hn⟩ := n
    match n, hn with
    | 0, _ | 1, _ | 2, _ | 3, _ | 4, _ | 5, _ | 6, _ | 7, _ | 8, _ | 9, _ => rfl
  | memory width base offset => exact read_memory ho width base offset rest
  | hex digits =>
    exact read_constant ho (by decide) (by decide) (by decide) (constant?_hex digits h)
  | decimal negative digits =>
    have hread := constant?_decimal negative digits h
    obtain ⟨c, cs, htext, hc⟩ := decimal_eq_cons negative digits
    rw [htext] at hread ⊢
    rcases hc with hc | rfl | rfl
    · exact read_constant ho (ne_of_isDigit hc (by decide)) (ne_of_isDigit hc (by decide))
        (ne_of_isDigit hc (by decide)).symm hread
    · exact read_constant ho (by decide) (by decide) (by decide) hread
    · exact read_constant ho (by decide) (by decide) (by decide) hread

/-- An operand is read back, with its place, whatever text follows it behind a space. -/
theorem read_operand {o : Printed} {choice : Choice} (ho : o.allowed choice = true)
    {rest : List Char} (h : Stops rest) :
    Operand.read choice (o.text ++ rest) = .ok (o.operand rest, rest) := by
  rw [Operand.read, read_form ho h]
  simp only [Extent.between_append, Printed.operand]

theorem text_eq_cons (o : Printed) :
    ∃ c cs, o.text = c :: cs ∧ Text.isBlank c = false ∧ c ≠ 'a' := by
  cases o with
  | register r =>
    obtain ⟨cs, hcs⟩ := register_eq_cons r
    exact ⟨'r', cs, hcs, by decide, by decide⟩
  | half n => exact ⟨'w', _, rfl, by decide, by decide⟩
  | memory width base offset => exact ⟨'*', _, rfl, by decide, by decide⟩
  | hex digits => exact ⟨'0', _, rfl, by decide, by decide⟩
  | decimal negative digits =>
    obtain ⟨c, cs, htext, hc⟩ := decimal_eq_cons negative digits
    refine ⟨c, cs, htext, ?_⟩
    rcases hc with hc | rfl | rfl
    · exact ⟨isBlank_of_isDigit hc, ne_of_isDigit hc (by decide)⟩
    · exact ⟨by decide, by decide⟩
    · exact ⟨by decide, by decide⟩

end Operand
end VerifierTrace
