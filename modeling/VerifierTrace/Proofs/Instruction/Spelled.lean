import Mathlib.Data.List.Basic
import VerifierTrace.Proofs.Instruction.Operands

/-!
# VerifierTrace.Proofs.Instruction.Spelled

What is read as an operand is printed as one.

A reader takes the token that it finds from the front of its text, and leaves the rest
(`append_of_…`). So what is read as an operand is one of the printed forms, in front of the text
that is left (`printed_of_read`), whatever this begins with; and alone it is read as the same
operand (`Printed.read_alone`). The same holds of the positions that jumps go to.
-/

namespace VerifierTrace

theorem append_of_readSymbol? {α : Type} {symbol : α → String} {all : List α} {a : α}
    {cs more : List Char} (h : readSymbol? symbol all cs = some (a, more)) :
    (symbol a).toList ++ more = cs := by
  unfold readSymbol? at h
  obtain ⟨b, -, hb⟩ := List.exists_of_findSome?_eq_some h
  obtain ⟨tail, htail, heq⟩ := Option.map_eq_some_iff.mp hb
  cases heq
  exact List.isPrefixOf?_eq_some_iff_append_eq.mp htail

theorem Decimal.digits_of_run? {cs ds more : List Char} (h : run? cs = some (ds, more)) :
    ∃ d : Digits, d.chars = ds ∧ d.chars ++ more = cs := by
  have hne : ds ≠ [] := by
    rintro rfl
    unfold run? at h
    split at h
    · cases h
    · next hsome =>
      rw [Option.some.injEq] at h
      rw [h] at hsome
      exact hsome rfl
  exact ⟨⟨ds, hne, isDigit_of_run? h⟩, rfl, append_of_run? h⟩

namespace Operand

variable {choice : Choice} {cs more : List Char}

/-! ## Parts of operands -/

theorem eq_digitChar_of_isDigit {c : Char} (h : c.isDigit = true) :
    ∃ i : Fin 10, c = Nat.digitChar i := by
  obtain ⟨hlow, hhigh⟩ := toNat_of_isDigit h
  refine ⟨⟨c.toNat - 48, by omega⟩, Char.toNat_inj.mp ?_⟩
  show c.toNat = (Nat.digitChar (c.toNat - 48)).toNat
  rw [Nat.toNat_digitChar_of_lt_ten (by omega)]
  omega

theorem append_of_register? {r : Register} (h : Register.read? cs = some (r, more)) :
    r.text ++ more = cs := by
  unfold Register.read? at h
  split at h
  · cases h
    rfl
  · next d rest _ =>
    split at h
    · next hd =>
      cases h
      have htext : ∀ i : Fin 10,
          (Register.ofDigit (Nat.digitChar i)).text = ['r', Nat.digitChar i] := by decide
      obtain ⟨i, rfl⟩ := eq_digitChar_of_isDigit hd
      rw [htext]
      rfl
    · cases h
  · cases h

theorem append_of_width? {w : Width} (h : Width.read? cs = some (w, more)) :
    w.name.toList ++ more = cs := by
  unfold Width.read? at h
  split at h
  · cases h
    rfl
  · cases h
    rfl
  · cases h
    rfl
  · cases h
    rfl
  · cases h

theorem cons_of_sign? {negative : Bool} (h : sign? cs = some (negative, more)) :
    Decimal.signChar negative :: more = cs := by
  unfold sign? at h
  split at h
  · cases h
    rfl
  · cases h
    rfl
  · cases h

/-! ## Operands -/

theorem printed_of_register? {f : Form} (h : Form.register? cs = some (f, more)) :
    ∃ o : Printed, o.text ++ more = cs ∧ o.form = f := by
  unfold Form.register? at h
  split at h
  · next d rest =>
    split at h
    · next hd =>
      cases h
      have hform : ∀ i : Fin 10, (Printed.half i).form =
          .lowerHalf (Register.ofDigit (Nat.digitChar i)) := by decide
      obtain ⟨i, rfl⟩ := eq_digitChar_of_isDigit hd
      exact ⟨.half i, rfl, hform i⟩
    · cases h
  · obtain ⟨⟨r, tail⟩, hr, heq⟩ := Option.map_eq_some_iff.mp h
    cases heq
    exact ⟨.register r, append_of_register? hr, rfl⟩

theorem printed_of_memory? {m : MemorySpelling} {z : Int} (h : memory? cs = some (m, more))
    (hz : Decimal.readSigned m.negative m.digits = .ok z) :
    ∃ o : Printed, o.text ++ more = cs ∧ o.form = .memory m.width m.base z := by
  unfold memory? at h
  simp only [Option.bind_eq_bind, Option.bind_eq_some_iff] at h
  obtain ⟨c₁, hopen, ⟨width, c₂⟩, hwidth, c₃, hmiddle, ⟨base, c₄⟩, hbase, c₅, hspace,
    ⟨negative, c₆⟩, hsign, ⟨digits, c₇⟩, hdigits, c₈, hclose, heq⟩ := h
  cases heq
  simp only at hmiddle hspace hdigits hclose
  obtain ⟨d, rfl, hd⟩ := Decimal.digits_of_run? hdigits
  have hbounded : d.chars.length ≤ Decimal.maxDigits := by
    unfold Decimal.readSigned at hz
    cases hread : Decimal.read d.chars with
    | error fault =>
      rw [hread] at hz
      cases hz
    | ok n => exact (Decimal.read_ok_iff.mp hread).1
  let offset : Decimal.Offset := ⟨negative, ⟨d, hbounded⟩⟩
  refine ⟨.memory width base offset, ?_, ?_⟩
  · rw [← List.isPrefixOf?_eq_some_iff_append_eq.mp hopen, ← append_of_width? hwidth,
      ← List.isPrefixOf?_eq_some_iff_append_eq.mp hmiddle, ← append_of_register? hbase,
      ← List.isPrefixOf?_eq_some_iff_append_eq.mp hspace, ← cons_of_sign? hsign, ← hd,
      ← List.isPrefixOf?_eq_some_iff_append_eq.mp hclose]
    simp [Printed.text, Decimal.Offset.text, offset]
  · have hvalue : z = offset.value := Except.ok.inj (hz.symm.trans offset.readSigned_eq)
    rw [hvalue]
    rfl

theorem printed_of_decimal? (h : decimal? cs = some more) :
    ∃ o : Printed, o.text ++ more = cs ∧ o.form = .constant := by
  have hrun : ∀ {ds : List Char}, (Decimal.run? ds).map Prod.snd = some more →
      ∃ d : Decimal.Digits, d.chars ++ more = ds := by
    intro ds hds
    obtain ⟨⟨digits, tail⟩, hdigits, rfl⟩ := Option.map_eq_some_iff.mp hds
    obtain ⟨d, -, hd⟩ := Decimal.digits_of_run? hdigits
    exact ⟨d, hd⟩
  unfold decimal? at h
  split at h
  · obtain ⟨d, rfl⟩ := hrun h
    exact ⟨.decimal (some true) d, rfl, rfl⟩
  · obtain ⟨d, rfl⟩ := hrun h
    exact ⟨.decimal (some false) d, rfl, rfl⟩
  · obtain ⟨d, rfl⟩ := hrun h
    exact ⟨.decimal none d, rfl, rfl⟩

theorem printed_of_constant? (h : constant? cs = some more) :
    ∃ o : Printed, o.text ++ more = cs ∧ o.form = .constant := by
  unfold constant? at h
  split at h
  · next d rest =>
    split at h
    · next hd =>
      cases h
      have hhex : ∀ c ∈ d :: rest.takeWhile isHexDigit, isHexDigit c = true := by
        refine List.forall_mem_cons.mpr ⟨hd, fun c hc => ?_⟩
        exact List.all_eq_true.mp List.all_takeWhile c hc
      refine ⟨.hex ⟨d :: rest.takeWhile isHexDigit, List.cons_ne_nil _ _, hhex⟩, ?_, rfl⟩
      show '0' :: 'x' :: d :: (rest.takeWhile isHexDigit ++ rest.dropWhile isHexDigit) = _
      rw [List.takeWhile_append_dropWhile]
    · exact printed_of_decimal? h
  · exact printed_of_decimal? h

theorem printed_of_read {f : Form} (h : Form.read choice cs = .ok (some (f, more))) :
    ∃ o : Printed, o.text ++ more = cs ∧ o.form = f := by
  unfold Form.read at h
  split at h
  · next found hregister =>
    cases h
    exact printed_of_register? hregister
  · split at h
    · next m rest hmemory =>
      have hm : memory? cs = some (m, rest) := by
        split at hmemory
        · exact hmemory
        · cases hmemory
      split at h
      · cases h
      · next z hz =>
        cases h
        exact printed_of_memory? hm hz
    · split at h
      · obtain ⟨rest, hconstant, heq⟩ := Option.map_eq_some_iff.mp (Except.ok.inj h)
        cases heq
        exact printed_of_constant? hconstant
      · cases h

/-- A printed operand is read back from its text alone, and all of the text is read. -/
theorem Printed.read_alone (o : Printed) :
    Operand.read .source o.text = .ok (o.operand [], []) := by
  have hallowed : o.allowed .source = true := by cases o <;> rfl
  have h := read_operand hallowed stops_nil
  rwa [List.append_nil] at h

theorem Printed.text_ne_nil (o : Printed) : o.text ≠ [] := by
  obtain ⟨c, cs, htext, -⟩ := text_eq_cons o
  rw [htext]
  exact List.cons_ne_nil c cs

end Operand

/-! ## Positions -/

namespace Action

variable {cs target more : List Char}

theorem append_of_position? (h : position? cs = some (target, more)) : target ++ more = cs := by
  unfold position? at h
  split at h
  · next sign rest =>
    split at h
    · obtain ⟨⟨digits, tail⟩, hrun, heq⟩ := Option.map_eq_some_iff.mp h
      cases heq
      rw [← Decimal.append_of_run? hrun]
      rfl
    · cases h
  · cases h

theorem append_of_goto? {word : GotoWord} (h : goto? cs = some (word, target, more)) :
    (word.text.toList ++ ' ' :: target) ++ more = cs := by
  unfold goto? at h
  simp only [Option.bind_eq_bind, Option.bind_eq_some_iff] at h
  obtain ⟨⟨word', c₁⟩, hword, c₂, hspace, ⟨target', c₃⟩, hposition, heq⟩ := h
  cases heq
  simp only at hspace
  rw [← append_of_readSymbol? hword, ← List.isPrefixOf?_eq_some_iff_append_eq.mp hspace,
    ← append_of_position? hposition, List.append_assoc]
  rfl

end Action
end VerifierTrace
