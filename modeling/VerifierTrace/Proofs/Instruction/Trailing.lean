import Mathlib.Data.List.Basic
import VerifierTrace.Proofs.Instruction.Operands

/-!
# VerifierTrace.Proofs.Instruction.Trailing

Bodies of instructions with more text behind them.

Text behind a body cannot be taken for a part of it if it begins with a space or a semicolon
(`Apart`). What a reader finds it then finds again, and only the places in the line are farther from
its end (`Action.lowered`). There is one lemma for each reader, and `read_append` for all bodies
together: white space behind a body is skipped, but not behind a cast (`Action.leaves`).
-/

namespace VerifierTrace

/-- The text is empty, or begins with a space or a semicolon. -/
def Apart (rest : List Char) : Prop := ∀ c ∈ rest.head?, c = ' ' ∨ c = ';'

/-- The part, in a line with `n` more characters at its end. -/
def Extent.lowered (n : Nat) (e : Extent) : Extent := { e with offset := e.offset - n }

def Operand.lowered (n : Nat) (o : Operand) : Operand := { o with extent := o.extent.lowered n }

namespace Action

def lowered (n : Nat) : Action → Action
  | .compute op dst src => .compute op (dst.lowered n) (src.lowered n)
  | .cast dst src toSpace fromSpace =>
    .cast (dst.lowered n) (src.lowered n) toSpace fromSpace
  | .exit => .exit
  | .goto word target extent => .goto word target (extent.lowered n)
  | .branch left op right target => .branch (left.lowered n) op (right.lowered n) target
  | .callHelper target extent => .callHelper target (extent.lowered n)
  | .callSubprogram target extent => .callSubprogram target (extent.lowered n)

/-- What is left unread of the text behind a body. -/
def leaves (rest : List Char) : Action → List Char
  | .cast .. => rest
  | _ => Text.skipBlanks rest

end Action

theorem Extent.between_append_append (cs more rest : List Char) :
    Extent.between (cs ++ rest) (more ++ rest) = (Extent.between cs more).lowered rest.length := by
  simp only [Extent.between, Extent.lowered, List.length_append, Extent.mk.injEq]
  omega

theorem isPrefixOf?_of_some {p cs more : List Char} (h : p.isPrefixOf? cs = some more)
    (rest : List Char) : p.isPrefixOf? (cs ++ rest) = some (more ++ rest) := by
  rw [← List.isPrefixOf?_eq_some_iff_append_eq.mp h, List.append_assoc, isPrefixOf?_append]

theorem skipBlanks_append_of_ne_nil {cs : List Char} (h : Text.skipBlanks cs ≠ [])
    (rest : List Char) : Text.skipBlanks (cs ++ rest) = Text.skipBlanks cs ++ rest := by
  unfold Text.skipBlanks at *
  rw [List.dropWhile_append, if_neg (by simpa using h)]

theorem skipBlanks_append_of_eq_nil {cs : List Char} (h : Text.skipBlanks cs = [])
    (rest : List Char) : Text.skipBlanks (cs ++ rest) = Text.skipBlanks rest := by
  unfold Text.skipBlanks at *
  rw [List.dropWhile_append, h, if_pos List.isEmpty_nil]

theorem width_append {w : Width} {cs more : List Char} (h : Width.read? cs = some (w, more))
    (rest : List Char) : Width.read? (cs ++ rest) = some (w, more ++ rest) := by
  unfold Width.read? at h
  split at h
  · cases h
    rfl
  · cases h
    rfl
  · cases h
    rfl
  · cases h
    rfl
  · cases h

theorem sign_append {negative : Bool} {cs more : List Char}
    (h : Operand.sign? cs = some (negative, more)) (rest : List Char) :
    Operand.sign? (cs ++ rest) = some (negative, more ++ rest) := by
  unfold Operand.sign? at h
  split at h
  · cases h
    rfl
  · cases h
    rfl
  · cases h

theorem eq_cons_of_register {r : Register} {cs more : List Char}
    (h : Register.read? cs = some (r, more)) : ∃ tail, cs = 'r' :: tail := by
  unfold Register.read? at h
  split at h
  · exact ⟨_, rfl⟩
  · exact ⟨_, rfl⟩
  · cases h

theorem eq_cons_of_run? {cs ds more : List Char} (h : Decimal.run? cs = some (ds, more)) :
    ∃ c tail, cs = c :: tail ∧ c.isDigit = true := by
  unfold Decimal.run? Decimal.run at h
  cases cs with
  | nil => cases h
  | cons c tail =>
    refine ⟨c, tail, rfl, ?_⟩
    by_contra hc
    rw [List.takeWhile_cons, if_neg hc] at h
    cases h

namespace Operand

theorem decimal?_of_ne {c : Char} (cs : List Char) (hminus : c ≠ '-') (hplus : c ≠ '+') :
    decimal? (c :: cs) = (Decimal.run? (c :: cs)).map Prod.snd := by
  unfold decimal?
  split
  · rename_i heq
    cases heq
    exact absurd rfl hminus
  · rename_i heq
    cases heq
    exact absurd rfl hplus
  · rfl

theorem eq_cons_of_decimal? {cs more : List Char} (h : decimal? cs = some more) :
    ∃ c tail, cs = c :: tail ∧ (c.isDigit = true ∨ c = '-' ∨ c = '+') := by
  unfold decimal? at h
  split at h
  · exact ⟨'-', _, rfl, .inr (.inl rfl)⟩
  · exact ⟨'+', _, rfl, .inr (.inr rfl)⟩
  · obtain ⟨⟨ds, tail⟩, hrun, -⟩ := Option.map_eq_some_iff.mp h
    obtain ⟨c, tail, hcs, hc⟩ := eq_cons_of_run? hrun
    exact ⟨c, tail, hcs, .inl hc⟩

theorem eq_cons_of_constant? {cs more : List Char} (h : constant? cs = some more) :
    ∃ c tail, cs = c :: tail ∧ (c.isDigit = true ∨ c = '-' ∨ c = '+') := by
  unfold constant? at h
  split at h
  · exact ⟨'0', _, rfl, .inl (by decide)⟩
  · exact eq_cons_of_decimal? h

theorem read_of_register? (choice : Choice) {r : Register} {cs more : List Char}
    (h : Register.read? cs = some (r, more)) :
    read choice cs = .ok (⟨.register r, .between cs more⟩, more) := by
  obtain ⟨tail, rfl⟩ := eq_cons_of_register h
  have hform : Form.read choice ('r' :: tail) = .ok (some (.register r, more)) := by
    rw [Form.read, register?_cons _ (by decide), h]
    rfl
  rw [read, hform]

theorem ne_nil_of_read {choice : Choice} {cs more : List Char} {o : Operand}
    (h : read choice cs = .ok (o, more)) : cs ≠ [] := by
  rintro rfl
  obtain ⟨memory, constant⟩ := choice
  cases memory <;> cases constant <;> cases h

end Operand

theorem bind_eq_ok {ε α β : Type} {x : Except ε α} {f : α → Except ε β} {b : β}
    (h : x >>= f = .ok b) : ∃ a, x = .ok a ∧ f a = .ok b := by
  cases x with
  | error e => cases h
  | ok a => exact ⟨a, rfl, h⟩

/-- No symbol holds a space or a semicolon. -/
def SymbolsApart {α : Type} (symbol : α → String) (all : List α) : Prop :=
  ∀ a ∈ all, ∀ c ∈ (symbol a).toList, c ≠ ' ' ∧ c ≠ ';'

theorem AluOp.symbolsApart : SymbolsApart AluOp.symbol AluOp.all := by
  intro op _
  cases op <;> simp [AluOp.symbol]

theorem Comparison.symbolsApart : SymbolsApart Comparison.symbol Comparison.all := by
  intro op _
  cases op <;> simp [Comparison.symbol]

theorem GotoWord.symbolsApart : SymbolsApart GotoWord.text GotoWord.all := by
  intro word _
  cases word <;> simp [GotoWord.text]

theorem ne_nil_of_readOperator {α : Type} {symbol : α → String} {all : List α}
    (hall : ∀ a ∈ all, symbol a ≠ "") {cs more : List Char} {a : α}
    (h : readOperator symbol all cs = .ok (a, more)) : cs ≠ [] := by
  rintro rfl
  unfold readOperator at h
  split at h
  · next b tail hsymbol =>
    unfold readSymbol? at hsymbol
    obtain ⟨b, hb, hsome⟩ := List.exists_of_findSome?_eq_some hsymbol
    obtain ⟨tail, hprefix, -⟩ := Option.map_eq_some_iff.mp hsome
    have hempty := List.isPrefixOf?_eq_some_iff_append_eq.mp hprefix
    exact hall b hb (String.toList_eq_nil_iff.mp (List.append_eq_nil_iff.mp hempty).1)
  · cases h

namespace Action

theorem readCompute_ok {cs more : List Char} {action : Action}
    (h : readCompute cs = .ok (action, more)) :
    ∃ dst c₁ op c₂ src c₃, Operand.read .place cs = .ok (dst, c₁) ∧
      readOperator AluOp.symbol AluOp.all (Text.skipBlanks c₁) = .ok (op, c₂) ∧
      Operand.read .source c₂ = .ok (src, c₃) ∧ action = .compute op dst src ∧
      more = Text.skipBlanks c₃ := by
  unfold readCompute at h
  obtain ⟨⟨dst, c₁⟩, hdst, h⟩ := bind_eq_ok h
  obtain ⟨⟨op, c₂⟩, hop, h⟩ := bind_eq_ok h
  obtain ⟨⟨src, c₃⟩, hsrc, h⟩ := bind_eq_ok h
  cases h
  exact ⟨dst, c₁, op, c₂, src, c₃, hdst, hop, hsrc, rfl, rfl⟩

theorem readBranch_ok {cs more : List Char} {action : Action}
    (h : readBranch cs = .ok (action, more)) :
    ∃ c₀ left c₁ op c₂ right c₃ target c₄, "if ".toList.isPrefixOf? cs = some c₀ ∧
      Operand.read .compared c₀ = .ok (left, c₁) ∧
      readOperator Comparison.symbol Comparison.all (Text.skipBlanks c₁) = .ok (op, c₂) ∧
      Operand.read .compared c₂ = .ok (right, c₃) ∧
      target? (Text.skipBlanks c₃) = some (target, c₄) ∧
      action = .branch left op right (String.ofList target) ∧ more = Text.skipBlanks c₄ := by
  unfold readBranch at h
  split at h
  · cases h
  · next c₀ hif =>
    obtain ⟨⟨left, c₁⟩, hleft, h⟩ := bind_eq_ok h
    obtain ⟨⟨op, c₂⟩, hop, h⟩ := bind_eq_ok h
    obtain ⟨⟨right, c₃⟩, hright, h⟩ := bind_eq_ok h
    simp only at h
    split at h
    · cases h
    · next target c₄ htarget =>
      cases h
      exact ⟨c₀, left, c₁, op, c₂, right, c₃, target, c₄, hif, hleft, hop, hright, htarget, rfl,
        rfl⟩

theorem cast?_eq_some {cs more : List Char} {action : Action}
    (h : cast? cs = some (action, more)) :
    ∃ dst c₁ c₂ src c₃ c₄ toSpace c₅ c₆ fromSpace c₇, Register.read? cs = some (dst, c₁) ∧
      " = addr_space_cast(".toList.isPrefixOf? c₁ = some c₂ ∧
      Register.read? c₂ = some (src, c₃) ∧ ", ".toList.isPrefixOf? c₃ = some c₄ ∧
      Decimal.run? c₄ = some (toSpace, c₅) ∧ ", ".toList.isPrefixOf? c₅ = some c₆ ∧
      Decimal.run? c₆ = some (fromSpace, c₇) ∧ ")".toList.isPrefixOf? c₇ = some more ∧
      action = .cast ⟨.register dst, .between cs c₁⟩ ⟨.register src, .between c₂ c₃⟩
        (String.ofList toSpace) (String.ofList fromSpace) := by
  unfold cast? at h
  simp only [Option.bind_eq_bind, Option.bind_eq_some_iff] at h
  obtain ⟨⟨dst, c₁⟩, hdst, c₂, hassign, ⟨src, c₃⟩, hsrc, c₄, hcomma, ⟨toSpace, c₅⟩, hto, c₆,
    hcomma', ⟨fromSpace, c₇⟩, hfrom, c₈, hclose, heq⟩ := h
  cases heq
  exact ⟨dst, c₁, c₂, src, c₃, c₄, toSpace, c₅, c₆, fromSpace, c₇, hdst, hassign, hsrc, hcomma,
    hto, hcomma', hfrom, hclose, rfl⟩

theorem readCompute_of_cast? {cs more : List Char} {action : Action}
    (h : cast? cs = some (action, more)) : ∃ fault, readCompute cs = .error fault := by
  obtain ⟨dst, c₁, c₂, -, -, -, -, -, -, -, -, hdst, hassign, -⟩ := cast?_eq_some h
  have hfirst := Operand.read_of_register? .place hdst
  rw [← List.isPrefixOf?_eq_some_iff_append_eq.mp hassign] at hfirst
  refine ⟨.body ⟨.operand, "addr_space_cast(".toList ++ c₂⟩, ?_⟩
  rw [readCompute, hfirst]
  rfl

theorem readExit_append {action : Action} {cs : List Char}
    (h : readExit cs = .ok (action, [])) (rest : List Char) :
    readExit (cs ++ rest) = .ok (action.lowered rest.length, action.leaves rest) := by
  unfold readExit at h
  split at h
  · cases h
  · next tail hexit =>
    simp only [Except.ok.injEq, Prod.mk.injEq] at h
    obtain ⟨rfl, hskip⟩ := h
    simp only [readExit, isPrefixOf?_of_some hexit rest, skipBlanks_append_of_eq_nil hskip,
      Action.lowered, Action.leaves]

end Action

namespace Apart

variable {rest : List Char} (hrest : Apart rest)

include hrest

/-! ## Characters -/

theorem takeWhile_eq_nil {p : Char → Bool} (hspace : p ' ' = false) (hmark : p ';' = false) :
    rest.takeWhile p = [] ∧ rest.dropWhile p = rest := by
  cases rest with
  | nil => exact ⟨rfl, rfl⟩
  | cons c rest =>
    rcases hrest c rfl with rfl | rfl
    · simp [hspace]
    · simp [hmark]

theorem takeWhile_append {p : Char → Bool} (hspace : p ' ' = false) (hmark : p ';' = false)
    (cs : List Char) : (cs ++ rest).takeWhile p = cs.takeWhile p := by
  induction cs with
  | nil => exact (hrest.takeWhile_eq_nil hspace hmark).1
  | cons c cs ih => simp only [List.cons_append, List.takeWhile_cons, ih]

theorem dropWhile_append {p : Char → Bool} (hspace : p ' ' = false) (hmark : p ';' = false)
    (cs : List Char) : (cs ++ rest).dropWhile p = cs.dropWhile p ++ rest := by
  induction cs with
  | nil => exact (hrest.takeWhile_eq_nil hspace hmark).2
  | cons c cs ih =>
    simp only [List.cons_append, List.dropWhile_cons, ih]
    split
    · rfl
    · rfl

theorem run?_append {cs ds more : List Char} (h : Decimal.run? cs = some (ds, more)) :
    Decimal.run? (cs ++ rest) = some (ds, more ++ rest) := by
  have hrun : Decimal.run (cs ++ rest) = ((Decimal.run cs).1, (Decimal.run cs).2 ++ rest) := by
    simp only [Decimal.run, hrest.takeWhile_append (p := Char.isDigit) (by decide) (by decide),
      hrest.dropWhile_append (p := Char.isDigit) (by decide) (by decide)]
  unfold Decimal.run? at h ⊢
  rw [hrun]
  split at h
  · cases h
  · next hne =>
    rw [if_neg hne]
    cases h
    rfl

/-- A word without spaces and semicolons is not completed by what follows. -/
theorem isPrefixOf?_append {p : List Char} (hp : ∀ c ∈ p, c ≠ ' ' ∧ c ≠ ';') (cs : List Char) :
    p.isPrefixOf? (cs ++ rest) = (p.isPrefixOf? cs).map (· ++ rest) := by
  induction p generalizing cs with
  | nil => rfl
  | cons d p ih =>
    obtain ⟨hspace, hmark⟩ := hp d List.mem_cons_self
    have ih := ih fun c hc => hp c (List.mem_cons_of_mem _ hc)
    cases cs with
    | nil =>
      cases rest with
      | nil => rfl
      | cons c rest =>
        rcases hrest c rfl with rfl | rfl
        · exact isPrefixOf?_cons_ne p rest hspace
        · exact isPrefixOf?_cons_ne p rest hmark
    | cons c cs =>
      rw [List.cons_append, isPrefixOf?_cons, isPrefixOf?_cons]
      split
      · exact ih cs
      · rfl

theorem readSymbol?_append {α : Type} {symbol : α → String} {all : List α}
    (hall : SymbolsApart symbol all) (cs : List Char) :
    readSymbol? symbol all (cs ++ rest) =
      (readSymbol? symbol all cs).map fun p => (p.1, p.2 ++ rest) := by
  unfold readSymbol?
  induction all with
  | nil => rfl
  | cons a all ih =>
    have ih := ih fun b hb => hall b (List.mem_cons_of_mem _ hb)
    rw [List.findSome?_cons, List.findSome?_cons,
      hrest.isPrefixOf?_append (hall a List.mem_cons_self)]
    cases (symbol a).toList.isPrefixOf? cs with
    | none => exact ih
    | some more => rfl

/-! ## Operands -/

theorem register_append {r : Register} {cs more : List Char}
    (h : Register.read? cs = some (r, more)) :
    Register.read? (cs ++ rest) = some (r, more ++ rest) := by
  unfold Register.read? at h
  split at h
  · cases h
    rfl
  · next d more' hten =>
    split at h
    · next hd =>
      cases h
      -- `r1` is not completed to `r10`
      have hzero : ∀ tail, d = '1' → more ++ rest ≠ '0' :: tail := by
        intro tail hone heq
        cases more with
        | nil =>
          have hhead : rest.head? = some '0' := by rw [← List.nil_append rest, heq, List.head?_cons]
          rcases hrest '0' hhead with hc | hc
          · exact absurd hc (by decide)
          · exact absurd hc (by decide)
        | cons c more =>
          cases heq
          exact hten more hone rfl
      rw [List.cons_append, List.cons_append]
      generalize more ++ rest = tail at hzero ⊢
      unfold Register.read?
      split
      · rename_i heq
        cases heq
        exact absurd rfl (hzero _ rfl)
      · rename_i heq
        cases heq
        rw [if_pos hd]
      · rename_i hno
        exact absurd rfl (hno d tail)
    · cases h
  · cases h

theorem form_register_append {f : Operand.Form} {cs more : List Char}
    (h : Operand.Form.register? cs = some (f, more)) :
    Operand.Form.register? (cs ++ rest) = some (f, more ++ rest) := by
  unfold Operand.Form.register? at h
  split at h
  · split at h
    · next hd =>
      cases h
      rw [List.cons_append, List.cons_append, Operand.Form.register?, if_pos hd]
    · cases h
  · obtain ⟨⟨r, tail⟩, hread, heq⟩ := Option.map_eq_some_iff.mp h
    cases heq
    obtain ⟨tail', rfl⟩ := eq_cons_of_register hread
    have hlonger := hrest.register_append hread
    rw [List.cons_append] at hlonger ⊢
    rw [Operand.register?_cons _ (by decide), hlonger]
    rfl

theorem memory_append {m : Operand.MemorySpelling} {cs more : List Char}
    (h : Operand.memory? cs = some (m, more)) :
    Operand.memory? (cs ++ rest) = some (m, more ++ rest) := by
  unfold Operand.memory? at h ⊢
  simp only [Option.bind_eq_bind, Option.bind_eq_some_iff] at h
  obtain ⟨c₁, hopen, ⟨width, c₂⟩, hwidth, c₃, hmiddle, ⟨base, c₄⟩, hbase, c₅, hspace,
    ⟨negative, c₆⟩, hsign, ⟨digits, c₇⟩, hdigits, c₈, hclose, heq⟩ := h
  cases heq
  simp only [isPrefixOf?_of_some hopen rest, width_append hwidth rest,
    isPrefixOf?_of_some hmiddle rest, hrest.register_append hbase, isPrefixOf?_of_some hspace rest,
    sign_append hsign rest, hrest.run?_append hdigits, isPrefixOf?_of_some hclose rest,
    Option.bind_eq_bind, Option.bind_some, Option.pure_def]

theorem decimal_append {cs more : List Char} (h : Operand.decimal? cs = some more) :
    Operand.decimal? (cs ++ rest) = some (more ++ rest) := by
  unfold Operand.decimal? at h
  split at h
  · next tail =>
    obtain ⟨⟨ds, more'⟩, hrun, rfl⟩ := Option.map_eq_some_iff.mp h
    show (Decimal.run? (tail ++ rest)).map Prod.snd = _
    rw [hrest.run?_append hrun]
    rfl
  · next tail =>
    obtain ⟨⟨ds, more'⟩, hrun, rfl⟩ := Option.map_eq_some_iff.mp h
    show (Decimal.run? (tail ++ rest)).map Prod.snd = _
    rw [hrest.run?_append hrun]
    rfl
  · obtain ⟨⟨ds, more'⟩, hrun, rfl⟩ := Option.map_eq_some_iff.mp h
    obtain ⟨c, tail, rfl, hc⟩ := eq_cons_of_run? hrun
    have hlonger := hrest.run?_append hrun
    rw [List.cons_append] at hlonger ⊢
    rw [Operand.decimal?_of_ne _ (ne_of_isDigit hc (by decide)) (ne_of_isDigit hc (by decide)),
      hlonger]
    rfl

theorem hex_append {cs tail : List Char} {d : Char}
    (hno : ∀ d tail, cs ≠ '0' :: 'x' :: d :: tail) (heq : cs ++ rest = '0' :: 'x' :: d :: tail) :
    Operand.isHexDigit d = false := by
  match cs with
  | [] =>
    rcases hrest '0' (by rw [← List.nil_append rest, heq]; rfl) with hc | hc
    · exact absurd hc (by decide)
    · exact absurd hc (by decide)
  | [a] =>
    cases rest with
    | nil => cases heq
    | cons c rest =>
      cases heq
      rcases hrest 'x' rfl with hc | hc
      · exact absurd hc (by decide)
      · exact absurd hc (by decide)
  | [a, b] =>
    cases rest with
    | nil => cases heq
    | cons c rest =>
      cases heq
      rcases hrest d rfl with rfl | rfl
      · decide
      · decide
  | a :: b :: c :: cs =>
    cases heq
    exact absurd rfl (hno d cs)

theorem constant_append {cs more : List Char} (h : Operand.constant? cs = some more) :
    Operand.constant? (cs ++ rest) = some (more ++ rest) := by
  unfold Operand.constant? at h
  split at h
  · next d tail =>
    show (if Operand.isHexDigit d then some ((tail ++ rest).dropWhile Operand.isHexDigit)
      else Operand.decimal? ('0' :: 'x' :: d :: tail ++ rest)) = _
    split at h
    · next hd =>
      cases h
      rw [if_pos hd,
        hrest.dropWhile_append (p := Operand.isHexDigit) (by decide) (by decide)]
    · next hd => rw [if_neg hd, hrest.decimal_append h]
  · next hno =>
    have hlonger := hrest.decimal_append h
    unfold Operand.constant?
    split
    · next d tail heq =>
      rw [if_neg (by simp [hrest.hex_append hno heq])]
      exact hlonger
    · exact hlonger

theorem form_append {choice : Operand.Choice} {f : Operand.Form} {cs more : List Char}
    (h : Operand.Form.read choice cs = .ok (some (f, more))) :
    Operand.Form.read choice (cs ++ rest) = .ok (some (f, more ++ rest)) := by
  unfold Operand.Form.read at h
  split at h
  · next found hfound =>
    cases h
    simp only [Operand.Form.read, hrest.form_register_append hfound]
  · split at h
    · next m tail hmemory =>
      have hchoice : choice.memory = true := by
        by_contra hc
        rw [if_neg hc] at hmemory
        cases hmemory
      rw [if_pos hchoice] at hmemory
      have hregister : Operand.Form.register? (cs ++ rest) = none := by
        cases cs with
        | nil => cases hmemory
        | cons c cs =>
          have hc : c = '*' := by
            by_contra hc
            rw [Operand.memory?_eq_none cs fun heq => hc heq.symm] at hmemory
            cases hmemory
          subst hc
          exact Operand.register?_eq_none (cs ++ rest) (by decide) (by decide)
      split at h
      · cases h
      · next offset hoffset =>
        cases h
        simp only [Operand.Form.read, hregister, if_pos hchoice, hrest.memory_append hmemory,
          hoffset]
    · split at h
      · next hchoice =>
        have hmap := Except.ok.inj h
        obtain ⟨tail, hconstant, heq⟩ := Option.map_eq_some_iff.mp hmap
        cases heq
        have hlonger := hrest.constant_append hconstant
        obtain ⟨c, cs', rfl, hc⟩ := Operand.eq_cons_of_constant? hconstant
        rw [List.cons_append] at hlonger ⊢
        rcases hc with hc | rfl | rfl
        · exact Operand.read_constant hchoice (ne_of_isDigit hc (by decide))
            (ne_of_isDigit hc (by decide)) (ne_of_isDigit hc (by decide)).symm hlonger
        · exact Operand.read_constant hchoice (by decide) (by decide) (by decide) hlonger
        · exact Operand.read_constant hchoice (by decide) (by decide) (by decide) hlonger
      · cases h

theorem operand_append {choice : Operand.Choice} {o : Operand} {cs more : List Char}
    (h : Operand.read choice cs = .ok (o, more)) :
    Operand.read choice (cs ++ rest) = .ok (o.lowered rest.length, more ++ rest) := by
  unfold Operand.read at h
  split at h
  · cases h
  · cases h
  · next form tail hform =>
    cases h
    simp only [Operand.read, hrest.form_append hform, Extent.between_append_append,
      Operand.lowered]

/-- An operator with an operand behind it is read up to that operand. -/
theorem operator_append {α : Type} {symbol : α → String} {all : List α}
    (hall : SymbolsApart symbol all) {a : α} {cs more : List Char}
    (h : readOperator symbol all cs = .ok (a, more)) (hmore : more ≠ []) :
    readOperator symbol all (cs ++ rest) = .ok (a, more ++ rest) := by
  unfold readOperator at h ⊢
  rw [hrest.readSymbol?_append hall]
  split at h
  · next a' tail hsymbol =>
    cases h
    rw [hsymbol]
    simp only [Option.map_some, skipBlanks_append_of_ne_nil hmore]
  · cases h

/-! ## Bodies -/

theorem cast_append {action : Action} {cs more : List Char}
    (h : Action.cast? cs = some (action, more)) :
    Action.cast? (cs ++ rest) = some (action.lowered rest.length, more ++ rest) := by
  obtain ⟨dst, c₁, c₂, src, c₃, c₄, toSpace, c₅, c₆, fromSpace, c₇, hdst, hassign, hsrc, hcomma,
    hto, hcomma', hfrom, hclose, rfl⟩ := Action.cast?_eq_some h
  simp only [Action.cast?, hrest.register_append hdst, isPrefixOf?_of_some hassign rest,
    hrest.register_append hsrc, isPrefixOf?_of_some hcomma rest, hrest.run?_append hto,
    isPrefixOf?_of_some hcomma' rest, hrest.run?_append hfrom, isPrefixOf?_of_some hclose rest,
    Option.bind_eq_bind, Option.bind_some, Option.pure_def, Extent.between_append_append,
    Action.lowered, Operand.lowered]

theorem compute_append {action : Action} {cs : List Char}
    (h : Action.readCompute cs = .ok (action, [])) :
    Action.readCompute (cs ++ rest) =
      .ok (action.lowered rest.length, action.leaves rest) := by
  obtain ⟨dst, c₁, op, c₂, src, c₃, hdst, hop, hsrc, rfl, hskip⟩ := Action.readCompute_ok h
  have hop' : readOperator AluOp.symbol AluOp.all (Text.skipBlanks (c₁ ++ rest)) =
      .ok (op, c₂ ++ rest) := by
    rw [skipBlanks_append_of_ne_nil (ne_nil_of_readOperator (by decide) hop)]
    exact hrest.operator_append AluOp.symbolsApart hop (Operand.ne_nil_of_read hsrc)
  simp only [Action.readCompute, hrest.operand_append hdst, hop', hrest.operand_append hsrc, bind,
    Except.bind, pure, Except.pure, skipBlanks_append_of_eq_nil hskip.symm, Action.lowered,
    Action.leaves]

theorem alu_append {opcode : Opcode} {action : Action} {cs : List Char}
    (h : Action.readAlu opcode cs = .ok (action, [])) :
    Action.readAlu opcode (cs ++ rest) = .ok (action.lowered rest.length, action.leaves rest) := by
  unfold Action.readAlu at h
  split at h
  · next found hcast =>
    cases h
    split at hcast
    · next hmov =>
      have hleaves : action.leaves rest = rest := by
        obtain ⟨-, -, -, -, -, -, -, -, -, -, -, -, -, -, -, -, -, -, -, rfl⟩ :=
          Action.cast?_eq_some hcast
        rfl
      rw [Action.readAlu, if_pos hmov, hrest.cast_append hcast, hleaves]
      rfl
    · cases hcast
  · have hlonger := hrest.compute_append h
    have hnone : (if opcode.opClass = .alu64 ∧ opcode.code = Opcode.mov then
        Action.cast? (cs ++ rest) else none) = none := by
      split
      · cases hcast : Action.cast? (cs ++ rest) with
        | none => rfl
        | some found =>
          obtain ⟨fault, hfault⟩ := Action.readCompute_of_cast? hcast
          rw [hlonger] at hfault
          cases hfault
      · rfl
    rw [Action.readAlu, hnone]
    exact hlonger

theorem position_append {cs target more : List Char}
    (h : Action.position? cs = some (target, more)) :
    Action.position? (cs ++ rest) = some (target, more ++ rest) := by
  unfold Action.position? at h
  split at h
  · next sign tail =>
    split at h
    · next hsign =>
      obtain ⟨⟨digits, more'⟩, hrun, heq⟩ := Option.map_eq_some_iff.mp h
      cases heq
      rw [List.cons_append, List.cons_append, List.cons_append, Action.position?, if_pos hsign,
        hrest.run?_append hrun]
      rfl
    · cases h
  · cases h

theorem goto_append {word : GotoWord} {cs target more : List Char}
    (h : Action.goto? cs = some (word, target, more)) :
    Action.goto? (cs ++ rest) = some (word, target, more ++ rest) := by
  unfold Action.goto? at h ⊢
  simp only [Option.bind_eq_bind, Option.bind_eq_some_iff] at h
  obtain ⟨⟨word, c₁⟩, hword, c₂, hspace, ⟨target, c₃⟩, htarget, heq⟩ := h
  cases heq
  have hword' : readSymbol? GotoWord.text GotoWord.all (cs ++ rest) = _ :=
    hrest.readSymbol?_append GotoWord.symbolsApart cs
  rw [hword] at hword'
  simp only [hword', Option.map_some, isPrefixOf?_of_some hspace rest,
    hrest.position_append htarget, Option.bind_eq_bind, Option.bind_some, Option.pure_def]

theorem readGoto_append {allowed : GotoWord → Bool} {action : Action} {cs : List Char}
    (h : Action.readGoto allowed cs = .ok (action, [])) :
    Action.readGoto allowed (cs ++ rest) =
      .ok (action.lowered rest.length, action.leaves rest) := by
  unfold Action.readGoto at h
  split at h
  · next word target more hgoto =>
    split at h
    · next hallowed =>
      simp only [Except.ok.injEq, Prod.mk.injEq] at h
      obtain ⟨rfl, hskip⟩ := h
      simp only [Action.readGoto, hrest.goto_append hgoto, hallowed, if_true,
        Extent.between_append_append, skipBlanks_append_of_eq_nil hskip, Action.lowered,
        Action.leaves]
    · cases h
  · cases h

theorem readBranch_append {action : Action} {cs : List Char}
    (h : Action.readBranch cs = .ok (action, [])) :
    Action.readBranch (cs ++ rest) =
      .ok (action.lowered rest.length, action.leaves rest) := by
  obtain ⟨c₀, left, c₁, op, c₂, right, c₃, target, c₄, hif, hleft, hop, hright, htarget, rfl,
    hskip⟩ := Action.readBranch_ok h
  have hop' : readOperator Comparison.symbol Comparison.all (Text.skipBlanks (c₁ ++ rest)) =
      .ok (op, c₂ ++ rest) := by
    rw [skipBlanks_append_of_ne_nil (ne_nil_of_readOperator (by decide) hop)]
    exact hrest.operator_append Comparison.symbolsApart hop (Operand.ne_nil_of_read hright)
  have htarget' : Action.target? (Text.skipBlanks (c₃ ++ rest)) = some (target, c₄ ++ rest) := by
    have hne : Text.skipBlanks c₃ ≠ [] := by
      intro hnil
      rw [hnil] at htarget
      cases htarget
    rw [skipBlanks_append_of_ne_nil hne]
    unfold Action.target? at htarget ⊢
    simp only [Option.bind_eq_bind, Option.bind_eq_some_iff] at htarget
    obtain ⟨c, hgoto, hposition⟩ := htarget
    simp only [isPrefixOf?_of_some hgoto rest, Option.bind_eq_bind, Option.bind_some,
      hrest.position_append hposition]
  simp only [Action.readBranch, isPrefixOf?_of_some hif rest, hrest.operand_append hleft, hop',
    hrest.operand_append hright, htarget', bind, Except.bind,
    skipBlanks_append_of_eq_nil hskip.symm, Action.lowered, Action.leaves]

theorem readCall_append {action : Action} {cs : List Char}
    (h : Action.readCall cs = .ok (action, [])) :
    Action.readCall (cs ++ rest) = .ok (action.lowered rest.length, action.leaves rest) := by
  unfold Action.readCall at h
  split at h
  · cases h
  · next tail hcall =>
    simp only at h
    split at h
    · cases h
    · next hne =>
      simp only [Except.ok.injEq, Prod.mk.injEq] at h
      obtain ⟨rfl, hskip⟩ := h
      simp only [Action.readCall, isPrefixOf?_of_some hcall rest,
        hrest.takeWhile_append (p := Action.isNameChar) (by decide) (by decide),
        hrest.dropWhile_append (p := Action.isNameChar) (by decide) (by decide), hne,
        Bool.false_eq_true, if_false, Extent.between_append_append,
        skipBlanks_append_of_eq_nil hskip]
      split
      · rfl
      · rfl

/-- A body that ends a text is read in the same way with more text behind it. -/
theorem read_append {opcode : Opcode} {action : Action} {cs : List Char}
    (h : Action.read opcode cs = .ok (action, [])) :
    Action.read opcode (cs ++ rest) = .ok (action.lowered rest.length, action.leaves rest) := by
  unfold Action.read at h ⊢
  split at h
  · next hjump =>
    rw [if_pos hjump]
    unfold Action.readJump at h ⊢
    split at h
    · exact hrest.readGoto_append h
    · exact hrest.readCall_append h
    · exact Action.readExit_append h rest
    · exact hrest.readBranch_append h
    · cases h
  · next hjump =>
    rw [if_neg hjump]
    exact hrest.alu_append h

end Apart
end VerifierTrace
