import Mathlib.Data.Int.Bitwise
import VerifierTrace.Opcode
import VerifierTrace.Proofs.Numeral.Hexadecimal

/-!
# VerifierTrace.Proofs.Opcode.Byte

The byte of an opcode.

The fields of an opcode lie side by side in a byte, so they are put together again by their weights
(`byte_ofInt`, `ofInt_byte`): nothing of the low byte of a number is lost, and nothing else of the
number counts. Division rounds down, which is what a shift to the right does to the two's complement
of a negative number, and remainders are what masks of ones leave of it (`land_ones`).

* `Opcode.Splits`: the fields are those of the low byte of a number.
* `Opcode.ofHex?_splits`: so they are for each hexadecimal numeral, of any length and sign.
-/

namespace VerifierTrace

/-! ## Masks -/

theorem ldiff_ones (m k : Nat) : Nat.ldiff (2 ^ k - 1) m = 2 ^ k - (m % 2 ^ k + 1) := by
  refine Nat.eq_of_testBit_eq fun i => ?_
  rw [Nat.testBit_ldiff, Nat.testBit_two_pow_sub_one,
    Nat.testBit_two_pow_sub_succ (Nat.mod_lt m (Nat.two_pow_pos k)), Nat.testBit_mod_two_pow]
  cases decide (i < k) <;> rfl

theorem ldiff_bit (m k : Nat) : Nat.ldiff (2 ^ k) m = (!m.testBit k).toNat * 2 ^ k := by
  refine Nat.eq_of_testBit_eq fun i => ?_
  rw [Nat.testBit_ldiff, Nat.testBit_two_pow]
  by_cases hi : k = i
  · subst hi
    cases m.testBit k <;> simp
  · cases m.testBit k <;> simp [hi]

theorem land_ones (v : Int) (k : Nat) : Int.land v ((2 ^ k - 1 : Nat) : Int) = v % 2 ^ k := by
  cases v with
  | ofNat m =>
    show ((m &&& (2 ^ k - 1) : Nat) : Int) = m % 2 ^ k
    rw [Nat.and_two_pow_sub_one_eq_mod]
    push_cast
    rfl
  | negSucc m =>
    -- in two's complement the number has the bits that `m` does not have
    have hlt : m % 2 ^ k + 1 ≤ 2 ^ k := Nat.mod_lt m (Nat.two_pow_pos k)
    show ((Nat.ldiff (2 ^ k - 1) m : Nat) : Int) = _
    rw [ldiff_ones, Int.negSucc_emod m (Int.pow_pos (by decide)), Int.natCast_sub hlt]
    push_cast
    omega

theorem land_bit_ne_zero_iff (v : Int) (k : Nat) :
    Int.land v ((2 ^ k : Nat) : Int) ≠ 0 ↔ v / 2 ^ k % 2 = 1 := by
  have hweight : ∀ b : Bool, ((b.toNat * 2 ^ k : Nat) : Int) ≠ 0 ↔ b = true := by
    intro b
    cases b <;> simp
  cases v with
  | ofNat m =>
    have hdiv : Int.ofNat m / 2 ^ k = ((m / 2 ^ k : Nat) : Int) := by
      push_cast
      rfl
    show ((m &&& 2 ^ k : Nat) : Int) ≠ 0 ↔ _
    rw [Nat.and_two_pow, hweight, Nat.testBit_eq_decide_div_mod_eq, decide_eq_true_iff, hdiv]
    omega
  | negSucc m =>
    have hdiv : Int.negSucc m / 2 ^ k = -((m / 2 ^ k : Nat) : Int) - 1 := by
      rw [Int.negSucc_ediv m (Int.pow_pos (by decide)), ← Int.div_def]
      push_cast
      omega
    show ((Nat.ldiff (2 ^ k) m : Nat) : Int) ≠ 0 ↔ _
    rw [ldiff_bit, hweight, Nat.testBit_eq_decide_div_mod_eq, Bool.not_eq_true',
      decide_eq_false_iff_not, hdiv]
    omega

/-- The weight of the source in the low half of the byte. -/
def OpSource.bit : OpSource → Nat
  | .constant => 0
  | .register => 1

theorem OpSource.bit_le (s : OpSource) : s.bit ≤ 1 := by cases s <;> decide

namespace Opcode

/-- The byte with the fields of an opcode. -/
def byte (o : Opcode) : Nat := o.opClass.number + 8 * o.source.bit + 16 * o.code

/-! ## Fields -/

theorem number_ofInt (v : Int) : ((ofInt v).opClass.number : Int) = v % 8 := by
  have hnumber : (ofInt v).opClass.number = (v % 8).toNat := OpClass.number_ofNumber (by omega)
  rw [hnumber]
  omega

theorem bit_ofInt (v : Int) : ((ofInt v).source.bit : Int) = v / 8 % 2 := by
  show ((if v / 8 % 2 = 1 then OpSource.register else .constant).bit : Int) = _
  split
  · next h => rw [h]; rfl
  · next h =>
    show (0 : Int) = _
    omega

theorem code_ofInt (v : Int) : ((ofInt v).code : Int) = v / 16 % 16 := by
  show ((v / 16 % 16).toNat : Int) = _
  omega

/-- The fields of a number are put together to its low byte. -/
theorem byte_ofInt (v : Int) : ((ofInt v).byte : Int) = v % 256 := by
  have hnumber := number_ofInt v
  have hbit := bit_ofInt v
  have hcode := code_ofInt v
  unfold byte
  omega

theorem code_ofInt_lt (v : Int) : (ofInt v).code < 16 := by
  have hcode := code_ofInt v
  omega

theorem ofInt_byte {o : Opcode} (h : o.code < 16) : ofInt o.byte = o := by
  obtain ⟨opClass, code, source⟩ := o
  have hclass := opClass.number_lt
  have hsource := source.bit_le
  have hlow : ∀ b : Nat, b = opClass.number + 8 * source.bit + 16 * code →
      ((b : Int) % 8).toNat = opClass.number ∧ ((b : Int) / 16 % 16).toNat = code ∧
        (b : Int) / 8 % 2 = source.bit := by
    intro b hb
    simp only at h
    omega
  obtain ⟨hnumber, hcode, hbit⟩ := hlow _ rfl
  rw [ofInt, byte, hnumber, hcode, hbit, OpClass.ofNumber_number]
  cases source <;> rfl

theorem ofInt_eq_iff {v w : Int} : ofInt v = ofInt w ↔ v % 256 = w % 256 := by
  rw [← byte_ofInt, ← byte_ofInt]
  constructor
  · intro h
    rw [h]
  · intro h
    rw [← ofInt_byte (code_ofInt_lt v), h, ofInt_byte (code_ofInt_lt w)]

/-- The fields of the opcode are those of the low byte of the number: what masks and a shift leave of
its two's complement, and together the whole byte. -/
structure Splits (o : Opcode) (v : Int) : Prop where
  opClass : (o.opClass.number : Int) = Int.land v 7
  source : o.source = .register ↔ Int.land v 8 ≠ 0
  code : (o.code : Int) = Int.land (v >>> (4 : Nat)) 15
  opClass_le : o.opClass.number ≤ 7
  code_le : o.code ≤ 15
  byte : (o.opClass.number : Int) + 8 * o.source.bit + 16 * o.code = v % 256

theorem splits_ofInt (v : Int) : (ofInt v).Splits v where
  opClass := (number_ofInt v).trans (land_ones v 3).symm
  source := by
    rw [show Int.land v 8 ≠ 0 ↔ v / 8 % 2 = 1 from land_bit_ne_zero_iff v 3]
    show (if v / 8 % 2 = 1 then OpSource.register else .constant) = .register ↔ _
    split
    · next h => simp [h]
    · next h => simp [h]
  code := by
    rw [Int.shiftRight_eq_div_pow]
    exact (code_ofInt v).trans (land_ones (v / 16) 4).symm
  opClass_le := Nat.le_of_lt_succ (ofInt v).opClass.number_lt
  code_le := Nat.le_of_lt_succ (code_ofInt_lt v)
  byte := by
    rw [← byte_ofInt, byte]
    push_cast
    rfl

/-! ## Numerals -/

theorem ofHex?_text (n : Numeral.Hexadecimal) : ofHex? n.text = some (ofInt n.value) := by
  rw [ofHex?, n.hex?_text]
  rfl

theorem isSome_ofHex?_iff {text : List Char} :
    (ofHex? text).isSome = true ↔ ∃ n : Numeral.Hexadecimal, n.text = text := by
  rw [ofHex?, Option.isSome_map, Option.isSome_iff_exists]
  constructor
  · rintro ⟨v, hv⟩
    obtain ⟨n, htext, -⟩ := Numeral.hex?_eq_some_iff.mp hv
    exact ⟨n, htext⟩
  · rintro ⟨n, rfl⟩
    exact ⟨n.value, n.hex?_text⟩

/-- An opcode is read from the hexadecimal numerals, which there are for all numbers, and from nothing
else. Its fields are those of the low byte, so two numerals give the same opcode just if their numbers
agree in it. The classes of opcodes make up two families. -/
theorem ofHex?_splits :
    (∀ n : Numeral.Hexadecimal, ∃ o, ofHex? n.text = some o ∧ o.Splits n.value) ∧
      (∀ n m : Numeral.Hexadecimal,
        ofHex? n.text = ofHex? m.text ↔ n.value % 256 = m.value % 256) ∧
      (∀ text, (ofHex? text).isSome = true ↔ ∃ n : Numeral.Hexadecimal, n.text = text) ∧
      (∀ v : Int, ∃ n : Numeral.Hexadecimal, n.value = v) ∧
      ∀ o : Opcode, o.isAlu = true ∧ o.isJump = false ∨ o.isAlu = false ∧ o.isJump = true := by
  refine ⟨fun n => ⟨ofInt n.value, ofHex?_text n, splits_ofInt n.value⟩, fun n m => ?_,
    fun text => isSome_ofHex?_iff, Numeral.Hexadecimal.exists_value, fun o => ?_⟩
  · rw [ofHex?_text, ofHex?_text, Option.some.injEq, ofInt_eq_iff]
  · rw [isAlu, isJump]
    cases o.opClass <;> decide

example : ofHex? " -0x_75".toList = some ⟨.stx, 8, .register⟩ := by decide

end Opcode
end VerifierTrace
