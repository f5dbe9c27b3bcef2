import VerifierTrace.Text.Quoted

/-!
# VerifierTrace.Text.Utf8

Texts from bytes in UTF-8.

`Utf8.next` takes the first character, or the longest front of the bytes that no character starts
with and that is not complete in itself. `decode` stops at the first such front and says where and
why; `decodeLossy` puts U+FFFD in its place.
-/

namespace VerifierTrace
namespace Text
namespace Utf8

inductive Reason where
  | start
  | continuation
  | truncated
  deriving DecidableEq, Repr

namespace Reason

def message : Reason → String
  | .start => "invalid start byte"
  | .continuation => "invalid continuation byte"
  | .truncated => "unexpected end of data"

end Reason

/-- What bytes begin with. -/
inductive Piece where
  /-- A character of so many bytes. -/
  | char (c : Char) (size : Nat)
  /-- So many bytes that are no character. -/
  | bad (reason : Reason) (size : Nat)
  deriving DecidableEq, Repr

/-- How many bytes follow a first byte, the least and the greatest second byte, and the bits that
the first byte gives; `none` if no character starts with it. -/
def lead? (b : Nat) : Option (Nat × Nat × Nat × Nat) :=
  if b < 0xC2 then none
  else if b < 0xE0 then some (1, 0x80, 0xBF, b - 0xC0)
  else if b = 0xE0 then some (2, 0xA0, 0xBF, 0)
  else if b = 0xED then some (2, 0x80, 0x9F, 0xD)
  else if b < 0xF0 then some (2, 0x80, 0xBF, b - 0xE0)
  else if b = 0xF0 then some (3, 0x90, 0xBF, 0)
  else if b < 0xF4 then some (3, 0x80, 0xBF, b - 0xF0)
  else if b = 0xF4 then some (3, 0x80, 0x8F, 4)
  else none

/-- `more` further bytes of a character of which `size` bytes gave `bits`; the next one must lie
between `low` and `high`. -/
def follow (low high bits size : Nat) : Nat → List UInt8 → Piece
  | 0, _ => .char (Char.ofNat bits) size
  | _ + 1, [] => .bad .truncated size
  | more + 1, b :: rest =>
    if low ≤ b.toNat ∧ b.toNat ≤ high then
      follow 0x80 0xBF (bits * 64 + (b.toNat - 0x80)) (size + 1) more rest
    else .bad .continuation size

def next (b : UInt8) (rest : List UInt8) : Piece :=
  if b.toNat < 0x80 then .char (Char.ofNat b.toNat) 1
  else match lead? b.toNat with
    | none => .bad .start 1
    | some (more, low, high, bits) => follow low high bits 1 more rest

/-- The pieces of bytes, in order. Each takes at least its first byte; the bytes that it takes
beyond that are skipped. -/
def pieces : Nat → List UInt8 → List Piece
  | _, [] => []
  | skip + 1, _ :: rest => pieces skip rest
  | 0, b :: rest =>
    match next b rest with
    | .char c size => .char c size :: pieces (size - 1) rest
    | .bad reason size => .bad reason size :: pieces (size - 1) rest

/-- Bytes that are no character: where they start, how many they are, the first one, and why. -/
structure Flaw where
  position : Nat
  size : Nat
  byte : Nat
  reason : Reason
  deriving DecidableEq, Repr

namespace Flaw

def message (f : Flaw) : String :=
  let place :=
    if f.size = 1 then
      "byte 0x" ++ String.ofList (hexPadded 2 f.byte) ++ " in position " ++ toString f.position
    else
      "bytes in position " ++ toString f.position ++ "-" ++ toString (f.position + f.size - 1)
  "'utf-8' codec can't decode " ++ place ++ ": " ++ f.reason.message

end Flaw

/-- The characters of pieces, or their first flaw; `position` is where the pieces start. -/
def assemble (bytes : List UInt8) (position : Nat) : List Piece → Except Flaw (List Char)
  | [] => .ok []
  | .char c size :: more =>
    match assemble bytes (position + size) more with
    | .error e => .error e
    | .ok cs => .ok (c :: cs)
  | .bad reason size :: _ =>
    .error ⟨position, size, ((bytes[position]?).map UInt8.toNat).getD 0, reason⟩

def decode (bytes : List UInt8) : Except Flaw (List Char) := assemble bytes 0 (pieces 0 bytes)

/-- The text in bytes, with U+FFFD for every flaw. -/
def decodeLossy (bytes : List UInt8) : List Char :=
  (pieces 0 bytes).map fun p =>
    match p with
    | .char c _ => c
    | .bad .. => '\uFFFD'

end Utf8
end Text
end VerifierTrace
