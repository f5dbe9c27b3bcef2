import VerifierTrace.LogLine.Basic

/-!
# VerifierTrace.LogLine.Reader

Reading one line of a log. The forms are tried in order:

1. `; code @ file:12` is a source note;
2. `7: (b7) r2 = 1 ; R2_w=1` is an instruction with the facts behind it. A line that begins like
   one and whose body does not fit is not understood, and no further form is tried;
3. `Func#1 ('f') is global and assumed valid.` and `7: R0=1` are notices;
4. anything else is not understood.

White space around a line does not matter. The reader knows nothing but the line. It fails only for
a numeral that is too long; the number of an instruction is read after its body and its facts.
-/

namespace VerifierTrace

namespace SourceNote

def isFileChar (c : Char) : Bool := !Text.isBlank c && c ≠ ':'

/-- Content, file and digits of `; code @ file:12`. They are found from the end of the text, since
neither the digits nor the file can hold a colon or white space. -/
def split? (cs : List Char) : Option (List Char × List Char × List Char) :=
  match Decimal.run? cs.reverse with
  | some (digits, ':' :: rest) =>
    let file := rest.takeWhile isFileChar
    match file, rest.dropWhile isFileChar with
    | _ :: _, ' ' :: '@' :: ' ' :: before =>
      match before.reverse with
      | ';' :: content =>
        if content.contains '\n' then none else some (content, file.reverse, digits.reverse)
      | _ => none
    | _, _ => none
  | _ => none

def read (raw : List Char) : Except NumeralFault (Option SourceNote) :=
  match split? (Text.trim raw) with
  | none => .ok none
  | some (content, file, digits) =>
    match Decimal.read digits with
    | .error e => .error e
    | .ok number =>
      .ok (some ⟨String.ofList file, number, String.ofList (Text.trim content)⟩)

end SourceNote

namespace Notice

/-- Digits and name of `Func#1 ('f') is global and assumed valid.` -/
def globalFunction? (cs : List Char) : Option (List Char × List Char) := do
  let rest ← "Func#".toList.isPrefixOf? cs
  let (digits, rest) ← Decimal.run? rest
  let rest ← " ('".toList.isPrefixOf? rest
  let name := rest.takeWhile (· ≠ '\'')
  let rest := rest.dropWhile (· ≠ '\'')
  let _ ← "') is global and assumed valid.".toList.isPrefixOf? rest
  if name.isEmpty then none else some (digits, name)

def read (raw : List Char) : Except NumeralFault (Option Notice) :=
  match globalFunction? (Text.trim raw) with
  | some (digits, name) =>
    match Decimal.read digits with
    | .error e => .error e
    | .ok id => .ok (some (.globalFunction id (String.ofList name)))
  | none =>
    match StateExpr.readBare raw with
    | .error e => .error e
    | .ok ⟨some pc, e :: more, _⟩ => .ok (some (.stateBlock pc (e :: more)))
    | .ok _ => .ok none

end Notice

namespace Instruction

/-- The opcode byte `(b7)` at the front of a text. -/
def opcode? : List Char → Option (Opcode × List Char)
  | '(' :: high :: low :: ')' :: rest =>
    if Operand.isHexDigit high && Operand.isHexDigit low then
      (Opcode.ofHex? [high, low]).map fun o => (o, rest)
    else none
  | _ => none

/-- The digits of the instruction's number, its opcode, and the text from its body on. -/
def head? (raw : List Char) : Option (List Char × Opcode × List Char) := do
  let (digits, rest) ← StateExpr.pcDigits? (Text.skipBlanks raw)
  let (opcode, rest) ← opcode? (Text.skipBlanks rest)
  return (digits, opcode, Text.skipBlanks rest)

/-- Facts behind an instruction, then its number. -/
def finish (digits : List Char) (opcode : Opcode) (action : Action) (rest : List Char) :
    Except NumeralFault (Instruction × List StateExpr) :=
  match StateExpr.readBlock true rest with
  | .error e => .error e
  | .ok (exprs, _) =>
    match Decimal.read digits with
    | .error e => .error e
    | .ok pc => .ok (⟨opcode, some pc, action⟩, exprs)

end Instruction

namespace Content

/-- A line that is neither a source note nor an instruction. -/
def readNotice (raw : List Char) : Except NumeralFault Content :=
  match Notice.read raw with
  | .error e => .error e
  | .ok (some n) => .ok (.notice n)
  | .ok none => .ok (.unrecognized none)

/-- A line that is no source note. -/
def readInstruction (raw : List Char) : Except NumeralFault Content :=
  match Instruction.head? raw with
  | none => readNotice raw
  | some (digits, opcode, body) =>
    match Action.read opcode body with
    | .error (.body fault) => .ok (.unrecognized (some fault))
    | .error (.numeral e) => .error e
    | .ok (action, rest) =>
      match Instruction.finish digits opcode action rest with
      | .error e => .error e
      | .ok (ins, exprs) => .ok (.instruction ins exprs)

def read (raw : List Char) : Except NumeralFault Content :=
  match SourceNote.read raw with
  | .error e => .error e
  | .ok (some a) => .ok (.source a)
  | .ok none => readInstruction raw

end Content

namespace LogLine

def read (raw : String) (idx : Int) : Except NumeralFault LogLine :=
  match Content.read raw.toList with
  | .error e => .error e
  | .ok content => .ok ⟨idx, raw, content⟩

end LogLine
end VerifierTrace
