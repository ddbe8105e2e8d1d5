/-!
# Format specifications

A replacement field such as `{:#010x}` says how one value is written. `Spec.parse?` reads a
field, `Spec.renderNat` and `Spec.renderText` apply it to a natural number and to a text.

- a number is padded on the left unless aligned otherwise; the zero flag pads between the sign
  or radix mark and the digits, and overrides fill and alignment;
- a text is cut to the precision, then padded on the right unless aligned otherwise.
-/

namespace Endian.Text

inductive Align where
  | left
  | center
  | right
deriving DecidableEq, Repr

/-- What a field asks to see of a value. -/
inductive Style where
  | display
  | lowerHex
  | debug
deriving DecidableEq, Repr

/-- How a value is written. -/
structure Spec where
  fill : Char := ' '
  align : Option Align := none
  /-- Write `+` before a number that is not negative. -/
  plus : Bool := false
  /-- Write the radix mark, or spread structured output over several lines. -/
  alternate : Bool := false
  /-- Pad a number with zeros. -/
  zero : Bool := false
  width : Option Nat := none
  precision : Option Nat := none
  style : Style := .display
deriving DecidableEq, Repr

namespace Spec

/-! ### Reading a field -/

def alignOf? : Char → Option Align
  | '<' => some .left
  | '^' => some .center
  | '>' => some .right
  | _ => none

/-- An alignment mark, with the fill character that may stand before it. -/
def readAlign (s : Spec) : List Char → Spec × List Char
  | c :: d :: r =>
    match alignOf? d, alignOf? c with
    | some a, _ => ({ s with fill := c, align := some a }, r)
    | none, some a => ({ s with align := some a }, d :: r)
    | none, none => (s, c :: d :: r)
  | [c] =>
    match alignOf? c with
    | some a => ({ s with align := some a }, [])
    | none => (s, [c])
  | [] => (s, [])

def readSign (s : Spec) : List Char → Spec × List Char
  | '+' :: r => ({ s with plus := true }, r)
  | '-' :: r => (s, r)
  | r => (s, r)

def readAlternate (s : Spec) : List Char → Spec × List Char
  | '#' :: r => ({ s with alternate := true }, r)
  | r => (s, r)

def readZero (s : Spec) : List Char → Spec × List Char
  | '0' :: r => ({ s with zero := true }, r)
  | r => (s, r)

/-- The decimal number at the head of a text, if a digit stands there. -/
def readNat (r : List Char) : Option Nat × List Char :=
  let digits := r.takeWhile Char.isDigit
  if digits.isEmpty then (none, r)
  else (some (digits.foldl (fun n c => 10 * n + (c.toNat - '0'.toNat)) 0), r.dropWhile Char.isDigit)

def readWidth (s : Spec) (r : List Char) : Spec × List Char :=
  ({ s with width := (readNat r).1 }, (readNat r).2)

def readPrecision (s : Spec) : List Char → Spec × List Char
  | '.' :: r => ({ s with precision := (readNat r).1 }, (readNat r).2)
  | r => (s, r)

/-- The style letters end the field. Hexadecimal numbers inside debug output change nothing here. -/
def readStyle? (s : Spec) : List Char → Option Spec
  | [] => some s
  | ['x'] => some { s with style := .lowerHex }
  | ['?'] => some { s with style := .debug }
  | ['x', '?'] => some { s with style := .debug }
  | ['X', '?'] => some { s with style := .debug }
  | _ => none

/-- Reads the part of a field after the colon. -/
def parseBody? (r : List Char) : Option Spec :=
  let (s, r) := readAlign {} r
  let (s, r) := readSign s r
  let (s, r) := readAlternate s r
  let (s, r) := readZero s r
  let (s, r) := readWidth s r
  let (s, r) := readPrecision s r
  readStyle? s r

/-- Reads a whole field, braces included. -/
def parse? (field : String) : Option Spec :=
  match field.toList with
  | '\x7b' :: r =>
    match r.reverse with
    | '\x7d' :: body =>
      match body.reverse with
      | [] => some {}
      | ':' :: r => parseBody? r
      | _ => none
    | _ => none
  | _ => none

/-! ### Writing -/

/-- Pads a text to the width, with `side` where the field gives no alignment. -/
def pad (s : Spec) (side : Align) (text : List Char) : List Char :=
  let total := s.width.getD 0 - text.length
  let before := match s.align.getD side with
    | .left => 0
    | .center => total / 2
    | .right => total
  List.replicate before s.fill ++ text ++ List.replicate (total - before) s.fill

/-- Writes a text, cut to the precision. -/
def renderText (s : Spec) (text : String) : String :=
  let chars := text.toList
  String.ofList (s.pad .left (match s.precision with
    | some n => chars.take n
    | none => chars))

/-- Digits in the radix that the style asks for. -/
def digits (s : Spec) (n : Nat) : List Char :=
  Nat.toDigits (if s.style = .lowerHex then 16 else 10) n

/-- Sign and radix mark of a number. -/
def mark (s : Spec) : List Char :=
  (if s.plus then ['+'] else []) ++ (if s.alternate ∧ s.style = .lowerHex then ['0', 'x'] else [])

/-- Writes a natural number; the precision does not touch it. -/
def renderNat (s : Spec) (n : Nat) : String :=
  let mark := s.mark
  let digits := s.digits n
  String.ofList (if s.zero then
      mark ++ List.replicate (s.width.getD 0 - mark.length - digits.length) '0' ++ digits
    else s.pad .right (mark ++ digits))

/-- Decimal, no padding. -/
def plain : Spec := {}

/-- Hexadecimal with its radix mark, no padding. -/
def markedHex : Spec := { alternate := true, style := .lowerHex }

end Spec

end Endian.Text
