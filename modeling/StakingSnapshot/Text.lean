import StakingSnapshot.Bytes

/-!
# Blanks and digits

What stands around a number in a text, and the digits that it is written with.

* `Text.trim` removes the characters with the Unicode property `White_Space` from both ends of a
  text. The zero-width space U+200B does not have the property.
* `Decimal.number?` reads a natural number: at least one decimal digit, after at most one `+`.
* `Hex.encode` writes two lower-case digits for each byte; `Hex.decode` reads digits of either
  case and says which character or which length was wrong.
* `Hex.dropMarks` removes every `0x` in front of a text.
* `Hex.number?` reads a number, over whose digits `_` may be strewn.
-/

namespace StakingSnapshot

namespace Text

/-- The ranges of code points with the property `White_Space`. -/
def blankRanges : List (Nat × Nat) :=
  [(0x09, 0x0D), (0x20, 0x20), (0x85, 0x85), (0xA0, 0xA0), (0x1680, 0x1680), (0x2000, 0x200A),
    (0x2028, 0x2029), (0x202F, 0x202F), (0x205F, 0x205F), (0x3000, 0x3000)]

/-- The character has the property `White_Space`. -/
def isBlank (c : Char) : Bool := blankRanges.any fun (lo, hi) => lo ≤ c.toNat && c.toNat ≤ hi

/-- The characters without the blank ones at both ends. -/
def trim (cs : List Char) : List Char :=
  ((cs.dropWhile isBlank).reverse.dropWhile isBlank).reverse

/-- The text without the blank characters at both ends. -/
def trimString (s : String) : String := String.ofList (trim s.toList)

/-- The text has nothing but blank characters. -/
def isBlankText (s : String) : Bool := (trim s.toList).isEmpty

example : isBlank '\u200b' = false ∧ isBlank '\u3000' = true := by decide

end Text

namespace Decimal

/-- The number that decimal digits spell. -/
def value (digits : List Char) : Nat := digits.foldl (fun n c => 10 * n + (c.toNat - 48)) 0

/-- The characters without one `+` in front. -/
def dropPlus : List Char → List Char
  | '+' :: rest => rest
  | cs => cs

/-- The number that the characters denote. -/
def number? (cs : List Char) : Option Nat :=
  let digits := dropPlus cs
  if digits.isEmpty then none
  else if digits.all Char.isDigit then some (value digits)
  else none

example : number? ['+', '0', '7'] = some 7 ∧ number? ['+'] = none ∧ number? [] = none := by decide

end Decimal

namespace Hex

/-- The lower-case digit of a value below 16. -/
def digit (n : Nat) : Char := if n < 10 then Char.ofNat (48 + n) else Char.ofNat (87 + n)

/-- The value of a hexadecimal digit of either case, given by its code. -/
def value? (code : Nat) : Option Nat :=
  if 48 ≤ code ∧ code ≤ 57 then some (code - 48)
  else if 97 ≤ code ∧ code ≤ 102 then some (code - 87)
  else if 65 ≤ code ∧ code ≤ 70 then some (code - 55)
  else none

/-- Two digits for each byte. -/
def encode (bs : Bytes) : List Char :=
  bs.flatMap fun b => [digit (b.toNat / 16), digit (b.toNat % 16)]

/-- The bytes as text: `0x` and two digits for each byte. -/
def text (bs : Bytes) : String := "0x" ++ String.ofList (encode bs)

/-- What can be wrong with digits that should spell bytes. -/
inductive Malformed where
  /-- The digits do not come in pairs. -/
  | oddLength
  /-- The byte of the text at this position is no digit. -/
  | badDigit (byte : UInt8) (position : Nat)
  deriving DecidableEq

/-- The digits of the code of a character that is written by its code. -/
def codeText (n : Nat) : String := "\\u\x7b" ++ String.ofList (Nat.toDigits 16 n) ++ "\x7d"

/-- A character below U+0100 in quotes. A quote, a backslash, the common control characters and
everything that has no picture of its own are written as escapes. -/
def quoted (byte : UInt8) : String :=
  let n := byte.toNat
  let inner :=
    if n = 0 then "\\0"
    else if n = 9 then "\\t"
    else if n = 10 then "\\n"
    else if n = 13 then "\\r"
    else if n = 39 then "\\'"
    else if n = 92 then "\\\\"
    else if n < 32 ∨ (127 ≤ n ∧ n ≤ 160) ∨ n = 173 then codeText n
    else String.singleton (Char.ofNat n)
  "'" ++ inner ++ "'"

/-- What the reader says. -/
def Malformed.message : Malformed → String
  | .oddLength => "Odd number of digits"
  | .badDigit byte position => s!"Invalid character {quoted byte} at position {position}"

/-- The bytes that pairs of digits spell, from position `at` of the text on. -/
def decodePairs : Nat → Bytes → Except Malformed Bytes
  | _, [] => .ok []
  | _, [_] => .error .oddLength
  | position, a :: b :: rest =>
    match value? a.toNat, value? b.toNat with
    | none, _ => .error (.badDigit a position)
    | some _, none => .error (.badDigit b (position + 1))
    | some x, some y =>
      match decodePairs (position + 2) rest with
      | .error e => .error e
      | .ok bs => .ok (UInt8.ofNat (16 * x + y) :: bs)

/-- The bytes that the digits spell. That the digits pair up is checked first. -/
def decode (digits : Bytes) : Except Malformed Bytes :=
  if digits.length % 2 = 1 then .error .oddLength else decodePairs 0 digits

/-- The characters without any `0x` in front. -/
def dropMarks : List Char → List Char
  | '0' :: 'x' :: rest => dropMarks rest
  | cs => cs

/-- One more digit of a number in the given base; `_` counts for nothing. -/
def stepDigit (base : Nat) (n : Option Nat) (c : Char) : Option Nat :=
  if c = '_' then n
  else do
    let v ← value? c.toNat
    if v < base then some (base * (← n) + v) else none

/-- The number that digits in the given base, at most 16, spell; `_` may stand anywhere. -/
def number? (base : Nat) (cs : List Char) : Option Nat := cs.foldl (stepDigit base) (some 0)

end Hex

end StakingSnapshot
