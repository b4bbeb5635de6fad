import StakingSnapshot.Address
import StakingSnapshot.Binary64
import StakingSnapshot.Word

/-!
# JSON values

A JSON value keeps the members of an object in their order. A number is an integer that fits 64
bits, signed or unsigned, or else a double.

`Json.write` is the text of a value. Characters below U+0020, the quote and the backslash are
escaped, and nothing else is.
-/

namespace StakingSnapshot

/-- A JSON value. -/
inductive Json where
  | null
  | bool (value : Bool)
  | int (value : Int)
  | real (value : Binary64)
  | str (value : String)
  | arr (items : List Json)
  | obj (members : List (String × Json))
  deriving Inhabited

namespace Json

/-- The member of an object under a name; the last one counts. -/
def member? (name : String) : Json → Option Json
  | obj members => (members.reverse.find? fun m => m.1 = name).map Prod.snd
  | _ => none

/-- The text, if the value is one. -/
def text? : Json → Option String
  | str s => some s
  | _ => none

/-- The natural number, if the value is an integer from 0 to `max`. -/
def natUpTo? (max : Nat) : Json → Option Nat
  | int i => if 0 ≤ i ∧ i.toNat ≤ max then some i.toNat else none
  | _ => none

/-- The number, if the value is an integer with 64 bits and a sign. -/
def int64? : Json → Option Int
  | int i => if -0x8000000000000000 ≤ i ∧ i < 0x8000000000000000 then some i else none
  | _ => none

/-- Whether the value is an object. -/
def isObject : Json → Bool
  | obj _ => true
  | _ => false

/-- The fields of a record with these field names. They come by name, where other names do not
matter, or by position, where there may be no more items than names. -/
def fields? (names : List String) : Json → Option (List (Option Json))
  | j@(obj _) => some (names.map fun n => j.member? n)
  | arr items =>
    if items.length ≤ names.length then
      some (items.map some ++ List.replicate (names.length - items.length) none)
    else none
  | _ => none

/-- A word as a quantity. -/
def ofWord (w : Word) : Json := str w.quantity

/-- A natural number. -/
def ofNat (n : Nat) : Json := int (Int.ofNat n)

/-- An address in lower-case digits. -/
def ofAddress (a : Address) : Json := str a.hex

/-- Bytes in digits. -/
def ofBytes (bs : Bytes) : Json := str (Hex.text bs)

/-- Two digits of a code below 256. -/
def twoDigits (n : Nat) : List Char := [Hex.digit (n / 16), Hex.digit (n % 16)]

/-- The text that stands for a character inside quotes. -/
def escape (c : Char) : List Char :=
  if c = '"' then ['\\', '"']
  else if c = '\\' then ['\\', '\\']
  else if c = '\n' then ['\\', 'n']
  else if c = '\r' then ['\\', 'r']
  else if c = '\t' then ['\\', 't']
  else if c.toNat = 8 then ['\\', 'b']
  else if c.toNat = 12 then ['\\', 'f']
  else if c.toNat < 32 then '\\' :: 'u' :: '0' :: '0' :: twoDigits c.toNat
  else [c]

/-- A text in quotes. -/
def quote (s : String) : String := "\"" ++ String.ofList (s.toList.flatMap escape) ++ "\""

/-- The digits without the zeros at the end, of which one stays if nothing else is left. -/
def dropZeros (digits : List Char) : List Char :=
  match (digits.reverse.dropWhile (· = '0')).reverse with
  | [] => ['0']
  | kept => kept

/-- The decimal digits of `n / 10 ^ places`, with at least one digit behind the point. -/
def decimal (n places : Nat) : String :=
  let digits := Nat.toDigits 10 (n % Nat.pow 10 places)
  let fraction := dropZeros (List.replicate (places - digits.length) '0' ++ digits)
  toString (n / Nat.pow 10 places) ++ "." ++ String.ofList fraction

/-- A finite double by all its decimal digits. What is not finite has no text in JSON and counts
as `null`. -/
def realText (x : Binary64) : String :=
  match x.parts? with
  | none => "null"
  | some p =>
    let places := max (-p.exponent).toNat 1
    let scaled := ((p.mantissa <<< p.exponent.toNat) * Nat.pow 10 places) >>> (-p.exponent).toNat
    (if p.negative then "-" else "") ++ decimal scaled places

mutual

/-- The text of a value, without any blanks. -/
def write : Json → String
  | null => "null"
  | bool true => "true"
  | bool false => "false"
  | int i => toString i
  | real x => realText x
  | str s => quote s
  | arr items => "[" ++ ",".intercalate (writeItems items) ++ "]"
  | obj members => "\x7b" ++ ",".intercalate (writeMembers members) ++ "\x7d"

/-- The texts of the items of an array. -/
def writeItems : List Json → List String
  | [] => []
  | j :: js => write j :: writeItems js

/-- The texts of the members of an object. -/
def writeMembers : List (String × Json) → List String
  | [] => []
  | (name, j) :: ms => (quote name ++ ":" ++ write j) :: writeMembers ms

end

end Json

end StakingSnapshot
