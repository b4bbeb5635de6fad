import StakingSnapshot.Json
import StakingSnapshot.Text

/-!
# Reading JSON

`Json.parse?` reads the text of one value. Blanks may stand between tokens, and nothing may follow
the value.
-/

namespace StakingSnapshot

namespace Json

/-- The characters from the first on that is no blank. -/
def skipBlanks (cs : List Char) : List Char :=
  cs.dropWhile fun c => c = ' ' || c = '\n' || c = '\t' || c = '\r'

/-! ## Texts -/

/-- The character that a letter behind a backslash stands for. -/
def shortEscape? : Char → Option Nat
  | '"' => some 34
  | '\\' => some 92
  | '/' => some 47
  | 'b' => some 8
  | 'f' => some 12
  | 'n' => some 10
  | 'r' => some 13
  | 't' => some 9
  | _ => none

/-- The codes of a text from behind the opening quote, put in front of those already read in
reverse order, and what follows the closing quote. -/
def codes : List Nat → List Char → Option (List Nat × List Char)
  | acc, '"' :: rest => some (acc.reverse, rest)
  | acc, '\\' :: 'u' :: a :: b :: c :: d :: rest =>
    match Hex.value? a.toNat, Hex.value? b.toNat, Hex.value? c.toNat, Hex.value? d.toNat with
    | some a, some b, some c, some d => codes ((((a * 16 + b) * 16 + c) * 16 + d) :: acc) rest
    | _, _, _, _ => none
  | acc, '\\' :: c :: rest =>
    match shortEscape? c with
    | some n => codes (n :: acc) rest
    | none => none
  | acc, c :: rest => if c.toNat < 32 ∨ c = '\\' then none else codes (c.toNat :: acc) rest
  | _, [] => none

/-- The code is the first half of a pair. -/
def isHighHalf (n : Nat) : Bool := 0xD800 ≤ n && n < 0xDC00

/-- The code is the second half of a pair. -/
def isLowHalf (n : Nat) : Bool := 0xDC00 ≤ n && n < 0xE000

/-- The characters of codes, where two halves make one character and none may stand alone. They
are put in front of those already read in reverse order. -/
def joinHalves : List Char → List Nat → Option (List Char)
  | acc, [] => some acc.reverse
  | acc, [n] => if isHighHalf n || isLowHalf n then none else some (Char.ofNat n :: acc).reverse
  | acc, n :: m :: rest =>
    if isHighHalf n then
      if isLowHalf m then
        joinHalves (Char.ofNat (0x10000 + (n - 0xD800) * 0x400 + (m - 0xDC00)) :: acc) rest
      else none
    else if isLowHalf n then none
    else joinHalves (Char.ofNat n :: acc) (m :: rest)

/-- A text from behind the opening quote, and what follows the closing one. -/
def readText (cs : List Char) : Option (String × List Char) := do
  let (ns, rest) ← codes [] cs
  return (String.ofList (← joinHalves [] ns), rest)

/-! ## Numbers -/

/-- The character may stand in a number. -/
def inNumber (c : Char) : Bool :=
  c.isDigit || c = '-' || c = '+' || c = '.' || c = 'e' || c = 'E'

/-- The digits behind a point, if there is one, and what follows them. -/
def readFraction : List Char → Option (List Char × List Char)
  | '.' :: rest =>
    let digits := rest.takeWhile Char.isDigit
    if digits.isEmpty then none else some (digits, rest.dropWhile Char.isDigit)
  | rest => some ([], rest)

/-- The exponent that digits with an optional sign denote. -/
def readSigned (cs : List Char) : Option Int :=
  let digits := match cs with
    | '-' :: rest | '+' :: rest => rest
    | rest => rest
  if digits.isEmpty || !digits.all Char.isDigit then none
  else
    let n := Decimal.value digits
    some (if cs.head? = some '-' then -Int.ofNat n else Int.ofNat n)

/-- The exponent behind its mark, which is zero if there is none. -/
def readExponent : List Char → Option Int
  | [] => some 0
  | c :: rest => if c = 'e' ∨ c = 'E' then readSigned rest else none

/-- The double nearest to `m * 10 ^ e`, unless that is infinite. -/
def doubleOf (m : Nat) (e : Int) : Option Binary64 :=
  if m = 0 ∨ e + (Nat.toDigits 10 m).length < -400 then some ⟨0⟩
  else if 400 < e then none
  else
    let x := Binary64.ofQuotient (m * Nat.pow 10 e.toNat) (Nat.pow 10 (-e).toNat)
    if x.parts?.isSome then some x else none

/-- The number that a text without a sign denotes. With a point or an exponent it is a double, and
so is what 64 bits cannot hold, and minus zero. -/
def numberOf (negative : Bool) (cs : List Char) : Option Json := do
  let whole := cs.takeWhile Char.isDigit
  if whole.isEmpty ∨ (whole.head? = some '0' ∧ 1 < whole.length) then none
  else
    let rest := cs.dropWhile Char.isDigit
    let n := Decimal.value whole
    if rest.isEmpty ∧ (if negative then 0 < n ∧ n ≤ 0x8000000000000000 else n ≤ Word.maxNat64) then
      some (.int (if negative then -Int.ofNat n else Int.ofNat n))
    else
      let (fraction, rest) ← readFraction rest
      let e ← readExponent rest
      let x ← doubleOf (Decimal.value (whole ++ fraction)) (e - fraction.length)
      return .real (if negative then x.negate else x)

/-- A number, and what follows it. -/
def readNumber (cs : List Char) : Option (Json × List Char) := do
  let rest := cs.dropWhile inNumber
  let j ← match cs.takeWhile inNumber with
    | '-' :: digits => numberOf true digits
    | digits => numberOf false digits
  return (j, rest)

/-! ## Values -/

mutual

/-- A value and what follows it, where `fuel` bounds the number of steps. -/
def readValue : (fuel : Nat) → List Char → Option (Json × List Char)
  | 0, _ => none
  | fuel + 1, cs =>
    match skipBlanks cs with
    | 'n' :: 'u' :: 'l' :: 'l' :: rest => some (null, rest)
    | 't' :: 'r' :: 'u' :: 'e' :: rest => some (bool true, rest)
    | 'f' :: 'a' :: 'l' :: 's' :: 'e' :: rest => some (bool false, rest)
    | '"' :: rest => (readText rest).map fun (s, rest) => (str s, rest)
    | '[' :: rest =>
      match skipBlanks rest with
      | ']' :: rest => some (arr [], rest)
      | rest => readItems fuel [] rest
    | '{' :: rest =>
      match skipBlanks rest with
      | '}' :: rest => some (obj [], rest)
      | rest => readMembers fuel [] rest
    | rest => readNumber rest

/-- The items of an array that follow those already read in reverse order. -/
def readItems : (fuel : Nat) → List Json → List Char → Option (Json × List Char)
  | 0, _, _ => none
  | fuel + 1, acc, cs =>
    match readValue fuel cs with
    | none => none
    | some (j, rest) =>
      match skipBlanks rest with
      | ',' :: rest => readItems fuel (j :: acc) rest
      | ']' :: rest => some (arr (j :: acc).reverse, rest)
      | _ => none

/-- The members of an object that follow those already read in reverse order. -/
def readMembers : (fuel : Nat) → List (String × Json) → List Char → Option (Json × List Char)
  | 0, _, _ => none
  | fuel + 1, acc, cs =>
    match skipBlanks cs with
    | '"' :: rest =>
      match readText rest with
      | none => none
      | some (name, rest) =>
        match skipBlanks rest with
        | ':' :: rest =>
          match readValue fuel rest with
          | none => none
          | some (j, rest) =>
            match skipBlanks rest with
            | ',' :: rest => readMembers fuel ((name, j) :: acc) rest
            | '}' :: rest => some (obj ((name, j) :: acc).reverse, rest)
            | _ => none
        | _ => none
    | _ => none

end

/-- The value that a text writes. Each character takes at most two steps. -/
def parse? (s : String) : Option Json :=
  match readValue (2 * s.length + 2) s.toList with
  | some (j, rest) => if (skipBlanks rest).isEmpty then some j else none
  | none => none

end Json

end StakingSnapshot
