/-!
# PrintfLint.Json — reading JSON

* `Json` — a JSON value; numbers keep their spelling, texts are code points;
* `Json.read?` — the value that a text spells.

The three words `NaN`, `Infinity` and `-Infinity` are read as numbers. An integer has at most 4300
digits. An escape may stand for one half of a surrogate pair, so a text of code points need not be a
string of characters.
-/

namespace PrintfLint

/-- A JSON value. -/
inductive Json where
  | null
  | bool (b : Bool)
  | number (spelling : String)
  | text (codes : List Nat)
  | list (items : List Json)
  | object (fields : List (List Nat × Json))

namespace Json

/-! ## Texts -/

/-- The value of a hexadecimal digit. -/
def hexDigit? (c : Char) : Option Nat :=
  if c.isDigit then some (c.toNat - '0'.toNat)
  else if 'a' ≤ c ∧ c ≤ 'f' then some (c.toNat - 'a'.toNat + 10)
  else if 'A' ≤ c ∧ c ≤ 'F' then some (c.toNat - 'A'.toNat + 10)
  else none

/-- The number that hexadecimal digits spell. -/
def hexNumber? (cs : List Char) : Option Nat :=
  cs.foldl (fun n c => do return 16 * (← n) + (← hexDigit? c)) (some 0)

/-- The code point of an escape of one letter. -/
def escape? : Char → Option Nat
  | '"' => some 0x22
  | '\\' => some 0x5C
  | '/' => some 0x2F
  | 'b' => some 0x08
  | 'f' => some 0x0C
  | 'n' => some 0x0A
  | 'r' => some 0x0D
  | 't' => some 0x09
  | _ => none

/-- The code points up to the closing quotation mark, and what follows it. -/
def codes? : List Char → Option (List Nat × List Char)
  | [] => none
  | '"' :: rest => some ([], rest)
  | '\\' :: 'u' :: a :: b :: c :: d :: rest => do
    let code ← hexNumber? [a, b, c, d]
    let (codes, rest) ← codes? rest
    return (code :: codes, rest)
  | '\\' :: e :: rest => do
    let code ← escape? e
    let (codes, rest) ← codes? rest
    return (code :: codes, rest)
  | c :: rest => do
    guard (0x20 ≤ c.toNat)
    let (codes, rest) ← codes? rest
    return (c.toNat :: codes, rest)

/-- Puts surrogate pairs together. -/
def joinPairs : List Nat → List Nat
  | [] => []
  | [code] => [code]
  | high :: low :: rest =>
    if 0xD800 ≤ high ∧ high < 0xDC00 ∧ 0xDC00 ≤ low ∧ low < 0xE000 then
      (0x10000 + (high - 0xD800) * 0x400 + (low - 0xDC00)) :: joinPairs rest
    else high :: joinPairs (low :: rest)

/-- The string that code points make, if all of them are characters. -/
def string? (codes : List Nat) : Option String :=
  if codes.all fun n => n.isValidChar then some (String.ofList (codes.map Char.ofNat)) else none

/-! ## Numbers -/

/-- Digits at the front, after some characters that lead to them; nothing if there are none. -/
def digitsAfter (lead : List Char) (cs : List Char) : List Char × List Char :=
  match cs.takeWhile Char.isDigit with
  | [] => ([], lead ++ cs)
  | digits => (lead ++ digits, cs.dropWhile Char.isDigit)

/-- The integer part of a number: a zero stands alone. -/
def integerPart? : List Char → Option (List Char × List Char)
  | '0' :: rest => some (['0'], rest)
  | cs =>
    match cs.takeWhile Char.isDigit with
    | [] => none
    | digits => some (digits, cs.dropWhile Char.isDigit)

/-- The fraction of a number, with its point; nothing if no digit follows the point. -/
def fractionPart : List Char → List Char × List Char
  | '.' :: rest => digitsAfter ['.'] rest
  | cs => ([], cs)

/-- The exponent of a number, with its letter and sign; nothing if no digit follows. -/
def exponentPart : List Char → List Char × List Char
  | e :: s :: rest =>
    if e = 'e' ∨ e = 'E' then
      if s = '+' ∨ s = '-' then digitsAfter [e, s] rest else digitsAfter [e] (s :: rest)
    else ([], e :: s :: rest)
  | cs => ([], cs)

/-- A number without sign. -/
def unsigned? (cs : List Char) : Option (List Char × List Char) := do
  let (whole, rest) ← integerPart? cs
  let (fraction, rest) := fractionPart rest
  let (exponent, rest) := exponentPart rest
  guard (!fraction.isEmpty || !exponent.isEmpty || whole.length ≤ 4300)
  return (whole ++ fraction ++ exponent, rest)

/-! ## Values -/

/-- Drops what may stand between the parts of a value. -/
def skip (cs : List Char) : List Char :=
  cs.dropWhile fun c => c = ' ' || c = '\t' || c = '\n' || c = '\r'

/-- What follows a word at the front. -/
def afterWord? (word : String) (cs : List Char) : Option (List Char) :=
  if word.toList.isPrefixOf cs then some (cs.drop word.length) else none

/-- The values that are spelled by a word. -/
def words : List (String × Json) :=
  [("null", null), ("true", bool true), ("false", bool false), ("NaN", number "NaN"),
    ("Infinity", number "Infinity"), ("-Infinity", number "-Infinity")]

/-- A value without parts, and what follows it. -/
def scalar? (cs : List Char) : Option (Json × List Char) :=
  match words.findSome? fun (word, value) => (afterWord? word cs).map (value, ·) with
  | some found => some found
  | none =>
    match cs with
    | '"' :: rest => (codes? rest).map fun (codes, rest) => (text (joinPairs codes), rest)
    | '-' :: rest =>
      (unsigned? rest).map fun (spelling, rest) => (number (String.ofList ('-' :: spelling)), rest)
    | _ => (unsigned? cs).map fun (spelling, rest) => (number (String.ofList spelling), rest)

mutual

/-- A value and what follows it; `depth` bounds how deeply the readers call each other. -/
def value? : Nat → List Char → Option (Json × List Char)
  | 0, _ => none
  | depth + 1, cs =>
    match cs with
    | '[' :: rest =>
      match skip rest with
      | ']' :: rest => some (list [], rest)
      | rest => (items? depth rest).map fun (xs, rest) => (list xs, rest)
    | '\x7b' :: rest =>
      match skip rest with
      | '\x7d' :: rest => some (object [], rest)
      | rest => (fields? depth rest).map fun (xs, rest) => (object xs, rest)
    | cs => scalar? cs

/-- The items of a list up to its closing bracket, and what follows it. -/
def items? : Nat → List Char → Option (List Json × List Char)
  | 0, _ => none
  | depth + 1, cs => do
    let (x, rest) ← value? depth cs
    match skip rest with
    | ']' :: rest => return ([x], rest)
    | ',' :: rest =>
      let (xs, rest) ← items? depth (skip rest)
      return (x :: xs, rest)
    | _ => none

/-- The fields of an object up to its closing brace, and what follows it. -/
def fields? : Nat → List Char → Option (List (List Nat × Json) × List Char)
  | 0, _ => none
  | depth + 1, cs =>
    match cs with
    | '"' :: rest => do
      let (key, rest) ← codes? rest
      match skip rest with
      | ':' :: rest =>
        let (x, rest) ← value? depth (skip rest)
        match skip rest with
        | '\x7d' :: rest => return ([(joinPairs key, x)], rest)
        | ',' :: rest =>
          let (xs, rest) ← fields? depth (skip rest)
          return ((joinPairs key, x) :: xs, rest)
        | _ => none
      | _ => none
    | _ => none

end

/-- The value that a text spells. Each reader but the first has read a character before it is
called, so twice the length bounds the depth. -/
def read? (s : String) : Option Json :=
  match value? (2 * s.length + 2) (skip s.toList) with
  | some (x, rest) => if (skip rest).isEmpty then some x else none
  | none => none

end Json

end PrintfLint
