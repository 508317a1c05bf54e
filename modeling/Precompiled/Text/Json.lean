/-! JSON texts, as far as settings files need them. A number keeps what tells
a plain integer from one written with a fraction or an exponent, and a string
keeps its escapes as code units, since whether they form a text is asked only
of the strings somebody reads. -/
namespace Precompiled.Text

/-- A number as it is written. -/
structure JsonNumber where
  negative : Bool
  /-- The digits in front of any fraction. -/
  whole : Nat
  /-- Neither fraction nor exponent follows. -/
  plain : Bool
  deriving DecidableEq, Repr

/-- The number as a 32-bit integer. Fractions and exponents make a number no
integer, and so does the sign of a negative zero. -/
def JsonNumber.toInt32? (number : JsonNumber) : Option Int32 :=
  let value : Int := if number.negative then -number.whole else number.whole
  if number.plain ∧ ¬(number.negative ∧ number.whole = 0) ∧ -2147483648 ≤ value ∧
      value ≤ 2147483647 then
    some (Int32.ofInt value)
  else none

/-- A piece of a string: a character as written, or an escaped code unit. -/
inductive JsonPiece where
  | char (char : Char)
  | unit (unit : Nat)
  deriving DecidableEq, Repr

abbrev JsonString := List JsonPiece

namespace JsonString

/-- The characters of a string. Code units of the surrogate range have to come
in pairs, high before low. -/
def chars? : JsonString → Option (List Char)
  | [] => some []
  | .char char :: rest => (chars? rest).map (char :: ·)
  | .unit high :: rest =>
    if 0xD800 ≤ high ∧ high < 0xDC00 then
      match rest with
      | .unit low :: rest =>
        if 0xDC00 ≤ low ∧ low < 0xE000 then
          let code := 0x10000 + (high - 0xD800) * 0x400 + (low - 0xDC00)
          (chars? rest).map (Char.ofNat code :: ·)
        else none
      | _ => none
    else if 0xDC00 ≤ high ∧ high < 0xE000 then none
    else (chars? rest).map (Char.ofNat high :: ·)

def toString? (string : JsonString) : Option String :=
  string.chars?.map String.ofList

end JsonString

/-- A JSON value. Members of an object are kept in order, repetitions
included. -/
inductive Json where
  | null
  | bool (value : Bool)
  | number (value : JsonNumber)
  | string (value : JsonString)
  | array (items : List Json)
  | object (members : List (JsonString × Json))

namespace Json

/-- A reader takes a value off the front of a text, or fails. -/
abbrev Reader (α : Type) := List Char → Option (α × List Char)

/-- The four characters that may stand between tokens. -/
def isBlank (char : Char) : Bool :=
  char == ' ' || char == '\n' || char == '\t' || char == '\r'

def skipBlanks (input : List Char) : List Char :=
  input.dropWhile isBlank

/-- The rest behind a given word. -/
def word : List Char → List Char → Option (List Char)
  | [], input => some input
  | _ :: _, [] => none
  | expected :: word', char :: rest => if char = expected then word word' rest else none

/-- The value of a hexadecimal digit of either case. -/
def hexValue? (char : Char) : Option Nat :=
  if '0' ≤ char ∧ char ≤ '9' then some (char.toNat - '0'.toNat)
  else if 'a' ≤ char ∧ char ≤ 'f' then some (char.toNat - 'a'.toNat + 10)
  else if 'A' ≤ char ∧ char ≤ 'F' then some (char.toNat - 'A'.toNat + 10)
  else none

/-- What a character after a backslash stands for, escaped code units aside. -/
def escaped? : Char → Option Char
  | '"' => some '"'
  | '\\' => some '\\'
  | '/' => some '/'
  | 'b' => some '\x08'
  | 'f' => some '\x0c'
  | 'n' => some '\n'
  | 'r' => some '\r'
  | 't' => some '\t'
  | _ => none

/-- The pieces of a string up to and including its closing quote. Control
characters have to be escaped. -/
def stringBody : Reader JsonString
  | '"' :: rest => some ([], rest)
  | '\\' :: 'u' :: a :: b :: c :: d :: rest => do
    let unit := (((← hexValue? a) * 16 + (← hexValue? b)) * 16 + (← hexValue? c)) * 16 +
      (← hexValue? d)
    let (pieces, rest) ← stringBody rest
    return (.unit unit :: pieces, rest)
  | '\\' :: char :: rest => do
    let char ← escaped? char
    let (pieces, rest) ← stringBody rest
    return (.char char :: pieces, rest)
  | char :: rest =>
    if char.toNat < 0x20 ∨ char = '\\' then none
    else do
      let (pieces, rest) ← stringBody rest
      return (.char char :: pieces, rest)
  | [] => none

/-- A string with its quotes. -/
def quoted : Reader JsonString
  | '"' :: rest => stringBody rest
  | _ => none

/-- The longest run of decimal digits. -/
def digits (input : List Char) : List Char × List Char :=
  (input.takeWhile Char.isDigit, input.dropWhile Char.isDigit)

/-- A fraction, if one follows. A point needs a digit after it. -/
def fraction : Reader Bool
  | '.' :: rest =>
    match digits rest with
    | ([], _) => none
    | (_, rest) => some (true, rest)
  | input => some (false, input)

/-- The rest behind an optional sign. -/
def skipSign : List Char → List Char
  | '+' :: rest => rest
  | '-' :: rest => rest
  | input => input

/-- An exponent, if one follows. It needs a digit. -/
def exponent : Reader Bool
  | char :: rest =>
    if char = 'e' ∨ char = 'E' then
      match digits (skipSign rest) with
      | ([], _) => none
      | (_, rest) => some (true, rest)
    else some (false, char :: rest)
  | [] => some (false, [])

/-- An unsigned number. Only zero itself starts with a zero. -/
def unsigned (negative : Bool) : Reader JsonNumber := fun input => do
  let (whole, rest) := digits input
  match whole with
  | [] => none
  | '0' :: _ :: _ => none
  | _ =>
    let (hasFraction, rest) ← fraction rest
    let (hasExponent, rest) ← exponent rest
    let value := whole.foldl (fun value digit => value * 10 + (digit.toNat - '0'.toNat)) 0
    return ({ negative, whole := value, plain := !hasFraction && !hasExponent }, rest)

def numeral : Reader JsonNumber
  | '-' :: rest => unsigned true rest
  | input => unsigned false input

/-- Items between commas up to a closing character. `first` says whether the
closing character may come at once. -/
def items (close : Char) (item : Reader α) : Nat → Bool → Reader (List α)
  | 0, _, _ => none
  | fuel + 1, first, input =>
    match skipBlanks input with
    | [] => none
    | char :: rest =>
      if first ∧ char = close then some ([], rest)
      else do
        let (head, afterItem) ← item (char :: rest)
        match skipBlanks afterItem with
        | [] => none
        | char :: rest =>
          if char = close then return ([head], rest)
          else if char = ',' then
            let (tail, rest) ← items close item fuel false rest
            return (head :: tail, rest)
          else none

/-- A member of an object: a name, a colon and a value. -/
def member (value : Reader Json) : Reader (JsonString × Json) := fun input => do
  let (name, rest) ← quoted input
  match skipBlanks rest with
  | ':' :: rest =>
    let (value, rest) ← value rest
    return ((name, value), rest)
  | _ => none

/-- A value with blanks in front. The first argument bounds the depth of
nesting; the length of the input is always enough. -/
def value : Nat → Reader Json
  | 0, _ => none
  | depth + 1, input =>
    match skipBlanks input with
    | [] => none
    | char :: rest =>
      if char = '"' then do
        let (pieces, rest) ← stringBody rest
        return (.string pieces, rest)
      else if char = '[' then do
        let (found, rest) ← items ']' (value depth) (rest.length + 1) true rest
        return (.array found, rest)
      else if char = '{' then do
        let (found, rest) ← items '}' (member (value depth)) (rest.length + 1) true rest
        return (.object found, rest)
      else if char = 'n' then (word ['u', 'l', 'l'] rest).map fun rest => (.null, rest)
      else if char = 't' then (word ['r', 'u', 'e'] rest).map fun rest => (.bool true, rest)
      else if char = 'f' then (word ['a', 'l', 's', 'e'] rest).map fun rest => (.bool false, rest)
      else do
        let (found, rest) ← numeral (char :: rest)
        return (.number found, rest)

/-- The value a whole text holds; nothing but blanks may follow it. -/
def parse? (text : String) : Option Json := do
  let input := text.toList
  let (found, rest) ← value (input.length + 1) input
  if (skipBlanks rest).isEmpty then return found else none

end Json

end Precompiled.Text
