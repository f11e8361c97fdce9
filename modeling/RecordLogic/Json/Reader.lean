import RecordLogic.Json.Basic
import RecordLogic.Number.Decimal

namespace RecordLogic.Json

/-- Why a text is not a JSON document. -/
inductive SyntaxError where
  | endOfText
  | unexpected (c : Char)
  | badEscape
  | controlCharacter
  | badNumber
  | numberTooLarge
  | tooDeep
  | trailing
deriving DecidableEq

def SyntaxError.message : SyntaxError → String
  | endOfText => "the text ends inside a value"
  | unexpected c => "unexpected character " ++ String.singleton c
  | badEscape => "invalid escape in a string"
  | controlCharacter => "control character in a string"
  | badNumber => "invalid number"
  | numberTooLarge => "number out of range"
  | tooDeep => "values are nested too deeply"
  | trailing => "characters after the value"

def isSpace (c : Char) : Bool :=
  c = ' ' || c = '\n' || c = '\t' || c = '\r'

def skipSpaces (cs : List Char) : List Char :=
  cs.dropWhile isSpace

/-- The code unit that four hexadecimal digits write. -/
def codeUnit? (a b c d : Char) : Option Nat :=
  Number.ofBaseDigits? 16 [a, b, c, d]

def isHigh (n : Nat) : Bool := 0xD800 ≤ n && n < 0xDC00

def isLow (n : Nat) : Bool := 0xDC00 ≤ n && n < 0xE000

/-- Reads the inside of a string up to its closing quote; `acc` holds the characters so far, the
last one first. Code units above the basic plane come in pairs. -/
def readString (acc : List Char) : List Char → Except SyntaxError (String × List Char)
  | '"' :: cs => .ok (String.ofList acc.reverse, cs)
  | '\\' :: '"' :: cs => readString ('"' :: acc) cs
  | '\\' :: '\\' :: cs => readString ('\\' :: acc) cs
  | '\\' :: '/' :: cs => readString ('/' :: acc) cs
  | '\\' :: 'b' :: cs => readString ('\x08' :: acc) cs
  | '\\' :: 'f' :: cs => readString ('\x0c' :: acc) cs
  | '\\' :: 'n' :: cs => readString ('\n' :: acc) cs
  | '\\' :: 'r' :: cs => readString ('\r' :: acc) cs
  | '\\' :: 't' :: cs => readString ('\t' :: acc) cs
  | '\\' :: 'u' :: a :: b :: c :: d :: cs =>
    match codeUnit? a b c d with
    | none => .error .badEscape
    | some n =>
      if isLow n then .error .badEscape
      else if isHigh n then
        match cs with
        | '\\' :: 'u' :: a :: b :: c :: d :: cs =>
          match codeUnit? a b c d with
          | some m =>
            if isLow m then
              readString (Char.ofNat (0x10000 + (n - 0xD800) * 0x400 + (m - 0xDC00)) :: acc) cs
            else .error .badEscape
          | none => .error .badEscape
        | _ => .error .badEscape
      else readString (Char.ofNat n :: acc) cs
  | '\\' :: _ => .error .badEscape
  | c :: cs => if c.toNat < 32 then .error .controlCharacter else readString (c :: acc) cs
  | [] => .error .endOfText

/-- A whole number keeps its digits when 64 bits hold it; -0 and all else become doubles, which
must be finite. -/
def numberValue (l : Number.Literal) (isWhole : Bool) : Except SyntaxError Json :=
  let m := Number.ofDigits l.whole
  let n : Int := if l.negative then -(m : Int) else m
  if isWhole && holdsInteger n && !(l.negative && m = 0) then .ok (.integer n)
  else
    let x := l.toFloat
    if x.isFinite then .ok (.float x) else .error .numberTooLarge

/-- Reads a number: no plus sign, no leading zeros, a digit on both sides of a point. -/
def readNumber (cs : List Char) : Except SyntaxError (Json × List Char) := do
  let (negative, cs) := match cs with
    | '-' :: rest => (true, rest)
    | _ => (false, cs)
  let (whole, cs) := Number.takeDigits cs
  match whole with
  | [] => throw .badNumber
  | '0' :: _ :: _ => throw .badNumber
  | _ => pure ()
  let (fraction, cs, hasPoint) := match cs with
    | '.' :: rest => ((Number.takeDigits rest).1, (Number.takeDigits rest).2, true)
    | _ => ([], cs, false)
  if hasPoint && fraction.isEmpty then throw .badNumber
  match cs with
  | c :: rest =>
    if c = 'e' || c = 'E' then
      let (minus, rest) := Number.takeSign rest
      let (power, rest) := Number.takeDigits rest
      if power.isEmpty then throw .badNumber
      let exponent : Int := if minus then -(Number.ofDigits power : Int) else Number.ofDigits power
      let j ← numberValue ⟨negative, whole, fraction, exponent⟩ false
      return (j, rest)
    else
      let j ← numberValue ⟨negative, whole, fraction, 0⟩ (!hasPoint)
      return (j, cs)
  | [] =>
    let j ← numberValue ⟨negative, whole, fraction, 0⟩ (!hasPoint)
    return (j, [])

/-- Reads the rest of a word whose value is known. -/
def readWord (word : List Char) (j : Json) (cs : List Char) :
    Except SyntaxError (Json × List Char) :=
  if word.isPrefixOf cs then .ok (j, cs.drop word.length)
  else match cs with
    | [] => .error .endOfText
    | c :: _ => .error (.unexpected c)

mutual

/-- Reads a value after blanks. Arrays and objects may be nested in at most `depth` others; every
step uses one unit of `fuel`. -/
def readValue (depth : Nat) : Nat → List Char → Except SyntaxError (Json × List Char)
  | 0, _ => .error .endOfText
  | fuel + 1, cs =>
    match skipSpaces cs with
    | [] => .error .endOfText
    | '"' :: cs => do
      let (s, cs) ← readString [] cs
      return (.text s, cs)
    | '[' :: cs =>
      match depth with
      | 0 => .error .tooDeep
      | depth + 1 =>
        match skipSpaces cs with
        | ']' :: cs => .ok (.array [], cs)
        | cs => do
          let (items, cs) ← readItems depth fuel cs
          return (.array items, cs)
    | '\x7b' :: cs =>
      match depth with
      | 0 => .error .tooDeep
      | depth + 1 =>
        match skipSpaces cs with
        | '\x7d' :: cs => .ok (.object [], cs)
        | cs => do
          let (entries, cs) ← readEntries depth fuel cs
          return (.object entries, cs)
    | 'n' :: cs => readWord ['u', 'l', 'l'] .null cs
    | 't' :: cs => readWord ['r', 'u', 'e'] (.bool true) cs
    | 'f' :: cs => readWord ['a', 'l', 's', 'e'] (.bool false) cs
    | c :: cs =>
      if c = '-' || Number.isDigit c then readNumber (c :: cs) else .error (.unexpected c)

/-- Reads one or more items up to the closing bracket. -/
def readItems (depth : Nat) : Nat → List Char → Except SyntaxError (List Json × List Char)
  | 0, _ => .error .endOfText
  | fuel + 1, cs => do
    let (j, cs) ← readValue depth fuel cs
    match skipSpaces cs with
    | ']' :: cs => return ([j], cs)
    | ',' :: cs => do
      let (js, cs) ← readItems depth fuel cs
      return (j :: js, cs)
    | c :: _ => throw (.unexpected c)
    | [] => throw .endOfText

/-- Reads one or more entries up to the closing brace. -/
def readEntries (depth : Nat) :
    Nat → List Char → Except SyntaxError (List (String × Json) × List Char)
  | 0, _ => .error .endOfText
  | fuel + 1, cs => do
    let (key, cs) ← match skipSpaces cs with
      | '"' :: cs => readString [] cs
      | c :: _ => throw (.unexpected c)
      | [] => throw .endOfText
    match skipSpaces cs with
    | ':' :: cs => do
      let (j, cs) ← readValue depth fuel cs
      match skipSpaces cs with
      | '\x7d' :: cs => return ([(key, j)], cs)
      | ',' :: cs => do
        let (es, cs) ← readEntries depth fuel cs
        return ((key, j) :: es, cs)
      | c :: _ => throw (.unexpected c)
      | [] => throw .endOfText
    | c :: _ => throw (.unexpected c)
    | [] => throw .endOfText

end

/-- Reads a whole text as one value with blanks around it. -/
def read (depth : Nat) (s : String) : Except SyntaxError Json := do
  let cs := s.toList
  let (j, rest) ← readValue depth (2 * cs.length + 1) cs
  if (skipSpaces rest).isEmpty then return j else throw .trailing

end RecordLogic.Json
