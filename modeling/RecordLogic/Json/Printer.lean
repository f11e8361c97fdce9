import RecordLogic.Json.Basic
import RecordLogic.Number.Text

namespace RecordLogic.Json

def hexDigit (n : Nat) : Char :=
  Nat.digitChar n

/-- A character inside a JSON string: quotes, backslashes and control characters are escaped. -/
def escaped (c : Char) : List Char :=
  if c = '"' || c = '\\' then ['\\', c]
  else if c = '\x08' then ['\\', 'b']
  else if c = '\x0c' then ['\\', 'f']
  else if c = '\n' then ['\\', 'n']
  else if c = '\r' then ['\\', 'r']
  else if c = '\t' then ['\\', 't']
  else if c.toNat < 32 then ['\\', 'u', '0', '0', hexDigit (c.toNat / 16), hexDigit (c.toNat % 16)]
  else [c]

def stringText (s : String) : String :=
  String.ofList ('"' :: (s.toList.flatMap escaped ++ ['"']))

mutual

/-- The document on one line without blanks. -/
def compact : Json → String
  | null => "null"
  | bool b => toString b
  | integer n => toString n
  | float x => Number.jsonText x
  | text s => stringText s
  | array items => "[" ++ String.intercalate "," (compactItems items) ++ "]"
  | object entries => "\x7b" ++ String.intercalate "," (compactEntries entries) ++ "\x7d"

def compactItems : List Json → List String
  | [] => []
  | j :: js => compact j :: compactItems js

def compactEntries : List (String × Json) → List String
  | [] => []
  | (k, j) :: es => (stringText k ++ ":" ++ compact j) :: compactEntries es

end

/-- The lines between two brackets, indented by two blanks more than the brackets; nothing between
the brackets of an empty list. -/
def block (opening closing : String) (indent : Nat) (lines : List String) : String :=
  let line := "\n" ++ String.ofList (List.replicate indent ' ')
  if lines.isEmpty then opening ++ closing
  else opening ++ line ++ "  " ++ String.intercalate ("," ++ line ++ "  ") lines ++ line ++ closing

mutual

/-- The document with an item or entry per line. -/
def prettyAt (indent : Nat) : Json → String
  | array items => block "[" "]" indent (prettyItems (indent + 2) items)
  | object entries => block "\x7b" "\x7d" indent (prettyEntries (indent + 2) entries)
  | null => "null"
  | bool b => toString b
  | integer n => toString n
  | float x => Number.jsonText x
  | text s => stringText s

def prettyItems (indent : Nat) : List Json → List String
  | [] => []
  | j :: js => prettyAt indent j :: prettyItems indent js

def prettyEntries (indent : Nat) : List (String × Json) → List String
  | [] => []
  | (k, j) :: es => (stringText k ++ ": " ++ prettyAt indent j) :: prettyEntries indent es

end

def pretty (j : Json) : String :=
  prettyAt 0 j

end RecordLogic.Json
