import RecordLogic.Text.Casing
import RecordLogic.Text.Quoted.Table

namespace RecordLogic.Text

namespace Quoted

def hexDigits (n : Nat) : List Char :=
  Nat.toDigits 16 n

/-- How a character is shown between quotes: marks that join their neighbour and characters without
a shape of their own are shown by number. -/
def shown (c : Char) : List Char :=
  if c = '\x00' then ['\\', '0']
  else if c = '\t' then ['\\', 't']
  else if c = '\r' then ['\\', 'r']
  else if c = '\n' then ['\\', 'n']
  else if c = '\\' || c = '"' then ['\\', c]
  else if Casing.inRanges extendRanges c || Casing.inRanges hiddenRanges c then
    ['\\', 'u', '\x7b'] ++ hexDigits c.toNat ++ ['\x7d']
  else [c]

end Quoted

/-- The text between double quotes, with what would not be seen escaped. -/
def quoted (s : String) : String :=
  String.ofList ('"' :: (s.toList.flatMap Quoted.shown ++ ['"']))

end RecordLogic.Text
