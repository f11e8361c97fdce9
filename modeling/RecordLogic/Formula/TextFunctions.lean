import RecordLogic.Formula.Arguments
import RecordLogic.Text.Casing

namespace RecordLogic

namespace Text

/-- Replaces every occurrence of a pattern from left to right. The next `skip` characters belong to
the occurrence before them. -/
def substitute (pattern replacement : List Char) : Nat → List Char → List Char
  | _, [] => []
  | skip + 1, _ :: cs => substitute pattern replacement skip cs
  | 0, c :: cs =>
    if pattern.isPrefixOf (c :: cs) then
      replacement ++ substitute pattern replacement (pattern.length - 1) cs
    else c :: substitute pattern replacement 0 cs

end Text

namespace Formula

open Arguments

def concat (args : Arguments) : Value :=
  .text (String.join ((List.range args.length).map args.text))

/-- The number of characters of a text, of items of an array or of entries of an object. -/
def len (args : Arguments) : Value :=
  let n := match args.arg 0 with
    | .undefined | .null => 0
    | .array items => items.length
    | .object entries => entries.length
    | v => v.toText.length
  .number (Float.ofNat n)

def left (args : Arguments) : Value :=
  .text (String.ofList ((args.text 0).toList.take (args.count 1 1)))

def right (args : Arguments) : Value :=
  let cs := (args.text 0).toList
  .text (String.ofList (cs.drop (cs.length - args.count 1 1)))

/-- The characters from a start counted from zero, as many as asked for or all. -/
def substring (args : Arguments) : Value :=
  let cs := (args.text 0).toList.drop (args.count 1 0)
  .text (String.ofList (cs.take (args.count 2 Number.maxWord)))

/-- An empty pattern occurs nowhere. -/
def replace (args : Arguments) : Value :=
  let pattern := args.text 1
  if pattern.isEmpty then .text (args.text 0)
  else
    let cs := Text.substitute pattern.toList (args.text 2).toList 0 (args.text 0).toList
    .text (String.ofList cs)

end Formula

end RecordLogic
