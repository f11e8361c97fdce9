import RecordLogic.Value.Equality

namespace RecordLogic.Formula

inductive BinaryOperator where
  | equal
  | notEqual
  | less
  | lessEqual
  | greater
  | greaterEqual
  | add
  | subtract
  | multiply
  | divide
  | remainder
deriving DecidableEq

namespace BinaryOperator

def all : List BinaryOperator :=
  [equal, notEqual, less, lessEqual, greater, greaterEqual, add, subtract, multiply, divide,
    remainder]

def symbol : BinaryOperator → String
  | equal => "=="
  | notEqual => "!="
  | less => "<"
  | lessEqual => "<="
  | greater => ">"
  | greaterEqual => ">="
  | add => "+"
  | subtract => "-"
  | multiply => "*"
  | divide => "/"
  | remainder => "%"

def ofSymbol? (s : String) : Option BinaryOperator :=
  all.find? (·.symbol = s)

end BinaryOperator

/-- What an ordering compares: the milliseconds of two date-like values, else both as numbers. -/
def orderKeys (zone : Time.Zone) (a b : Value) : Float × Float :=
  match a.asDate? zone, b.asDate? zone with
  | some s, some t => (Float.ofInt s.millis, Float.ofInt t.millis)
  | _, _ => (a.toNumber, b.toNumber)

def ordered (zone : Time.Zone) (rel : Float → Float → Bool) (a b : Value) : Bool :=
  let (x, y) := orderKeys zone a b
  rel x y

/-- A quotient by zero is zero. -/
def quotient (x y : Float) : Float :=
  if y == 0 then 0 else x / y

def BinaryOperator.apply (zone : Time.Zone) : BinaryOperator → Value → Value → Value
  | equal, a, b => .bool (a.looseEq zone b)
  | notEqual, a, b => .bool (!a.looseEq zone b)
  | less, a, b => .bool (ordered zone (fun x y => x < y) a b)
  | lessEqual, a, b => .bool (ordered zone (fun x y => x ≤ y) a b)
  | greater, a, b => .bool (ordered zone (fun x y => y < x) a b)
  | greaterEqual, a, b => .bool (ordered zone (fun x y => y ≤ x) a b)
  | add, a, b => .number (a.toNumber + b.toNumber)
  | subtract, a, b => .number (a.toNumber - b.toNumber)
  | multiply, a, b => .number (a.toNumber * b.toNumber)
  | divide, a, b => .number (quotient a.toNumber b.toNumber)
  | remainder, a, b => .number (Number.remainder a.toNumber b.toNumber)

inductive LogicalOperator where
  | and
  | or
  | not
deriving DecidableEq

namespace LogicalOperator

def symbol : LogicalOperator → String
  | and => "AND"
  | or => "OR"
  | not => "!"

def ofSymbol? (s : String) : Option LogicalOperator :=
  [and, or, not].find? (·.symbol = s)

end LogicalOperator

end RecordLogic.Formula
