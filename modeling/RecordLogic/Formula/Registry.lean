import RecordLogic.Formula.Builtin
import RecordLogic.Text.Distance
import RecordLogic.Text.Quoted

namespace RecordLogic.Formula

/-- What a name stands for in a call. -/
abbrev Function := Arguments → Except EvalError Value

/-- The functions that formulas can call, by name. -/
abbrev Registry := Table Function

namespace Registry

def builtin (zone : Time.Zone) : Registry :=
  Table.ofList (Builtin.all.map fun b => (b.name, b.apply zone))

def register (r : Registry) (name : String) (f : Function) : Registry :=
  r.insert name f

def contains (r : Registry) (name : String) : Bool :=
  (r.find? name).isSome

/-- Takes a name out and says whether it was there. -/
def unregister (r : Registry) (name : String) : Bool × Registry :=
  (r.contains name, r.erase name)

/-- The largest distance of a suggestion. -/
def maxDistance : Nat := 3

/-- The distance of two names with case ignored. -/
def nameDistance (wanted candidate : String) : Nat :=
  Text.distance (Text.upper wanted).toList (Text.upper candidate).toList

/-- The first of the names nearest to `wanted`, and its distance. -/
def nearest? (wanted : String) : List String → Option (String × Nat)
  | [] => none
  | k :: ks =>
    let d := nameDistance wanted k
    match nearest? wanted ks with
    | some (l, e) => if e < d then some (l, e) else some (k, d)
    | none => some (k, d)

/-- The registered name that is nearest to `wanted`, if it is near enough. -/
def suggest (r : Registry) (wanted : String) : Option String :=
  ((nearest? wanted r.keys).filter (·.2 ≤ maxDistance)).map (·.1)

def unknown (r : Registry) (name : String) : EvalError :=
  .unknownFunction name (r.suggest name)

def call (r : Registry) (name : String) (args : Arguments) : Except EvalError Value :=
  match r.find? name with
  | some f => f args
  | none => .error (r.unknown name)

/-- The registered names as a set. -/
def listing (r : Registry) : String :=
  "\x7b" ++ String.intercalate ", " (r.keys.map Text.quoted) ++ "\x7d"

end Registry

end RecordLogic.Formula
