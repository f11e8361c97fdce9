import RecordLogic.Filter.Tree
import RecordLogic.Text.Blank

namespace RecordLogic.Filter

/-- What a server would refuse. -/
inductive IssueKind where
  | notGroupArity (children : Nat)
  | emptyGroup
  | missingField
  | missingValue
  | invalidRange
  | invalidMembership
  | invalidLength
deriving DecidableEq

def IssueKind.message : IssueKind → String
  | notGroupArity n => "NOT group must have exactly one child, found " ++ toString n
  | emptyGroup => "group has no conditions"
  | missingField => "condition has no field"
  | missingValue => "condition has no value"
  | invalidRange => "range value must be an array of two values"
  | invalidMembership => "list value must be a non-empty array"
  | invalidLength => "length bound must be a non-negative number"

/-- Something to refuse, and where. -/
structure Issue where
  node : NodeId
  kind : IssueKind
deriving DecidableEq

def isPair : Json → Bool
  | .array [_, _] => true
  | _ => false

def isFilledArray : Json → Bool
  | .array (_ :: _) => true
  | _ => false

def isNonNegative (j : Json) : Bool :=
  match j.toFloat? with
  | some x => 0 ≤ x
  | none => false

/-- What is wrong with the value of a condition whose operator looks at it. -/
def valueIssues (operator : ConditionOperator) : Option Json → List IssueKind
  | none => [.missingValue]
  | some j =>
    if operator.isRange && !isPair j then [.invalidRange]
    else if operator.isMembership && !isFilledArray j then [.invalidMembership]
    else if operator.isLengthBound && !isNonNegative j then [.invalidLength]
    else []

def Condition.issues (c : Condition) : List IssueKind :=
  (if Text.isBlankText c.field then [.missingField] else []) ++
    if c.operator.takesValue then valueIssues c.operator c.value else []

/-- A negation has one child. -/
def notIssues (children : Nat) : List IssueKind :=
  if children = 1 then [] else [.notGroupArity children]

/-- What is wrong with a group below the root. -/
def groupIssues (operator : GroupOperator) (children : Nat) : List IssueKind :=
  match operator with
  | .not => notIssues children
  | .and | .or => if children = 0 then [.emptyGroup] else []

/-- The root may be empty. -/
def rootIssues (operator : GroupOperator) (children : Nat) : List IssueKind :=
  if operator = .not && children ≠ 0 then notIssues children else []

/-- The issues of nodes and of all below them, in depth-first order. -/
def Node.issues : List Node → List Issue
  | [] => []
  | leaf i c :: ns => c.issues.map (⟨i, ·⟩) ++ issues ns
  | group i op cs :: ns =>
    (groupIssues op cs.length).map (⟨i, ·⟩) ++ (issues cs ++ issues ns)

/-- Everything that a server would refuse. -/
def Tree.issues (t : Tree) : List Issue :=
  (rootIssues t.operator t.children.length).map (⟨t.rootId, ·⟩) ++ Node.issues t.children

end RecordLogic.Filter
