import RecordLogic.Value.Basic

namespace RecordLogic.Formula

/-- A formula. A node may name a property to read from its value; which nodes heed it is up to the
evaluation. -/
inductive Expr where
  | literal (property : Option String) (value : Value)
  | identifier (property : Option String) (name : String)
  | system (property : Option String) (name : String)
  | binary (property : Option String) (operator : String) (args : List Expr)
  | logical (property : Option String) (operator : String) (args : List Expr)
  | call (property : Option String) (callee : Option String) (args : List Expr)
  | member (property : Option String) (args : List Expr)
  | assignment (property : Option String) (args : List Expr)
  | unsupported (property : Option String) (type : String)
deriving Inhabited

namespace Expr

def typeName : Expr → String
  | literal .. => "Literal"
  | identifier .. => "Identifier"
  | system .. => "SystemIdentifier"
  | binary .. => "BinaryExpression"
  | logical .. => "LogicalExpression"
  | call .. => "CallExpression"
  | member .. => "MemberExpression"
  | assignment .. => "AssignmentExpression"
  | unsupported _ type => type

def property : Expr → Option String
  | literal p _ | identifier p _ | system p _ | binary p _ _ | logical p _ _ | call p _ _
  | member p _ | assignment p _ | unsupported p _ => p

def children : Expr → List Expr
  | binary _ _ args | logical _ _ args | call _ _ args | member _ args | assignment _ args => args
  | literal .. | identifier .. | system .. | unsupported .. => []

mutual

/-- Equality of formulas, with the numbers in them compared as numbers. -/
def same : Expr → Expr → Bool
  | literal p v, literal q w => p == q && v.same w
  | identifier p n, identifier q m => p == q && n == m
  | system p n, system q m => p == q && n == m
  | binary p n as, binary q m bs => p == q && n == m && sameAll as bs
  | logical p n as, logical q m bs => p == q && n == m && sameAll as bs
  | call p n as, call q m bs => p == q && n == m && sameAll as bs
  | member p as, member q bs => p == q && sameAll as bs
  | assignment p as, assignment q bs => p == q && sameAll as bs
  | unsupported p n, unsupported q m => p == q && n == m
  | _, _ => false

def sameAll : List Expr → List Expr → Bool
  | [], [] => true
  | a :: as, b :: bs => same a b && sameAll as bs
  | _, _ => false

end

mutual

def nodeCount : Expr → Nat
  | binary _ _ args | logical _ _ args | call _ _ args | member _ args | assignment _ args =>
    1 + nodeCounts args
  | literal .. | identifier .. | system .. | unsupported .. => 1

def nodeCounts : List Expr → Nat
  | [] => 0
  | e :: es => nodeCount e + nodeCounts es

end

mutual

/-- The number of edges of the longest path down from the root. -/
def height : Expr → Nat
  | binary _ _ args | logical _ _ args | call _ _ args | member _ args | assignment _ args =>
    heights args
  | literal .. | identifier .. | system .. | unsupported .. => 0

/-- One more than the greatest height, or 0 of no formulas. -/
def heights : List Expr → Nat
  | [] => 0
  | e :: es => max (height e + 1) (heights es)

end

end Expr

end RecordLogic.Formula
