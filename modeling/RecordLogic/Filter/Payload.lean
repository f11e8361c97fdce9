import RecordLogic.Filter.Condition

namespace RecordLogic.Filter

/-- A part of a filter that is sent: a condition or a group of further parts. -/
inductive Clause where
  | leaf (condition : Condition)
  | group (operator : GroupOperator) (clauses : List Clause)

/-- A filter that is sent: a group without identities. -/
structure Payload where
  operator : GroupOperator
  clauses : List Clause

namespace Clause

mutual

def same : Clause → Clause → Bool
  | leaf c, leaf d => c == d
  | group op cs, group op' ds => op == op' && sameAll cs ds
  | _, _ => false

def sameAll : List Clause → List Clause → Bool
  | [], [] => true
  | c :: cs, d :: ds => same c d && sameAll cs ds
  | _, _ => false

end

/-- The number of conditions at any depth. -/
def leafCounts : List Clause → Nat
  | [] => 0
  | leaf _ :: cs => 1 + leafCounts cs
  | group _ inner :: cs => leafCounts inner + leafCounts cs

/-- The number of clauses at any depth. -/
def sizes : List Clause → Nat
  | [] => 0
  | leaf _ :: cs => 1 + sizes cs
  | group _ inner :: cs => 1 + sizes inner + sizes cs

/-- A group before other clauses, unless it is empty. -/
def consGroup (op : GroupOperator) (inner cs : List Clause) : List Clause :=
  if inner.isEmpty then cs else group op inner :: cs

/-- Removes, from below, the groups without clauses, and the values that nothing looks at. -/
def normal : List Clause → List Clause
  | [] => []
  | leaf c :: cs => leaf c.sent :: normal cs
  | group op inner :: cs => consGroup op (normal inner) (normal cs)

/-- No group is empty. -/
def filled : List Clause → Bool
  | [] => true
  | leaf _ :: cs => filled cs
  | group _ inner :: cs => !inner.isEmpty && filled inner && filled cs

end Clause

namespace Payload

instance : BEq Payload where
  beq p q := p.operator == q.operator && Clause.sameAll p.clauses q.clauses

/-- A filter with clauses; without any there is nothing to send. -/
def ofClauses? (operator : GroupOperator) (clauses : List Clause) : Option Payload :=
  if clauses.isEmpty then none else some ⟨operator, clauses⟩

def leafCount (p : Payload) : Nat :=
  Clause.leafCounts p.clauses

/-- The filter without empty groups; none if nothing is left. -/
def normal? (p : Payload) : Option Payload :=
  ofClauses? p.operator (Clause.normal p.clauses)

end Payload

end RecordLogic.Filter
