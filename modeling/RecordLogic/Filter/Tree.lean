import RecordLogic.Filter.Node

namespace RecordLogic.Filter

/-- A filter that is being edited: a root group, the supply of identities and how many of them were
given out. Identities of nodes that found no parent do not count. -/
structure Tree where
  rootId : NodeId
  operator : GroupOperator
  children : List Node
  supply : Supply
  next : Nat

namespace Tree

/-- A tree without nodes that takes its identities from a supply, `start` of which are gone. -/
def new (operator : GroupOperator) (start : Nat) (supply : Supply := .counted) : Tree :=
  ⟨supply.give start, operator, [], supply, start + 1⟩

/-- The root as a node. -/
def root (t : Tree) : Node :=
  .group t.rootId t.operator t.children

/-- A node below the root. -/
def find? (t : Tree) (i : NodeId) : Option Node :=
  Node.find? i t.children

def ids (t : Tree) : List NodeId :=
  Node.ids t.children

/-- The number of nodes below the root. -/
def size (t : Tree) : Nat :=
  Node.sizes t.children

def hasConditions (t : Tree) : Bool :=
  !t.children.isEmpty

/-- The filter to send; none if no condition is left. -/
def payload? (t : Tree) : Option Payload :=
  Payload.ofClauses? t.operator (Node.sent t.children)

/-- The place of a node below the root. -/
def place? (t : Tree) (i : NodeId) : Option (Place Node Tree) :=
  (Node.place? i t.children).map (·.within fun children => { t with children })

/-- The place of a group, the root included. -/
def groupPlace? (t : Tree) (i : NodeId) : Option (Place Group Tree) :=
  if t.rootId = i then
    some ⟨⟨t.rootId, t.operator, t.children⟩,
      fun g => { t with rootId := g.id, operator := g.operator, children := g.children }⟩
  else (Node.groupPlace? i t.children).map (·.within fun children => { t with children })

/-- Puts a node last under a group, or under the root if no parent is given. -/
def attach? (t : Tree) (parent : Option NodeId) (n : Node) : Option Tree :=
  match parent with
  | none => some { t with children := t.children ++ [n] }
  | some i => (t.groupPlace? i).map fun p => p.put (p.part.push n)

/-- Adds a node with the next identity; without its parent nothing is added. -/
def add (t : Tree) (parent : Option NodeId) (node : NodeId → Node) : Option NodeId × Tree :=
  let i := t.supply.give t.next
  match t.attach? parent (node i) with
  | some t' => (some i, { t' with next := t.next + 1 })
  | none => (none, t)

def addCondition (t : Tree) (parent : Option NodeId) (c : Condition) : Option NodeId × Tree :=
  t.add parent (.leaf · c)

def addGroup (t : Tree) (parent : Option NodeId) (operator : GroupOperator) :
    Option NodeId × Tree :=
  t.add parent (.group · operator [])

/-- Adds clauses under a group, each with an identity of its own. -/
def load (t : Tree) (parent : NodeId) : List Clause → Tree
  | [] => t
  | .leaf c :: cs => load (t.addCondition (some parent) c).2 parent cs
  | .group operator inner :: cs =>
    match t.addGroup (some parent) operator with
    | (some i, t') => load (load t' i inner) parent cs
    | (none, t') => load t' parent cs

/-- The tree of a filter that was sent. -/
def ofPayload (p : Payload) (start : Nat) (supply : Supply := .counted) : Tree :=
  let t := new p.operator start supply
  t.load t.rootId p.clauses

/-- Changes a condition and says whether there is one with this identity. -/
def updateCondition (t : Tree) (i : NodeId) (u : ConditionUpdate) : Bool × Tree :=
  match t.place? i with
  | some ⟨.leaf j c, put⟩ => (true, put (.leaf j (c.updated u)))
  | _ => (false, t)

/-- Changes the operator of a group, the root included, and says whether there is one with this
identity. -/
def updateGroup (t : Tree) (i : NodeId) (operator : GroupOperator) : Bool × Tree :=
  match t.groupPlace? i with
  | some p => (true, p.put { p.part with operator })
  | none => (false, t)

/-- Takes out a node with all below it and says whether there is one with this identity. The root
stays. -/
def remove (t : Tree) (i : NodeId) : Bool × Tree :=
  match Node.remove? i t.children with
  | some children => (true, { t with children })
  | none => (false, t)

def clear (t : Tree) : Tree :=
  { t with children := [] }

def withOperator (t : Tree) (operator : GroupOperator) : Tree :=
  { t with operator }

end Tree

end RecordLogic.Filter
