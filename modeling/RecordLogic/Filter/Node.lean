import RecordLogic.Filter.Payload

namespace RecordLogic.Filter

/-- The identity of a node, given once and never again. -/
structure NodeId where
  number : Nat
deriving DecidableEq

/-- Where identities come from: the one that is given out after `n` others. None is given out
twice. -/
structure Supply where
  give : Nat → NodeId
  give_injective : Function.Injective give

/-- The identities in the order of their numbers. -/
def Supply.counted : Supply :=
  ⟨NodeId.mk, fun _ _ h => congrArg NodeId.number h⟩

/-- A node of a filter that is being edited. -/
inductive Node where
  | leaf (id : NodeId) (condition : Condition)
  | group (id : NodeId) (operator : GroupOperator) (children : List Node)

/-- A group by itself. -/
structure Group where
  id : NodeId
  operator : GroupOperator
  children : List Node

namespace Group

def toNode (g : Group) : Node :=
  .group g.id g.operator g.children

/-- Puts a node last among the children. -/
def push (g : Group) (new : Node) : Group :=
  { g with children := g.children ++ [new] }

end Group

/-- A part that was found in a whole so that it can be changed: the part, and the whole with another
part in its place. -/
structure Place (σ α : Type) where
  part : σ
  put : σ → α

/-- The place in a larger whole. -/
def Place.within {σ α β : Type} (p : Place σ α) (f : α → β) : Place σ β :=
  ⟨p.part, fun s => f (p.put s)⟩

namespace Node

def id : Node → NodeId
  | leaf i _ => i
  | group i _ _ => i

def isGroup : Node → Bool
  | leaf .. => false
  | group .. => true

/-- The identities of nodes and of all below them, in depth-first order. -/
def ids : List Node → List NodeId
  | [] => []
  | leaf i _ :: ns => i :: ids ns
  | group i _ cs :: ns => i :: (ids cs ++ ids ns)

/-- How many nodes there are at any depth. -/
def sizes : List Node → Nat
  | [] => 0
  | leaf .. :: ns => 1 + sizes ns
  | group _ _ cs :: ns => 1 + sizes cs + sizes ns

/-- The first node with an identity, in depth-first order. -/
def find? (i : NodeId) : List Node → Option Node
  | [] => none
  | leaf j c :: ns => if j = i then some (leaf j c) else find? i ns
  | group j op cs :: ns =>
    if j = i then some (group j op cs)
    else match find? i cs with
      | some n => some n
      | none => find? i ns

/-- The place of the first node with an identity, in depth-first order. -/
def place? (i : NodeId) : List Node → Option (Place Node (List Node))
  | [] => none
  | leaf j c :: ns =>
    if j = i then some ⟨leaf j c, (· :: ns)⟩
    else (place? i ns).map (·.within (leaf j c :: ·))
  | group j op cs :: ns =>
    if j = i then some ⟨group j op cs, (· :: ns)⟩
    else match place? i cs with
      | some p => some (p.within fun cs => group j op cs :: ns)
      | none => (place? i ns).map (·.within (group j op cs :: ·))

/-- The place of the first group with an identity; leaves are passed by. -/
def groupPlace? (i : NodeId) : List Node → Option (Place Group (List Node))
  | [] => none
  | leaf j c :: ns => (groupPlace? i ns).map (·.within (leaf j c :: ·))
  | group j op cs :: ns =>
    if j = i then some ⟨⟨j, op, cs⟩, fun g => g.toNode :: ns⟩
    else match groupPlace? i cs with
      | some p => some (p.within fun cs => group j op cs :: ns)
      | none => (groupPlace? i ns).map (·.within (group j op cs :: ·))

/-- Takes out the first of the nodes themselves that has an identity. -/
def dropFirst? (i : NodeId) : List Node → Option (List Node)
  | [] => none
  | n :: ns => if n.id = i then some ns else (dropFirst? i ns).map (n :: ·)

/-- Takes a node out of the children of one of the nodes; each level is searched before the levels
below it. -/
def removeBelow? (i : NodeId) : List Node → Option (List Node)
  | [] => none
  | leaf j c :: ns => (removeBelow? i ns).map (leaf j c :: ·)
  | group j op cs :: ns =>
    match (dropFirst? i cs).or (removeBelow? i cs) with
    | some cs' => some (group j op cs' :: ns)
    | none => (removeBelow? i ns).map (group j op cs :: ·)

/-- Takes out a node and all below it. -/
def remove? (i : NodeId) (ns : List Node) : Option (List Node) :=
  (dropFirst? i ns).or (removeBelow? i ns)

/-- The nodes as they are sent: groups in which nothing is left are dropped. -/
def sent : List Node → List Clause
  | [] => []
  | leaf _ c :: ns => .leaf c.sent :: sent ns
  | group _ op cs :: ns => Clause.consGroup op (sent cs) (sent ns)

end Node

end RecordLogic.Filter
