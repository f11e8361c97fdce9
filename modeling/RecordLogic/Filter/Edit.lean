import RecordLogic.Filter.Tree

namespace RecordLogic.Filter

/-- One change of a tree whose nodes are named by their identities. -/
inductive Edit where
  | addCondition (parent : Option NodeId) (condition : Condition)
  | addGroup (parent : Option NodeId) (operator : GroupOperator)
  | updateCondition (target : NodeId) (change : ConditionUpdate)
  | updateGroup (target : NodeId) (operator : GroupOperator)
  | remove (target : NodeId)
  | clear
  | setRootOperator (operator : GroupOperator)

/-- How editing begins: with an empty tree or with a filter that was sent. -/
inductive Origin where
  | empty (operator : GroupOperator)
  | restored (payload : Payload)

namespace Tree

def ofOrigin (start : Nat) (supply : Supply) : Origin → Tree
  | .empty operator => new operator start supply
  | .restored payload => ofPayload payload start supply

/-- The tree after an edit; one that names no suitable node changes nothing. -/
def edit (t : Tree) : Edit → Tree
  | .addCondition parent condition => (t.addCondition parent condition).2
  | .addGroup parent operator => (t.addGroup parent operator).2
  | .updateCondition target change => (t.updateCondition target change).2
  | .updateGroup target operator => (t.updateGroup target operator).2
  | .remove target => (t.remove target).2
  | .clear => t.clear
  | .setRootOperator operator => t.withOperator operator

/-- The tree after edits made one after the other. -/
def run (t : Tree) (edits : List Edit) : Tree :=
  edits.foldl edit t

end Tree

end RecordLogic.Filter
