import RecordLogic.Filter.Tree

namespace RecordLogic.Filter

open Json (Decoder DecodeError Record)

/-- One edit. Nodes are named by refs; an edit that adds a node may bind a ref to it. -/
inductive Step where
  | addCondition (ref parent : Option String) (condition : Condition)
  | addGroup (ref parent : Option String) (operator : GroupOperator)
  | update (target : String) (change : ConditionUpdate)
  | setGroupOperator (target : String) (operator : GroupOperator)
  | remove (target : String)
  | setRootOperator (operator : GroupOperator)
  | clear

/-- Edits to be made one after the other, and the operator of the root if it is given. -/
structure Script where
  rootOperator : Option GroupOperator := none
  steps : List Step := []

/-- A script names a node that no earlier step has bound. -/
structure UnknownRef where
  step : Nat
  ref : String
deriving DecidableEq

def UnknownRef.message (e : UnknownRef) : String :=
  "step " ++ toString e.step ++ ": unknown ref '" ++ e.ref ++ "'"

/-- The tree that a script edits, and what its refs are bound to. -/
structure Session where
  tree : Tree
  refs : Table NodeId

namespace Session

/-- The ref `root` names the root at the start. -/
def start (operator : GroupOperator) (first : Nat) (supply : Supply := .counted) : Session :=
  let tree := Tree.new operator first supply
  ⟨tree, Table.empty.insert "root" tree.rootId⟩

def resolve (s : Session) (step : Nat) (ref : String) : Except UnknownRef NodeId :=
  match s.refs.find? ref with
  | some i => .ok i
  | none => .error ⟨step, ref⟩

/-- The node of a ref, if there is a ref. -/
def resolveParent (s : Session) (step : Nat) : Option String → Except UnknownRef (Option NodeId)
  | none => .ok none
  | some ref => (s.resolve step ref).map some

/-- Binds a ref to a node that was added; says whether there is such a node. -/
def bound (s : Session) (ref : Option String) (r : Option NodeId × Tree) : Bool × Session :=
  match r, ref with
  | (some i, tree), some name => (true, ⟨tree, s.refs.insert name i⟩)
  | (some _, tree), none => (true, { s with tree })
  | (none, tree), _ => (false, { s with tree })

def changed (s : Session) (r : Bool × Tree) : Bool × Session :=
  (r.1, { s with tree := r.2 })

/-- Makes one edit and says whether it changed anything. -/
def apply (s : Session) (n : Nat) : Step → Except UnknownRef (Bool × Session)
  | .addCondition ref parent condition => do
    let i ← s.resolveParent n parent
    return s.bound ref (s.tree.addCondition i condition)
  | .addGroup ref parent operator => do
    let i ← s.resolveParent n parent
    return s.bound ref (s.tree.addGroup i operator)
  | .update target change => do
    let i ← s.resolve n target
    return s.changed (s.tree.updateCondition i change)
  | .setGroupOperator target operator => do
    let i ← s.resolve n target
    return s.changed (s.tree.updateGroup i operator)
  | .remove target => do
    let i ← s.resolve n target
    return s.changed (s.tree.remove i)
  | .setRootOperator operator => .ok (s.changed (true, s.tree.withOperator operator))
  | .clear => .ok (s.changed (true, s.tree.clear))

end Session

/-- What is left of a script: the edited tree and the steps that changed nothing. -/
structure Replay where
  tree : Tree
  skipped : List Nat

/-- Makes the edits, of which the first has number `n`. -/
def Session.run (s : Session) (n : Nat) : List Step → Except UnknownRef Replay
  | [] => .ok ⟨s.tree, []⟩
  | step :: steps => do
    let (applied, s) ← s.apply n step
    let r ← s.run (n + 1) steps
    return if applied then r else { r with skipped := n :: r.skipped }

/-- Makes the edits of a script on a new tree. -/
def Script.replay (script : Script) (default : GroupOperator) (first : Nat := 0)
    (supply : Supply := .counted) : Except UnknownRef Replay :=
  (Session.start (script.rootOperator.getD default) first supply).run 0 script.steps

namespace Step

/-- The name of an edit and the names of its fields. -/
def forms : List (String × List String) :=
  [("add_condition", ["ref", "parent", "condition"]), ("add_group", ["ref", "parent", "operator"]),
    ("update", ["target", "update"]), ("set_group_operator", ["target", "operator"]),
    ("remove", ["target"]), ("set_root_operator", ["operator"]), ("clear", [])]

def tag : Json.Fields := ⟨["op"], 1⟩

/-- The name that a document gives to its edit. -/
def nameOf : Decoder String
  | .object entries => do
    let r ← Json.record tag (.object entries)
    r.required "op" Json.Decode.text
  | .array (name :: _) => Json.Decode.text name
  | _ => .error (.expected "an edit")

def operatorOf (r : Record) : Except DecodeError GroupOperator :=
  r.required "operator" (Json.Decode.keptName GroupOperator.ofName?)

/-- The edit of a name and its fields. -/
def ofRecord (name : String) (r : Record) : Except DecodeError Step := do
  match name with
  | "add_condition" =>
    let ref ← r.optional "ref" Json.Decode.text
    let parent ← r.optional "parent" Json.Decode.text
    return .addCondition ref parent
      (← r.required "condition" (Condition.decode Condition.stepNames))
  | "add_group" =>
    let ref ← r.optional "ref" Json.Decode.text
    let parent ← r.optional "parent" Json.Decode.text
    return .addGroup ref parent (← operatorOf r)
  | "update" =>
    let target ← r.required "target" Json.Decode.text
    return .update target (← r.required "update" (ConditionUpdate.decodeAs Condition.stepNames))
  | "set_group_operator" =>
    let target ← r.required "target" Json.Decode.text
    return .setGroupOperator target (← operatorOf r)
  | "remove" => return .remove (← r.required "target" Json.Decode.text)
  | "set_root_operator" => return .setRootOperator (← operatorOf r)
  | "clear" => return .clear
  | _ => throw (.unknownName name)

/-- An edit is a record that names it under `op` and is kept until the name is known; its positional
form gives every field. -/
def decode : Decoder Step := fun j => do
  let name ← nameOf j
  match forms.lookup name with
  | none => throw (.unknownName name)
  | some fields =>
    let r ← Json.record ⟨"op" :: fields, fields.length + 1⟩ j
    ofRecord name r

end Step

/-- A script has no other fields. -/
def Script.decode : Decoder Script := fun j => do
  let r ← Json.strictRecord ⟨["root_operator", "steps"], 0⟩ j
  let rootOperator ← r.optional "root_operator" (Json.Decode.name GroupOperator.ofName?)
  let steps ← r.defaulted "steps" [] (Json.Decode.items Step.decode)
  return ⟨rootOperator, steps⟩

end RecordLogic.Filter
