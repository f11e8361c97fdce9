import RecordLogic.Formula.Context
import RecordLogic.Formula.Expr
import RecordLogic.Formula.Operator
import RecordLogic.Formula.Options
import RecordLogic.Formula.Run

namespace RecordLogic.Formula

/-- What an evaluation depends on besides its context. -/
structure Evaluator where
  zone : Time.Zone
  registry : Registry
  options : Options := {}

namespace Evaluator

/-- Reads the property that a node names from a value. -/
def readFrom (property : Option String) (v : Value) : Value :=
  match property with
  | some name => v.read name
  | none => v.readNothing

/-- The value of `AND`, `OR` or `!` over values; `!` looks at the first one only. -/
def combine (op : LogicalOperator) (vs : List Value) : Bool :=
  match op with
  | .and => vs.all Value.truthy
  | .or => vs.any Value.truthy
  | .not => !(vs.headD .undefined).truthy

mutual

/-- Evaluates a node at a depth. A node below the depth limit fails first; then its own form is
checked, and then its arguments are evaluated from left to right. -/
def evalAt (ev : Evaluator) (ctx : Context) (depth : Nat) (e : Expr) : Run Value :=
  if ev.options.maxDepth < depth then Run.fail (.depthLimit ev.options.maxDepth)
  else match e with
    | .literal _ value => pure value
    | .identifier _ name => pure (ctx.formValue name)
    | .system none name => pure (ctx.systemValue name)
    | .system (some property) name => pure ((ctx.systemValue name).read property)
    | .binary _ operator args =>
      match BinaryOperator.ofSymbol? operator with
      | none => Run.fail (.unsupportedOperator .binary operator)
      | some op =>
        match args with
        | [left, right] => do
          let a ← evalAt ev ctx (depth + 1) left
          let b ← evalAt ev ctx (depth + 1) right
          return op.apply ev.zone a b
        | _ => Run.fail (.arity .binary)
    | .logical _ operator args =>
      match LogicalOperator.ofSymbol? operator with
      | none => Run.fail (.unsupportedOperator .logical operator)
      | some op =>
        if args.isEmpty then Run.fail (.arity .logical)
        else
          match ev.options.logicalMode, op with
          | .eager, op => do
            let vs ← evalAll ev ctx (depth + 1) args
            return .bool (combine op vs)
          | .shortCircuit, .and => do
            return .bool (!(← evalUntil ev ctx (depth + 1) false args))
          | .shortCircuit, .or => do
            return .bool (← evalUntil ev ctx (depth + 1) true args)
          | .shortCircuit, .not => do
            let v ← evalFirst ev ctx (depth + 1) (.arity .logical) args
            return .bool (!v.truthy)
    | .call _ none _ => Run.fail .missingCallee
    | .call _ (some name) args =>
      match ev.registry.find? name with
      | none => Run.fail (ev.registry.unknown name)
      | some f => do
        let vs ← evalAll ev ctx (depth + 1) args
        Run.call name f vs
    | .member _ args => do
      let v ← evalFirst ev ctx (depth + 1) (.arity .member) args
      return readFrom (args.head?.bind Expr.property) v
    | .assignment _ args =>
      match args with
      | [only] => evalAt ev ctx (depth + 1) only
      | _ => pure .undefined
    | .unsupported _ type => Run.fail (.unsupportedExpression type)

/-- The values of all arguments. -/
def evalAll (ev : Evaluator) (ctx : Context) (depth : Nat) : List Expr → Run (List Value)
  | [] => pure []
  | e :: es => do
    let v ← evalAt ev ctx depth e
    let vs ← evalAll ev ctx depth es
    return v :: vs

/-- Whether an argument counts as `target`; those after the first such are not evaluated. -/
def evalUntil (ev : Evaluator) (ctx : Context) (depth : Nat) (target : Bool) :
    List Expr → Run Bool
  | [] => pure false
  | e :: es => do
    let v ← evalAt ev ctx depth e
    if v.truthy = target then return true else evalUntil ev ctx depth target es

/-- The value of the first argument; without one there is an error. -/
def evalFirst (ev : Evaluator) (ctx : Context) (depth : Nat) (e : EvalError) :
    List Expr → Run Value
  | [] => Run.fail e
  | first :: _ => evalAt ev ctx depth first

end

/-- Evaluates a formula. -/
def eval (ev : Evaluator) (ctx : Context) (e : Expr) : Run Value :=
  ev.evalAt ctx 0 e

/-- The built-in functions and the default options. -/
def standard (zone : Time.Zone) : Evaluator :=
  ⟨zone, Registry.builtin zone, {}⟩

end Evaluator

end RecordLogic.Formula
