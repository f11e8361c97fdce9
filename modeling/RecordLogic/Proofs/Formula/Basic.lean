import RecordLogic.Formula.Eval

namespace RecordLogic.Formula

namespace Expr

theorem sizeOf_lt_of_mem_children {c e : Expr} (h : c ∈ e.children) : sizeOf c < sizeOf e := by
  cases e <;> simp only [children, List.not_mem_nil] at h
  all_goals
    have hlt := List.sizeOf_lt_of_mem h
    simp only [binary.sizeOf_spec, logical.sizeOf_spec, call.sizeOf_spec, member.sizeOf_spec,
      assignment.sizeOf_spec]
    omega

/-- What holds of a formula as soon as it holds of its children holds of every formula. -/
@[elab_as_elim]
theorem childrenInduction {motive : Expr → Prop}
    (node : ∀ e, (∀ c ∈ e.children, motive c) → motive e) (e : Expr) : motive e :=
  node e fun c hc =>
    have := sizeOf_lt_of_mem_children hc
    childrenInduction node c
termination_by sizeOf e

end Expr

namespace Run

variable {α β : Type}

@[simp]
theorem pure_calls (a : α) : (pure a : Run α).calls = [] := rfl

@[simp]
theorem pure_outcome (a : α) : (pure a : Run α).outcome = .ok a := rfl

@[simp]
theorem fail_outcome (e : EvalError) : (fail e : Run α).outcome = .error e := rfl

theorem bind_of_ok {r : Run α} {f : α → Run β} {a : α} (h : r.outcome = .ok a) :
    r >>= f = ⟨r.calls ++ (f a).calls, (f a).outcome⟩ := by
  change r.andThen f = _
  simp only [andThen, h]

theorem bind_of_error {r : Run α} {f : α → Run β} {e : EvalError} (h : r.outcome = .error e) :
    r >>= f = ⟨r.calls, .error e⟩ := by
  change r.andThen f = _
  simp only [andThen, h]

theorem bind_outcome_eq_ok {r : Run α} {f : α → Run β} {b : β} :
    (r >>= f).outcome = .ok b ↔ ∃ a, r.outcome = .ok a ∧ (f a).outcome = .ok b := by
  cases hr : r.outcome with
  | ok a => simp [bind_of_ok hr]
  | error e => simp [bind_of_error hr]

instance : LawfulMonad Run :=
  LawfulMonad.mk' Run
    (fun r => by
      cases hr : r.outcome with
      | ok a =>
        change r >>= (fun a => pure a) = r
        rw [bind_of_ok hr]
        simp [← hr]
      | error e =>
        change r >>= (fun a => pure a) = r
        rw [bind_of_error hr, ← hr])
    (fun a f => rfl)
    (fun r f g => by
      cases hr : r.outcome with
      | error e => rw [bind_of_error hr, bind_of_error hr, bind_of_error rfl]
      | ok a =>
        rw [bind_of_ok hr, bind_of_ok hr]
        cases hf : (f a).outcome with
        | error e => rw [bind_of_error hf, bind_of_error rfl]
        | ok b => rw [bind_of_ok hf, bind_of_ok rfl, List.append_assoc])

end Run

namespace Evaluator

variable {ev : Evaluator} {ctx : Context} {depth : Nat}

theorem evalAt_of_lt (e : Expr) (h : ev.options.maxDepth < depth) :
    ev.evalAt ctx depth e = Run.fail (.depthLimit ev.options.maxDepth) := by
  rw [evalAt.eq_def, if_pos h]

theorem evalAt_binary (p : Option String) (operator : String) (args : List Expr)
    (h : ¬ev.options.maxDepth < depth) :
    ev.evalAt ctx depth (.binary p operator args) =
      match BinaryOperator.ofSymbol? operator with
      | none => Run.fail (.unsupportedOperator .binary operator)
      | some op =>
        match args with
        | [left, right] => do
          let a ← ev.evalAt ctx (depth + 1) left
          let b ← ev.evalAt ctx (depth + 1) right
          return op.apply ev.zone a b
        | _ => Run.fail (.arity .binary) := by
  have hstep := evalAt.eq_def ev ctx depth (.binary p operator args)
  rw [if_neg h] at hstep
  exact hstep

/-- In eager mode a logical node combines the values of all its arguments. -/
theorem evalAt_logical_eager (p : Option String) (operator : String) (args : List Expr)
    (h : ¬ev.options.maxDepth < depth) (hmode : ev.options.logicalMode = .eager) :
    ev.evalAt ctx depth (.logical p operator args) =
      match LogicalOperator.ofSymbol? operator with
      | none => Run.fail (.unsupportedOperator .logical operator)
      | some op =>
        if args.isEmpty then Run.fail (.arity .logical)
        else do
          let vs ← ev.evalAll ctx (depth + 1) args
          return .bool (combine op vs) := by
  have hstep := evalAt.eq_def ev ctx depth (.logical p operator args)
  rw [if_neg h, hmode] at hstep
  exact hstep

/-- In short-circuit mode it looks for the argument that decides. -/
theorem evalAt_logical_shortCircuit (p : Option String) (operator : String) (args : List Expr)
    (h : ¬ev.options.maxDepth < depth) (hmode : ev.options.logicalMode = .shortCircuit) :
    ev.evalAt ctx depth (.logical p operator args) =
      match LogicalOperator.ofSymbol? operator with
      | none => Run.fail (.unsupportedOperator .logical operator)
      | some op =>
        if args.isEmpty then Run.fail (.arity .logical)
        else
          match op with
          | .and => do
            return .bool (!(← ev.evalUntil ctx (depth + 1) false args))
          | .or => do
            return .bool (← ev.evalUntil ctx (depth + 1) true args)
          | .not => do
            let v ← ev.evalFirst ctx (depth + 1) (.arity .logical) args
            return .bool (!v.truthy) := by
  rw [evalAt, if_neg h, hmode]
  cases LogicalOperator.ofSymbol? operator with
  | none => rfl
  | some op => cases op <;> rfl

theorem evalAt_call (p : Option String) (name : String) (args : List Expr)
    (h : ¬ev.options.maxDepth < depth) :
    ev.evalAt ctx depth (.call p (some name) args) =
      match ev.registry.find? name with
      | none => Run.fail (ev.registry.unknown name)
      | some f => ev.evalAll ctx (depth + 1) args >>= Run.call name f := by
  have hstep := evalAt.eq_def ev ctx depth (.call p (some name) args)
  rw [if_neg h] at hstep
  exact hstep

theorem evalAt_member (p : Option String) (args : List Expr) (h : ¬ev.options.maxDepth < depth) :
    ev.evalAt ctx depth (.member p args) =
      ev.evalFirst ctx (depth + 1) (.arity .member) args >>= fun v =>
        pure (readFrom (args.head?.bind Expr.property) v) := by
  have hstep := evalAt.eq_def ev ctx depth (.member p args)
  rw [if_neg h] at hstep
  exact hstep

theorem evalAt_assignment (p : Option String) (args : List Expr)
    (h : ¬ev.options.maxDepth < depth) :
    ev.evalAt ctx depth (.assignment p args) =
      match args with
      | [only] => ev.evalAt ctx (depth + 1) only
      | _ => pure .undefined := by
  have hstep := evalAt.eq_def ev ctx depth (.assignment p args)
  rw [if_neg h] at hstep
  exact hstep

end Evaluator

end RecordLogic.Formula
