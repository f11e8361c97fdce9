import RecordLogic.Proofs.Formula.Basic
import RecordLogic.Proofs.Table

namespace RecordLogic.Formula

/-- A node of a formula and the depth at which it stands. -/
structure Visit where
  depth : Nat
  node : Expr

namespace Expr

mutual

/-- The nodes that an eager evaluation comes to, each before those below it, from left to right. Of
a member node only the first argument is visited, of an assignment only a single one. -/
def visits (depth : Nat) (e : Expr) : List Visit :=
  ⟨depth, e⟩ ::
    match e with
    | binary _ _ args | logical _ _ args | call _ _ args => visitsAll (depth + 1) args
    | member _ (first :: _) => visits (depth + 1) first
    | assignment _ [only] => visits (depth + 1) only
    | _ => []

def visitsAll (depth : Nat) : List Expr → List Visit
  | [] => []
  | e :: es => visits depth e ++ visitsAll depth es

end

end Expr

namespace Evaluator

/-- What is wrong with a node by itself: first its operator or callee, then the number of its
arguments. No value is looked at. -/
def ownDefect? (registry : Registry) : Expr → Option EvalError
  | .binary _ operator args =>
    match BinaryOperator.ofSymbol? operator with
    | none => some (.unsupportedOperator .binary operator)
    | some _ => if args.length = 2 then none else some (.arity .binary)
  | .logical _ operator args =>
    match LogicalOperator.ofSymbol? operator with
    | none => some (.unsupportedOperator .logical operator)
    | some _ => if args.isEmpty then some (.arity .logical) else none
  | .call _ none _ => some .missingCallee
  | .call _ (some name) _ =>
    if registry.contains name then none else some (registry.unknown name)
  | .member _ args => if args.isEmpty then some (.arity .member) else none
  | .unsupported _ type => some (.unsupportedExpression type)
  | .literal .. | .identifier .. | .system .. | .assignment .. => none

/-- The depth of a node comes before all else that can be wrong with it. -/
def defect? (ev : Evaluator) (visit : Visit) : Option EvalError :=
  if ev.options.maxDepth < visit.depth then some (.depthLimit ev.options.maxDepth)
  else ownDefect? ev.registry visit.node

/-- The first defect in the order of evaluation. -/
def firstDefect? (ev : Evaluator) (e : Expr) : Option EvalError :=
  (e.visits 0).findSome? ev.defect?

end Evaluator

/-- Every function gives a value for all arguments. -/
def Registry.Total (r : Registry) : Prop :=
  ∀ name f, r.find? name = some f → ∀ args, ∃ v, f args = .ok v

namespace Run

variable {α β : Type}

/-- How a run failed, if it did. -/
def error? (r : Run α) : Option EvalError :=
  match r.outcome with
  | .ok _ => none
  | .error e => some e

@[simp]
theorem error?_pure (a : α) : (pure a : Run α).error? = none := rfl

@[simp]
theorem error?_fail (e : EvalError) : (fail e : Run α).error? = some e := rfl

theorem error?_eq_none {r : Run α} : r.error? = none ↔ ∃ a, r.outcome = .ok a := by
  cases h : r.outcome <;> simp [error?, h]

theorem error?_eq_some {r : Run α} {e : EvalError} :
    r.error? = some e ↔ r.outcome = .error e := by
  cases h : r.outcome <;> simp [error?, h]

/-- When the second run fails in one way whatever value it gets, the error of both is the first
there is. -/
theorem error?_bind {r : Run α} {f : α → Run β} {x : Option EvalError}
    (h : ∀ a, (f a).error? = x) : (r >>= f).error? = r.error?.or x := by
  cases hr : r.outcome with
  | error e => rw [bind_of_error hr, error?_eq_some.mpr hr]; rfl
  | ok a =>
    rw [bind_of_ok hr, error?_eq_none.mpr ⟨a, hr⟩, Option.none_or, ← h a]
    rfl

end Run

namespace Evaluator

open Run RecordLogic.Formula.Expr

variable {ev : Evaluator} {ctx : Context}

/-- The evaluation of a formula fails with the first defect of the nodes that it visits. -/
def FailsByDefects (ev : Evaluator) (ctx : Context) (e : Expr) : Prop :=
  ∀ depth, (ev.evalAt ctx depth e).error? = (e.visits depth).findSome? ev.defect?

theorem error?_evalAll {es : List Expr} (h : ∀ e ∈ es, FailsByDefects ev ctx e) (depth : Nat) :
    (ev.evalAll ctx depth es).error? = (visitsAll depth es).findSome? ev.defect? := by
  induction es with
  | nil => rfl
  | cons e es ih =>
    have hes := ih fun d hd => h d (List.mem_cons_of_mem _ hd)
    rw [evalAll, visitsAll, List.findSome?_append, ← h e List.mem_cons_self depth, ← hes]
    refine error?_bind fun v => ?_
    rw [error?_bind fun vs => error?_pure (v :: vs), Option.or_none]

/-- The first defect at a node or below it is its own if it has one. -/
theorem findSome?_visits {e : Expr} {depth : Nat} {below : List Visit}
    (hd : ¬ev.options.maxDepth < depth) (h : e.visits depth = ⟨depth, e⟩ :: below) :
    (e.visits depth).findSome? ev.defect? =
      (ownDefect? ev.registry e).or (below.findSome? ev.defect?) := by
  rw [h, List.findSome?_cons, defect?, if_neg hd]
  cases ownDefect? ev.registry e <;> rfl

theorem error?_binary {p : Option String} {operator : String} {args : List Expr}
    (h : ∀ e ∈ args, FailsByDefects ev ctx e) {depth : Nat}
    (hd : ¬ev.options.maxDepth < depth) :
    (ev.evalAt ctx depth (.binary p operator args)).error? =
      ((Expr.binary p operator args).visits depth).findSome? ev.defect? := by
  rw [evalAt_binary _ _ _ hd, findSome?_visits hd (by rw [visits]), ownDefect?]
  cases BinaryOperator.ofSymbol? operator with
  | none => rfl
  | some op =>
    rcases args with _ | ⟨left, _ | ⟨right, _ | ⟨third, rest⟩⟩⟩
    · rfl
    · rfl
    · have hleft := h left List.mem_cons_self (depth + 1)
      have hright := h right (List.mem_cons_of_mem _ List.mem_cons_self) (depth + 1)
      simp only [visitsAll, List.append_nil, List.findSome?_append, ← hleft, ← hright]
      refine error?_bind fun a => ?_
      rw [error?_bind fun b => error?_pure _, Option.or_none]
    · rfl

theorem error?_logical {p : Option String} {operator : String} {args : List Expr}
    (h : ∀ e ∈ args, FailsByDefects ev ctx e) (hmode : ev.options.logicalMode = .eager)
    {depth : Nat} (hd : ¬ev.options.maxDepth < depth) :
    (ev.evalAt ctx depth (.logical p operator args)).error? =
      ((Expr.logical p operator args).visits depth).findSome? ev.defect? := by
  rw [evalAt_logical_eager _ _ _ hd hmode, findSome?_visits hd (by rw [visits]), ownDefect?]
  cases LogicalOperator.ofSymbol? operator with
  | none => rfl
  | some op =>
    cases args with
    | nil => rfl
    | cons e es =>
      simp only [List.isEmpty_cons, Bool.false_eq_true, if_false, Option.none_or]
      rw [error?_bind fun vs => error?_pure _, Option.or_none, error?_evalAll h]

theorem error?_call {p : Option String} {name : String} {args : List Expr}
    (h : ∀ e ∈ args, FailsByDefects ev ctx e) (htotal : ev.registry.Total) {depth : Nat}
    (hd : ¬ev.options.maxDepth < depth) :
    (ev.evalAt ctx depth (.call p (some name) args)).error? =
      ((Expr.call p (some name) args).visits depth).findSome? ev.defect? := by
  rw [evalAt_call _ _ _ hd, findSome?_visits hd (by rw [visits]), ownDefect?, Registry.contains]
  cases hf : ev.registry.find? name with
  | none => rfl
  | some f =>
    have hcall : ∀ vs, (Run.call name f vs).error? = none := fun vs =>
      error?_eq_none.mpr (htotal name f hf vs)
    simp only [error?_bind hcall, Option.or_none, error?_evalAll h, Option.isSome_some, if_true,
      Option.none_or]

/-- By induction on the formula: a node is defective itself, or the children that it visits decide
in their order, whatever their values. -/
theorem failsByDefects (hmode : ev.options.logicalMode = .eager) (htotal : ev.registry.Total)
    (e : Expr) : FailsByDefects ev ctx e := by
  induction e using Expr.childrenInduction with
  | node e ih =>
    intro depth
    by_cases hd : ev.options.maxDepth < depth
    · rw [evalAt_of_lt e hd, visits.eq_def, List.findSome?_cons, defect?, if_pos hd]
      rfl
    cases e with
    | binary => exact error?_binary ih hd
    | logical => exact error?_logical ih hmode hd
    | call p callee args =>
      cases callee with
      | none =>
        rw [evalAt, if_neg hd, findSome?_visits hd (by rw [visits])]
        rfl
      | some name => exact error?_call ih htotal hd
    | member p args =>
      rw [evalAt_member _ _ hd, error?_bind fun v => error?_pure _, Option.or_none]
      cases args with
      | nil =>
        rw [findSome?_visits hd (visits.eq_def _ _)]
        rfl
      | cons first rest =>
        rw [findSome?_visits hd (by rw [visits])]
        exact ih first List.mem_cons_self (depth + 1)
    | assignment p args =>
      rw [evalAt_assignment _ _ hd]
      rcases args with _ | ⟨only, _ | ⟨second, rest⟩⟩
      · rw [findSome?_visits hd (visits.eq_def _ _)]
        rfl
      · rw [findSome?_visits hd (by rw [visits])]
        exact ih only List.mem_cons_self (depth + 1)
      · rw [findSome?_visits hd (visits.eq_def _ _)]
        rfl
    | system p name =>
      cases p <;> (rw [evalAt, if_neg hd, findSome?_visits hd (visits.eq_def _ _)]; rfl)
    | literal | identifier | unsupported =>
      rw [evalAt, if_neg hd, findSome?_visits hd (visits.eq_def _ _)]
      rfl

/-- In eager mode, with functions that cannot fail, the outcome in any two contexts is decided by
the first defect of the formula: without one both evaluations give a value, else both fail with
it. -/
theorem eager_outcome_by_firstDefect (ev : Evaluator) (hmode : ev.options.logicalMode = .eager)
    (htotal : ev.registry.Total) (e : Expr) (c₁ c₂ : Context) :
    (ev.firstDefect? e = none ∧ (∃ v, (ev.eval c₁ e).outcome = .ok v) ∧
      ∃ v, (ev.eval c₂ e).outcome = .ok v) ∨
    ∃ err, ev.firstDefect? e = some err ∧
      (ev.eval c₁ e).outcome = .error err ∧ (ev.eval c₂ e).outcome = .error err := by
  have h₁ : (ev.eval c₁ e).error? = ev.firstDefect? e := failsByDefects hmode htotal e 0
  have h₂ : (ev.eval c₂ e).error? = ev.firstDefect? e := failsByDefects hmode htotal e 0
  cases hfirst : ev.firstDefect? e with
  | none =>
    rw [hfirst] at h₁ h₂
    exact Or.inl ⟨rfl, error?_eq_none.mp h₁, error?_eq_none.mp h₂⟩
  | some err =>
    rw [hfirst] at h₁ h₂
    exact Or.inr ⟨err, rfl, error?_eq_some.mp h₁, error?_eq_some.mp h₂⟩

end Evaluator

theorem Builtin.apply_ok {b : Builtin} (hadd : b ≠ .dateAdd) (hdiff : b ≠ .dateDiff)
    (zone : Time.Zone) (args : Arguments) : ∃ v, b.apply zone args = .ok v := by
  cases b with
  | dateAdd => exact absurd rfl hadd
  | dateDiff => exact absurd rfl hdiff
  | _ => exact ⟨_, rfl⟩

/-- The built-in functions without the two that look at a date unit. -/
def Registry.withoutDateUnits (zone : Time.Zone) : Registry :=
  (((builtin zone).unregister "DATEADD").2.unregister "DATEDIFF").2

theorem Registry.total_withoutDateUnits (zone : Time.Zone) : (withoutDateUnits zone).Total := by
  intro name f hf args
  change (((builtin zone).erase "DATEADD").erase "DATEDIFF").find? name = some f at hf
  have hdiff : "DATEDIFF" ≠ name := by
    rintro rfl
    rw [Table.find?_erase_self] at hf
    cases hf
  rw [Table.find?_erase_of_ne hdiff] at hf
  have hadd : "DATEADD" ≠ name := by
    rintro rfl
    rw [Table.find?_erase_self] at hf
    cases hf
  rw [Table.find?_erase_of_ne hadd] at hf
  obtain ⟨b, -, hb⟩ := List.mem_map.mp (Table.mem_of_find?_ofList hf)
  cases hb
  refine Builtin.apply_ok ?_ ?_ zone args
  · rintro rfl
    exact hadd rfl
  · rintro rfl
    exact hdiff rfl

namespace Evaluator

/-- An unknown operator behind an argument that decides the disjunction in one context only, and
behind a call of a total function, fails in both contexts. -/
theorem eager_outcome_by_firstDefect_power :
    let ev : Evaluator := ⟨.utc, Registry.withoutDateUnits .utc, {}⟩
    let e : Expr := .logical none "OR"
      [.identifier none "open", .call none (some "UPPER") [.identifier none "open"],
        .binary none "**" []]
    let closed : Context := ⟨Table.empty, Table.empty⟩
    let opened : Context := ⟨Table.ofList [("open", .bool true)], Table.empty⟩
    (ev.eval closed e).outcome = .error (.unsupportedOperator .binary "**") ∧
      (ev.eval opened e).outcome = .error (.unsupportedOperator .binary "**") := by
  intro ev e closed opened
  have hfirst : ev.firstDefect? e = some (.unsupportedOperator .binary "**") := by decide
  rcases eager_outcome_by_firstDefect ev rfl (Registry.total_withoutDateUnits _) e closed opened
    with ⟨hnone, -, -⟩ | ⟨err, hsome, hclosed, hopened⟩
  · rw [hfirst] at hnone
    cases hnone
  · rw [hfirst] at hsome
    cases hsome
    exact ⟨hclosed, hopened⟩

end Evaluator

end RecordLogic.Formula
