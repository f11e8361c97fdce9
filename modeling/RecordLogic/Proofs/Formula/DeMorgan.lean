import Mathlib.Data.List.Forall2
import RecordLogic.Proofs.Formula.Basic

namespace RecordLogic

theorem Value.truthy_bool (b : Bool) : (bool b).truthy = b := rfl

namespace Formula

namespace LogicalOperator

theorem ofSymbol?_symbol (op : LogicalOperator) : ofSymbol? op.symbol = some op := by
  cases op <;> decide

/-- The operator that an argument decides if it counts as `target`. -/
def decidedBy (target : Bool) : LogicalOperator :=
  if target then .or else .and

end LogicalOperator

/-- The second formula is the first one under a negation. -/
def Expr.Negates (e d : Expr) : Prop :=
  ∃ p, d = .logical p "!" [e]

/-- The run fails or ends with a boolean. -/
def Run.EndsBoolean (r : Run Value) : Prop :=
  ∀ v, r.outcome = .ok v → ∃ b, v = .bool b

theorem Run.endsBoolean_bind (r : Run Bool) (f : Bool → Bool) :
    EndsBoolean (r >>= fun b => pure (.bool (f b))) := by
  intro v hv
  obtain ⟨b, -, hb⟩ := bind_outcome_eq_ok.mp hv
  cases hb
  exact ⟨f b, rfl⟩

theorem Run.fail_bind {α β : Type} (e : EvalError) (f : α → Run β) :
    (fail e : Run α) >>= f = fail e :=
  bind_of_error rfl

namespace Evaluator

open Formula.Expr (Negates)
open LogicalOperator (decidedBy)

variable {ev : Evaluator} {ctx : Context} {depth : Nat} {p q r : Option String} {e : Expr}
  {args negs : List Expr} {target : Bool}

/-- Whether an argument counts as `target`. All arguments are evaluated for it or, in short-circuit
mode, those up to the first such. -/
def search (ev : Evaluator) (ctx : Context) (depth : Nat) (target : Bool) (args : List Expr) :
    Run Bool :=
  match ev.options.logicalMode with
  | .eager => do
    let vs ← ev.evalAll ctx depth args
    return vs.any (·.truthy == target)
  | .shortCircuit => ev.evalUntil ctx depth target args

theorem combine_decidedBy (target : Bool) (vs : List Value) :
    combine (decidedBy target) vs = (vs.any (·.truthy == target) == target) := by
  cases target
  · simp [decidedBy, combine, List.not_any_eq_all_not]
  · simp [decidedBy, combine]

/-- In both modes the value of a conjunction or a disjunction comes from a search. -/
theorem evalAt_decidedBy (hne : args ≠ []) (h : ¬ev.options.maxDepth < depth) :
    ev.evalAt ctx depth (.logical p (decidedBy target).symbol args) =
      ev.search ctx (depth + 1) target args >>= fun found => pure (.bool (found == target)) := by
  have hargs : args.isEmpty = false := by simpa using hne
  cases hmode : ev.options.logicalMode with
  | eager =>
    rw [evalAt_logical_eager _ _ _ h hmode, LogicalOperator.ofSymbol?_symbol, search, hmode]
    simp only [hargs, Bool.false_eq_true, if_false, combine_decidedBy, bind_assoc, pure_bind]
  | shortCircuit =>
    rw [evalAt_logical_shortCircuit _ _ _ h hmode, LogicalOperator.ofSymbol?_symbol, search, hmode]
    cases target <;> simp [hargs, decidedBy]

theorem evalAt_not (h : ¬ev.options.maxDepth < depth) :
    ev.evalAt ctx depth (.logical p "!" [e]) =
      ev.evalAt ctx (depth + 1) e >>= fun v => pure (.bool (!v.truthy)) := by
  have hsymbol : LogicalOperator.ofSymbol? "!" = some .not :=
    LogicalOperator.ofSymbol?_symbol .not
  cases hmode : ev.options.logicalMode with
  | eager =>
    rw [evalAt_logical_eager _ _ _ h hmode, hsymbol]
    simp [evalAll, combine]
  | shortCircuit =>
    rw [evalAt_logical_shortCircuit _ _ _ h hmode, hsymbol]
    simp [evalFirst]

theorem negations_ne_nil (hne : args ≠ []) (hnegs : List.Forall₂ Negates args negs) :
    negs ≠ [] := by
  rintro rfl
  cases hnegs
  contradiction

theorem evalAll_negations (h : ¬ev.options.maxDepth < depth)
    (hnegs : List.Forall₂ Negates args negs) :
    ev.evalAll ctx depth negs = ev.evalAll ctx (depth + 1) args >>= fun vs =>
      pure (vs.map fun v => .bool (!v.truthy)) := by
  induction hnegs with
  | nil => simp [evalAll]
  | cons hd _ ih =>
    obtain ⟨p, rfl⟩ := hd
    rw [evalAll, evalAll, evalAt_not h, ih]
    simp only [bind_assoc, pure_bind, List.map_cons]

theorem evalUntil_negations (h : ¬ev.options.maxDepth < depth)
    (hnegs : List.Forall₂ Negates args negs) :
    ev.evalUntil ctx depth (!target) negs = ev.evalUntil ctx (depth + 1) target args := by
  induction hnegs with
  | nil => simp [evalUntil]
  | cons hd _ ih =>
    obtain ⟨p, rfl⟩ := hd
    rw [evalUntil, evalUntil, evalAt_not h, ih]
    simp only [bind_assoc, pure_bind, Value.truthy_bool, Bool.not_inj_iff]

/-- A negation is looked for one level above what it negates. -/
theorem search_negations (h : ¬ev.options.maxDepth < depth)
    (hnegs : List.Forall₂ Negates args negs) :
    ev.search ctx depth (!target) negs = ev.search ctx (depth + 1) target args := by
  rw [search, search]
  cases ev.options.logicalMode with
  | eager =>
    have hnot : ∀ b : Bool, ((!b) == !target) = (b == target) := by cases target <;> simp
    simp only [evalAll_negations h hnegs, bind_assoc, pure_bind, List.any_map, Function.comp_def,
      Value.truthy_bool, hnot]
  | shortCircuit => exact evalUntil_negations h hnegs

/-- Below the limit a search fails with its first argument. -/
theorem search_of_lt (hne : args ≠ []) (h : ev.options.maxDepth < depth) :
    ev.search ctx depth target args = Run.fail (.depthLimit ev.options.maxDepth) := by
  cases args with
  | nil => contradiction
  | cons e es =>
    rw [search]
    cases ev.options.logicalMode with
    | eager => simp only [evalAll, evalAt_of_lt e h, Run.fail_bind]
    | shortCircuit => rw [evalUntil, evalAt_of_lt e h, Run.fail_bind]

/-- Both laws at once: a negation passes through the operator that `target` decides and leaves the
one that its opposite decides. -/
theorem evalAt_not_decidedBy (hne : args ≠ []) (hnegs : List.Forall₂ Negates args negs) :
    ev.evalAt ctx depth (.logical p "!" [.logical q (decidedBy target).symbol args]) =
      ev.evalAt ctx depth (.logical r (decidedBy (!target)).symbol negs) := by
  have hne' := negations_ne_nil hne hnegs
  by_cases hd : ev.options.maxDepth < depth
  · rw [evalAt_of_lt _ hd, evalAt_of_lt _ hd]
  rw [evalAt_not hd, evalAt_decidedBy hne' hd]
  by_cases hd' : ev.options.maxDepth < depth + 1
  · rw [evalAt_of_lt _ hd', search_of_lt hne' hd', Run.fail_bind, Run.fail_bind]
  · have hnot : ∀ b : Bool, (!(b == target)) = (b == !target) := by cases target <;> simp
    rw [evalAt_decidedBy hne hd', search_negations hd' hnegs]
    simp only [bind_assoc, pure_bind, Value.truthy_bool, hnot]

theorem endsBoolean_decidedBy (hne : args ≠ []) :
    (ev.evalAt ctx depth (.logical p (decidedBy target).symbol args)).EndsBoolean := by
  by_cases hd : ev.options.maxDepth < depth
  · rw [evalAt_of_lt _ hd]
    exact nofun
  · rw [evalAt_decidedBy hne hd]
    exact Run.endsBoolean_bind _ _

/-- De Morgan's laws for the two operators over at least one argument, at any depth and in both
modes: the runs are the same, the calls with the value or the error, and a value is a boolean. -/
theorem deMorgan (ev : Evaluator) (ctx : Context) (depth : Nat) (p q r : Option String)
    (hne : args ≠ []) (hnegs : List.Forall₂ Negates args negs) :
    ev.evalAt ctx depth (.logical p "!" [.logical q "AND" args]) =
        ev.evalAt ctx depth (.logical r "OR" negs) ∧
      ev.evalAt ctx depth (.logical p "!" [.logical q "OR" args]) =
        ev.evalAt ctx depth (.logical r "AND" negs) ∧
      (ev.evalAt ctx depth (.logical r "OR" negs)).EndsBoolean ∧
      (ev.evalAt ctx depth (.logical r "AND" negs)).EndsBoolean := by
  have hne' := negations_ne_nil hne hnegs
  have hand : (decidedBy false).symbol = "AND" := rfl
  have hor : (decidedBy true).symbol = "OR" := rfl
  rw [← hand, ← hor]
  exact ⟨evalAt_not_decidedBy hne hnegs, evalAt_not_decidedBy hne hnegs,
    endsBoolean_decidedBy hne', endsBoolean_decidedBy hne'⟩

/-- A conjunction that calls a function and then fails at its unknown operator, and a disjunction
that is decided before either. -/
theorem deMorgan_power :
    let registry : Registry := Table.ofList [("TICK", fun _ => .ok (.bool true))]
    let ev : Evaluator := ⟨.utc, registry, { logicalMode := .shortCircuit }⟩
    let ctx : Context := ⟨Table.ofList [("open", .bool true)], Table.empty⟩
    let negate : Expr → Expr := fun e => .logical none "!" [e]
    let args : List Expr :=
      [.identifier none "open", .call none (some "TICK") [], .binary none "**" []]
    args ≠ [] ∧ List.Forall₂ Negates args (args.map negate) ∧
      ev.eval ctx (negate (.logical none "AND" args)) =
        ev.eval ctx (.logical none "OR" (args.map negate)) ∧
      (ev.eval ctx (negate (.logical none "AND" args))).calls.length = 1 ∧
      (ev.eval ctx (negate (.logical none "AND" args))).outcome =
        .error (.unsupportedOperator .binary "**") ∧
      ev.eval ctx (negate (.logical none "OR" args)) =
        ev.eval ctx (.logical none "AND" (args.map negate)) ∧
      (ev.eval ctx (negate (.logical none "OR" args))).calls = [] ∧
      (ev.eval ctx (negate (.logical none "OR" args))).outcome = .ok (.bool false) := by
  intro registry ev ctx negate args
  have hnegs : List.Forall₂ Negates args (args.map negate) := by
    refine List.forall₂_map_right_iff.mpr (List.forall₂_same.mpr fun e _ => ?_)
    exact ⟨none, rfl⟩
  have hne : args ≠ [] := List.cons_ne_nil _ _
  obtain ⟨hand, hor, -, -⟩ := deMorgan ev ctx 0 none none none hne hnegs
  exact ⟨hne, hnegs, hand, rfl, rfl, hor, rfl, rfl⟩

/-- Without arguments the sides differ: a negation stands one level deeper than a disjunction. -/
example :
    let ev : Evaluator := ⟨.utc, Table.empty, { maxDepth := 0 }⟩
    let ctx : Context := ⟨Table.empty, Table.empty⟩
    (ev.eval ctx (.logical none "!" [.logical none "AND" []])).outcome = .error (.depthLimit 0) ∧
      (ev.eval ctx (.logical none "OR" [])).outcome = .error (.arity .logical) :=
  ⟨rfl, rfl⟩

end Evaluator

end Formula

end RecordLogic
