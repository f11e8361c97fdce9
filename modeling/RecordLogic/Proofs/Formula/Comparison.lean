import RecordLogic.Proofs.Formula.Basic

namespace RecordLogic.Formula

/-- A relation between two runs that sequencing keeps. The depth limit is the one error that it may
tell from the others. -/
structure Run.Relation where
  Rel : {α : Type} → Run α → Run α → Prop
  pure : ∀ {α : Type} (a : α), Rel (pure a) (pure a)
  fail : ∀ {α : Type} {e : EvalError}, (∀ limit, e ≠ .depthLimit limit) →
    Rel (Run.fail e : Run α) (Run.fail e)
  bind : ∀ {α β : Type} {r s : Run α} {f g : α → Run β}, Rel r s → (∀ a, Rel (f a) (g a)) →
    Rel (r >>= f) (s >>= g)

namespace Evaluator

/-- Two evaluations of the nodes that `Meets` describes, by depth. What they look up at a node is
the same, and where a limit is exceeded their runs are related. -/
structure Comparison (R : Run.Relation) (ev ev' : Evaluator) (ctx ctx' : Context) where
  Meets : Nat → Expr → Prop
  below : ∀ {depth e c}, Meets depth e → c ∈ e.children → Meets (depth + 1) c
  zone_eq : ev'.zone = ev.zone
  mode_eq : ev'.options.logicalMode = ev.options.logicalMode
  limit : ∀ {depth e}, Meets depth e → ev.options.maxDepth < depth ∨ ev'.options.maxDepth < depth →
    R.Rel (ev.evalAt ctx depth e) (ev'.evalAt ctx' depth e)
  form : ∀ {depth p name}, Meets depth (.identifier p name) →
    ctx'.formValue name = ctx.formValue name
  system : ∀ {depth p name}, Meets depth (.system p name) →
    ctx'.systemValue name = ctx.systemValue name
  find?_eq : ∀ {depth p name args}, Meets depth (.call p (some name) args) →
    ev'.registry.find? name = ev.registry.find? name
  unknown : ∀ {name}, R.Rel (Run.fail (ev.registry.unknown name) : Run Value)
    (Run.fail (ev'.registry.unknown name))
  invoke : ∀ {name f}, ev.registry.find? name = some f → ∀ vs,
    R.Rel (Run.call name f vs) (Run.call name f vs)

variable {R : Run.Relation} {ev ev' : Evaluator} {ctx ctx' : Context} {depth : Nat} {es : List Expr}

/-- The runs of both evaluations are related at the depth. -/
def Related (R : Run.Relation) (ev ev' : Evaluator) (ctx ctx' : Context) (depth : Nat)
    (e : Expr) : Prop :=
  R.Rel (ev.evalAt ctx depth e) (ev'.evalAt ctx' depth e)

theorem evalAll_related (h : ∀ e ∈ es, Related R ev ev' ctx ctx' depth e) :
    R.Rel (ev.evalAll ctx depth es) (ev'.evalAll ctx' depth es) := by
  induction es with
  | nil =>
    rw [evalAll, evalAll]
    exact R.pure []
  | cons e es ih =>
    have he := h e List.mem_cons_self
    have hes := ih fun d hd => h d (List.mem_cons_of_mem _ hd)
    rw [evalAll, evalAll]
    exact R.bind he fun v => R.bind hes fun vs => R.pure (v :: vs)

theorem evalUntil_related (h : ∀ e ∈ es, Related R ev ev' ctx ctx' depth e) (target : Bool) :
    R.Rel (ev.evalUntil ctx depth target es) (ev'.evalUntil ctx' depth target es) := by
  induction es with
  | nil =>
    rw [evalUntil, evalUntil]
    exact R.pure false
  | cons e es ih =>
    have he := h e List.mem_cons_self
    have hes := ih fun d hd => h d (List.mem_cons_of_mem _ hd)
    rw [evalUntil, evalUntil]
    refine R.bind he fun v => ?_
    by_cases hv : v.truthy = target
    · simp only [hv, if_true]
      exact R.pure true
    · simp only [hv, if_false]
      exact hes

theorem evalFirst_related (h : ∀ e ∈ es, Related R ev ev' ctx ctx' depth e) {err : EvalError}
    (herr : ∀ limit, err ≠ .depthLimit limit) :
    R.Rel (ev.evalFirst ctx depth err es) (ev'.evalFirst ctx' depth err es) := by
  cases es with
  | nil =>
    rw [evalFirst, evalFirst]
    exact R.fail herr
  | cons e es =>
    rw [evalFirst, evalFirst]
    exact h e List.mem_cons_self

namespace Comparison

variable {p : Option String} {operator : String} {args : List Expr}

theorem binary (c : Comparison R ev ev' ctx ctx') (hd : ¬ev.options.maxDepth < depth)
    (hd' : ¬ev'.options.maxDepth < depth)
    (ih : ∀ e ∈ args, Related R ev ev' ctx ctx' (depth + 1) e) :
    Related R ev ev' ctx ctx' depth (.binary p operator args) := by
  rw [Related, evalAt_binary _ _ _ hd, evalAt_binary _ _ _ hd', c.zone_eq]
  cases BinaryOperator.ofSymbol? operator with
  | none => exact R.fail (by simp)
  | some op =>
    rcases args with _ | ⟨left, _ | ⟨right, _ | ⟨third, rest⟩⟩⟩
    · exact R.fail (by simp)
    · exact R.fail (by simp)
    · have hleft := ih left (by simp)
      have hright := ih right (by simp)
      exact R.bind hleft fun a => R.bind hright fun b => R.pure (op.apply ev.zone a b)
    · exact R.fail (by simp)

theorem logical (c : Comparison R ev ev' ctx ctx') (hd : ¬ev.options.maxDepth < depth)
    (hd' : ¬ev'.options.maxDepth < depth)
    (ih : ∀ e ∈ args, Related R ev ev' ctx ctx' (depth + 1) e) :
    Related R ev ev' ctx ctx' depth (.logical p operator args) := by
  have hmode' := c.mode_eq
  rw [Related]
  cases hmode : ev.options.logicalMode with
  | eager =>
    rw [hmode] at hmode'
    rw [evalAt_logical_eager _ _ _ hd hmode, evalAt_logical_eager _ _ _ hd' hmode']
    cases LogicalOperator.ofSymbol? operator with
    | none => exact R.fail (by simp)
    | some op =>
      by_cases hargs : args.isEmpty
      · simp only [hargs, if_true]
        exact R.fail (by simp)
      · simp only [hargs]
        exact R.bind (evalAll_related ih) fun vs => R.pure _
  | shortCircuit =>
    rw [hmode] at hmode'
    rw [evalAt_logical_shortCircuit _ _ _ hd hmode, evalAt_logical_shortCircuit _ _ _ hd' hmode']
    cases LogicalOperator.ofSymbol? operator with
    | none => exact R.fail (by simp)
    | some op =>
      by_cases hargs : args.isEmpty
      · simp only [hargs, if_true]
        exact R.fail (by simp)
      · simp only [hargs]
        cases op with
        | and => exact R.bind (evalUntil_related ih false) fun b => R.pure _
        | or => exact R.bind (evalUntil_related ih true) fun b => R.pure _
        | not => exact R.bind (evalFirst_related ih (by simp)) fun v => R.pure _

theorem call (c : Comparison R ev ev' ctx ctx') {name : String}
    (h : c.Meets depth (.call p (some name) args)) (hd : ¬ev.options.maxDepth < depth)
    (hd' : ¬ev'.options.maxDepth < depth)
    (ih : ∀ e ∈ args, Related R ev ev' ctx ctx' (depth + 1) e) :
    Related R ev ev' ctx ctx' depth (.call p (some name) args) := by
  rw [Related, evalAt_call _ _ _ hd, evalAt_call _ _ _ hd', c.find?_eq h]
  cases hf : ev.registry.find? name with
  | none => exact c.unknown
  | some f => exact R.bind (evalAll_related ih) (c.invoke hf)

/-- Two evaluations that are compared run alike, by induction on the formula: a relation that
sequencing keeps passes from the children of a node to the node. -/
theorem related (c : Comparison R ev ev' ctx ctx') {e : Expr} (h : c.Meets depth e) :
    Related R ev ev' ctx ctx' depth e := by
  induction e using Expr.childrenInduction generalizing depth with
  | node e ih =>
    by_cases hlimit : ev.options.maxDepth < depth ∨ ev'.options.maxDepth < depth
    · exact c.limit h hlimit
    obtain ⟨hd, hd'⟩ := not_or.mp hlimit
    have hchildren : ∀ d ∈ e.children, Related R ev ev' ctx ctx' (depth + 1) d :=
      fun d hmem => ih d hmem (c.below h hmem)
    cases e with
    | literal p value =>
      rw [Related, evalAt, evalAt, if_neg hd, if_neg hd']
      exact R.pure value
    | identifier p name =>
      rw [Related, evalAt, evalAt, if_neg hd, if_neg hd', c.form h]
      exact R.pure _
    | system p name =>
      have hvalue := c.system h
      cases p <;> (rw [Related, evalAt, evalAt, if_neg hd, if_neg hd', hvalue]; exact R.pure _)
    | binary p operator args => exact c.binary hd hd' hchildren
    | logical p operator args => exact c.logical hd hd' hchildren
    | call p callee args =>
      cases callee with
      | none =>
        rw [Related, evalAt, evalAt, if_neg hd, if_neg hd']
        exact R.fail (by simp)
      | some name => exact c.call h hd hd' hchildren
    | member p args =>
      rw [Related, evalAt_member _ _ hd, evalAt_member _ _ hd']
      exact R.bind (evalFirst_related hchildren (by simp)) fun v => R.pure _
    | assignment p args =>
      rw [Related, evalAt_assignment _ _ hd, evalAt_assignment _ _ hd']
      rcases args with _ | ⟨only, _ | ⟨second, rest⟩⟩
      · exact R.pure _
      · exact hchildren only List.mem_cons_self
      · exact R.pure _
    | unsupported p type =>
      rw [Related, evalAt, evalAt, if_neg hd, if_neg hd']
      exact R.fail (by simp)

end Comparison

end Evaluator

end RecordLogic.Formula
