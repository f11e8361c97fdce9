import RecordLogic.Proofs.Formula.Basic

namespace RecordLogic.Formula

namespace Run

variable {α β : Type}

/-- Whatever value `s` ends with, `r` ends with it as well, by some of the calls of `s` in their
order. Where `s` fails, nothing is said of `r`. -/
def Refines (r s : Run α) : Prop :=
  ∀ a, s.outcome = .ok a → r.outcome = .ok a ∧ r.calls.Sublist s.calls

theorem Refines.refl (r : Run α) : Refines r r := fun _ h => ⟨h, List.Sublist.refl _⟩

theorem Refines.bind {r s : Run α} {f g : α → Run β} (h : Refines r s)
    (hfg : ∀ a, Refines (f a) (g a)) : Refines (r >>= f) (s >>= g) := by
  intro b hb
  obtain ⟨a, hs, hg⟩ := bind_outcome_eq_ok.mp hb
  obtain ⟨hr, hcalls⟩ := h a hs
  obtain ⟨hf, hmore⟩ := hfg a b hg
  rw [bind_of_ok hr, bind_of_ok hs]
  exact ⟨hf, hcalls.append hmore⟩

/-- A value that does not depend on a run refines the run that ends with it. -/
theorem refines_skip (s : Run α) (b : β) : Refines (pure b) (s >>= fun _ => pure b) := by
  intro c hc
  obtain ⟨_, _, hb⟩ := bind_outcome_eq_ok.mp hc
  exact ⟨hb, List.nil_sublist _⟩

end Run

namespace Evaluator

open Run

/-- The evaluator with another logical mode. -/
def inMode (ev : Evaluator) (mode : LogicalMode) : Evaluator :=
  { ev with options := { ev.options with logicalMode := mode } }

@[simp]
theorem inMode_registry (ev : Evaluator) (mode : LogicalMode) :
    (ev.inMode mode).registry = ev.registry := rfl

variable {ev : Evaluator} {ctx : Context}

/-- Every argument evaluated in short-circuit mode refines the same argument in eager mode. -/
def RefinesEager (ev : Evaluator) (ctx : Context) (e : Expr) : Prop :=
  ∀ depth, Refines ((ev.inMode .shortCircuit).evalAt ctx depth e)
    ((ev.inMode .eager).evalAt ctx depth e)

theorem evalAll_refines {es : List Expr} (h : ∀ e ∈ es, RefinesEager ev ctx e) (depth : Nat) :
    Refines ((ev.inMode .shortCircuit).evalAll ctx depth es)
      ((ev.inMode .eager).evalAll ctx depth es) := by
  induction es with
  | nil => exact Refines.refl _
  | cons e es ih =>
    have hes := ih fun d hd => h d (List.mem_cons_of_mem _ hd)
    rw [evalAll, evalAll]
    exact (h e List.mem_cons_self depth).bind fun v => hes.bind fun vs => Refines.refl _

/-- Stopping at the first argument that counts as `target` refines looking for one among all. -/
theorem evalUntil_refines {es : List Expr} (h : ∀ e ∈ es, RefinesEager ev ctx e) (depth : Nat)
    (target : Bool) :
    Refines ((ev.inMode .shortCircuit).evalUntil ctx depth target es)
      ((ev.inMode .eager).evalAll ctx depth es >>= fun vs =>
        pure (vs.any (·.truthy == target))) := by
  induction es with
  | nil => exact Refines.refl _
  | cons e es ih =>
    have hes := ih fun d hd => h d (List.mem_cons_of_mem _ hd)
    rw [evalUntil, evalAll]
    simp only [bind_assoc, pure_bind, List.any_cons]
    refine (h e List.mem_cons_self depth).bind fun v => ?_
    by_cases hv : v.truthy = target
    · simp only [hv, if_true, beq_self_eq_true, Bool.true_or]
      exact refines_skip _ true
    · simpa only [hv, if_false, beq_false_of_ne hv, Bool.false_or] using hes

/-- The first argument alone refines all of them when only the first one counts. -/
theorem evalFirst_refines {es : List Expr} (h : ∀ e ∈ es, RefinesEager ev ctx e) (depth : Nat)
    (err : EvalError) (hes : es ≠ []) (f : Value → Value) :
    Refines ((ev.inMode .shortCircuit).evalFirst ctx depth err es >>= fun v => pure (f v))
      ((ev.inMode .eager).evalAll ctx depth es >>= fun vs =>
        pure (f (vs.headD .undefined))) := by
  cases es with
  | nil => exact absurd rfl hes
  | cons e es =>
    rw [evalFirst, evalAll]
    simp only [bind_assoc, pure_bind, List.headD_cons]
    exact (h e List.mem_cons_self depth).bind fun v => refines_skip _ (f v)

theorem all_truthy (vs : List Value) : vs.all Value.truthy = !vs.any (·.truthy == false) := by
  simp [List.not_any_eq_all_not]

theorem logical_refines {args : List Expr} (h : ∀ e ∈ args, RefinesEager ev ctx e)
    (property : Option String) (operator : String) (depth : Nat)
    (hd : ¬ev.options.maxDepth < depth) :
    Refines ((ev.inMode .shortCircuit).evalAt ctx depth (.logical property operator args))
      ((ev.inMode .eager).evalAt ctx depth (.logical property operator args)) := by
  have hs : ¬(ev.inMode .shortCircuit).options.maxDepth < depth := hd
  have he : ¬(ev.inMode .eager).options.maxDepth < depth := hd
  rw [evalAt_logical_shortCircuit _ _ _ hs rfl, evalAt_logical_eager _ _ _ he rfl]
  cases LogicalOperator.ofSymbol? operator with
  | none => exact Refines.refl _
  | some op =>
    cases args with
    | nil => exact Refines.refl _
    | cons e es =>
      simp only [List.isEmpty_cons, Bool.false_eq_true, if_false]
      cases op with
      | and =>
        have huntil := (evalUntil_refines h (depth + 1) false).bind
          fun b => Refines.refl (pure (Value.bool (!b)))
        simpa only [combine, all_truthy, bind_assoc, pure_bind] using huntil
      | or =>
        have huntil := (evalUntil_refines h (depth + 1) true).bind
          fun b => Refines.refl (pure (Value.bool b))
        simpa only [combine, beq_true, bind_assoc, pure_bind] using huntil
      | not =>
        exact evalFirst_refines h (depth + 1) _ (List.cons_ne_nil e es) fun v => .bool (!v.truthy)

/-- By induction on the formula: only its logical nodes are evaluated differently. -/
theorem refinesEager (ev : Evaluator) (ctx : Context) (e : Expr) : RefinesEager ev ctx e := by
  induction e using Expr.childrenInduction with
  | node e ih =>
    intro depth
    by_cases hd : ev.options.maxDepth < depth
    · have hs : (ev.inMode .shortCircuit).options.maxDepth < depth := hd
      have he : (ev.inMode .eager).options.maxDepth < depth := hd
      rw [evalAt_of_lt e hs, evalAt_of_lt e he]
      exact Refines.refl _
    have hs : ¬(ev.inMode .shortCircuit).options.maxDepth < depth := hd
    have he : ¬(ev.inMode .eager).options.maxDepth < depth := hd
    cases e with
    | logical p operator args => exact logical_refines ih p operator depth hd
    | binary p operator args =>
      rw [evalAt_binary _ _ _ hs, evalAt_binary _ _ _ he]
      cases BinaryOperator.ofSymbol? operator with
      | none => exact Refines.refl _
      | some op =>
        rcases args with _ | ⟨left, _ | ⟨right, _ | ⟨third, rest⟩⟩⟩
        · exact Refines.refl _
        · exact Refines.refl _
        · have hleft := ih left (by simp [Expr.children]) (depth + 1)
          have hright := ih right (by simp [Expr.children]) (depth + 1)
          exact hleft.bind fun a => hright.bind fun b => Refines.refl _
        · exact Refines.refl _
    | call p callee args =>
      cases callee with
      | none => rw [evalAt, evalAt]; exact Refines.refl _
      | some name =>
        rw [evalAt_call _ _ _ hs, evalAt_call _ _ _ he]
        simp only [inMode_registry]
        cases ev.registry.find? name with
        | none => exact Refines.refl _
        | some f => exact (evalAll_refines ih (depth + 1)).bind fun vs => Refines.refl _
    | member p args =>
      rw [evalAt_member _ _ hs, evalAt_member _ _ he]
      cases args with
      | nil => exact Refines.refl _
      | cons first rest =>
        exact (ih first List.mem_cons_self (depth + 1)).bind fun v => Refines.refl _
    | assignment p args =>
      rw [evalAt_assignment _ _ hs, evalAt_assignment _ _ he]
      rcases args with _ | ⟨only, _ | ⟨second, rest⟩⟩
      · exact Refines.refl _
      · exact ih only (by simp [Expr.children]) (depth + 1)
      · exact Refines.refl _
    | literal | identifier | unsupported => rw [evalAt, evalAt]; exact Refines.refl _
    | system p name => cases p <;> (rw [evalAt, evalAt]; exact Refines.refl _)

/-- Short-circuit evaluation gives every value that eager evaluation gives, by some of its calls in
their order; so it fails only where eager evaluation fails too. -/
theorem shortCircuit_refines_eager (ev : Evaluator) (ctx : Context) (e : Expr) :
    (∀ v, ((ev.inMode .eager).eval ctx e).outcome = .ok v →
      ((ev.inMode .shortCircuit).eval ctx e).outcome = .ok v ∧
        ((ev.inMode .shortCircuit).eval ctx e).calls.Sublist
          ((ev.inMode .eager).eval ctx e).calls) ∧
    ∀ err, ((ev.inMode .shortCircuit).eval ctx e).outcome = .error err →
      ∃ err', ((ev.inMode .eager).eval ctx e).outcome = .error err' := by
  have hrefines := refinesEager ev ctx e 0
  refine ⟨hrefines, fun err hshort => ?_⟩
  cases heager : ((ev.inMode .eager).eval ctx e).outcome with
  | error err' => exact ⟨err', rfl⟩
  | ok v =>
    have hv : ((ev.inMode .shortCircuit).eval ctx e).outcome = .ok v := (hrefines v heager).1
    rw [hshort] at hv
    cases hv

/-- Of two calls inside a decided `AND`, eager evaluation makes both and short-circuit evaluation
none, with one value. -/
theorem shortCircuit_refines_eager_tick :
    let ev : Evaluator := ⟨.utc, Table.ofList [("TICK", fun _ => .ok (.bool true))], {}⟩
    let tick : Expr := .call none (some "TICK") []
    let e : Expr :=
      .logical none "AND" [.literal none (.bool false), .logical none "OR" [tick, tick]]
    let ctx : Context := ⟨Table.empty, Table.empty⟩
    ((ev.inMode .eager).eval ctx e).calls.length = 2 ∧
      ((ev.inMode .shortCircuit).eval ctx e).calls = [] ∧
      ((ev.inMode .shortCircuit).eval ctx e).outcome = .ok (.bool false) :=
  ⟨rfl, rfl, ((shortCircuit_refines_eager _ _ _).1 _ rfl).1⟩

end Evaluator

end RecordLogic.Formula
