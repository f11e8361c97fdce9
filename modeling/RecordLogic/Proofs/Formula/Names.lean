import RecordLogic.Proofs.Formula.Comparison

namespace RecordLogic.Formula

namespace Expr

mutual

/-- A formula with everything below it, each node before those under it. -/
def nodes (e : Expr) : List Expr :=
  e ::
    match e with
    | binary _ _ args | logical _ _ args | call _ _ args | member _ args | assignment _ args =>
      nodesAll args
    | _ => []

def nodesAll : List Expr → List Expr
  | [] => []
  | e :: es => nodes e ++ nodesAll es

end

variable {c e : Expr} {es : List Expr}

theorem nodes_eq (e : Expr) : e.nodes = e :: nodesAll e.children := by
  cases e <;> rw [nodes.eq_def, children]
  all_goals rw [nodesAll]

theorem mem_nodes_self (e : Expr) : e ∈ e.nodes := by
  rw [nodes_eq]
  exact List.mem_cons_self

theorem nodes_subset_nodesAll (h : c ∈ es) : c.nodes ⊆ nodesAll es := by
  induction es with
  | nil => simp at h
  | cons e es ih =>
    rw [nodesAll]
    rcases List.mem_cons.mp h with rfl | h
    · exact List.subset_append_left _ _
    · exact List.Subset.trans (ih h) (List.subset_append_right _ _)

theorem nodes_subset (h : c ∈ e.children) : c.nodes ⊆ e.nodes := by
  rw [nodes_eq e]
  exact List.Subset.trans (nodes_subset_nodesAll h) (List.subset_cons_self _ _)

end Expr

/-- Both contexts give the same values to the names that the formula reads. -/
structure Context.Agree (c c' : Context) (e : Expr) : Prop where
  form : ∀ p name, .identifier p name ∈ e.nodes → c'.formValue name = c.formValue name
  system : ∀ p name, .system p name ∈ e.nodes → c'.systemValue name = c.systemValue name

/-- Each callee of the formula stands for the same function in both registries, or for none. -/
def Registry.Agree (r r' : Registry) (e : Expr) : Prop :=
  ∀ p name args, .call p (some name) args ∈ e.nodes → r'.find? name = r.find? name

theorem Context.Agree.child {c c' : Context} {d e : Expr} (h : c.Agree c' e)
    (hd : d ∈ e.children) : c.Agree c' d :=
  ⟨fun p name hmem => h.form p name (Expr.nodes_subset hd hmem),
    fun p name hmem => h.system p name (Expr.nodes_subset hd hmem)⟩

theorem Registry.Agree.child {r r' : Registry} {d e : Expr} (h : r.Agree r' e)
    (hd : d ∈ e.children) : r.Agree r' d :=
  fun p name args hmem => h p name args (Expr.nodes_subset hd hmem)

namespace Run

variable {α β : Type}

/-- Runs that make the same calls and end alike, but for the name that is suggested in place of an
unknown one. -/
structure Alike (r s : Run α) : Prop where
  calls_eq : s.calls = r.calls
  outcome : s.outcome = r.outcome ∨ ∃ name near near',
    r.outcome = .error (.unknownFunction name near) ∧
      s.outcome = .error (.unknownFunction name near')

theorem Alike.refl (r : Run α) : Alike r r := ⟨rfl, Or.inl rfl⟩

theorem Alike.bind {r s : Run α} {f g : α → Run β} (h : Alike r s)
    (hfg : ∀ a, Alike (f a) (g a)) : Alike (r >>= f) (s >>= g) := by
  obtain ⟨hcalls, hsame | ⟨name, near, near', hr, hs⟩⟩ := h
  · cases hr : r.outcome with
    | ok a =>
      rw [bind_of_ok hr, bind_of_ok (hsame.trans hr), hcalls]
      obtain ⟨hmore, houtcome⟩ := hfg a
      exact ⟨congrArg (r.calls ++ ·) hmore, houtcome⟩
    | error e =>
      rw [bind_of_error hr, bind_of_error (hsame.trans hr), hcalls]
      exact Alike.refl _
  · rw [bind_of_error hr, bind_of_error hs]
    exact ⟨hcalls, Or.inr ⟨name, near, near', rfl, rfl⟩⟩

def alike : Relation where
  Rel := Alike
  pure a := Alike.refl (Pure.pure a)
  fail _ := Alike.refl _
  bind := Alike.bind

end Run

namespace Evaluator

/-- Evaluations of the same formula in contexts and with functions that agree on it. -/
def agreement (zone : Time.Zone) (options : Options) (r r' : Registry) (c c' : Context) :
    Comparison Run.alike ⟨zone, r, options⟩ ⟨zone, r', options⟩ c c' where
  Meets _ e := c.Agree c' e ∧ r.Agree r' e
  below h hd := ⟨h.1.child hd, h.2.child hd⟩
  zone_eq := rfl
  mode_eq := rfl
  limit {depth e} _ hlimit := by
    have hd : options.maxDepth < depth := or_self_iff.mp hlimit
    rw [evalAt_of_lt e hd, evalAt_of_lt e hd]
    exact Run.Alike.refl _
  form h := h.1.form _ _ (Expr.mem_nodes_self _)
  system h := h.1.system _ _ (Expr.mem_nodes_self _)
  find?_eq h := h.2 _ _ _ (Expr.mem_nodes_self _)
  unknown := ⟨rfl, Or.inr ⟨_, _, _, rfl, rfl⟩⟩
  invoke _ _ := Run.Alike.refl _

/-- What an evaluation gives depends on the names in the formula alone: contexts and registries may
differ in all else, and only a suggestion can show it. -/
theorem eval_depends_on_names (zone : Time.Zone) (options : Options) {r r' : Registry}
    {c c' : Context} {e : Expr} (hcontext : c.Agree c' e) (hregistry : r.Agree r' e) :
    Run.Alike (eval ⟨zone, r, options⟩ c e) (eval ⟨zone, r', options⟩ c' e) :=
  (agreement zone options r r' c c').related ⟨hcontext, hregistry⟩

/-- Both contexts and both registries differ in names that the formula has not; the two runs make
one call and then miss the same function, with other suggestions. -/
theorem eval_depends_on_names_missing :
    let echo : Function := fun args => .ok (.array args)
    let r : Registry := Table.ofList [("ECHO", echo)]
    let r' : Registry := Table.ofList [("ECHO", echo), ("TICKS", echo)]
    let c : Context := ⟨Table.ofList [("open", .bool true)], Table.empty⟩
    let c' : Context := ⟨Table.ofList [("open", .bool true), ("shut", .bool true)],
      Table.ofList [("NOW", .null)]⟩
    let e : Expr := .logical none "OR" [.call none (some "ECHO") [.identifier none "open"],
      .call none (some "TICK") [.system none "USER"]]
    c.Agree c' e ∧ r.Agree r' e ∧
      Run.Alike (eval ⟨.utc, r, {}⟩ c e) (eval ⟨.utc, r', {}⟩ c' e) ∧
      (eval ⟨.utc, r, {}⟩ c e).outcome = .error (.unknownFunction "TICK" none) ∧
      (eval ⟨.utc, r', {}⟩ c' e).outcome = .error (.unknownFunction "TICK" (some "TICKS")) := by
  intro echo r r' c c' e
  have hcontext : c.Agree c' e := by
    constructor
    · intro p name hmem
      obtain ⟨-, rfl⟩ : p = none ∧ name = "open" := by
        simpa [e, Expr.nodes, Expr.nodesAll] using hmem
      rfl
    · intro p name hmem
      obtain ⟨-, rfl⟩ : p = none ∧ name = "USER" := by
        simpa [e, Expr.nodes, Expr.nodesAll] using hmem
      rfl
  have hregistry : r.Agree r' e := by
    intro p name args hmem
    have hname : name = "ECHO" ∨ name = "TICK" := by
      grind [Expr.nodes, Expr.nodesAll]
    rcases hname with rfl | rfl <;>
      simp [r, r', Table.ofList, Table.insertMany, Table.find?_insert_of_ne]
  refine ⟨hcontext, hregistry, eval_depends_on_names .utc {} hcontext hregistry, ?_, ?_⟩
  · simp only [echo, r, c, e]
    rfl
  · simp only [echo, r', c', e]
    rfl

end Evaluator

end RecordLogic.Formula
