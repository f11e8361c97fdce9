import RecordLogic.Proofs.Formula.Comparison
import RecordLogic.Proofs.Table

namespace RecordLogic.Formula

namespace Expr

variable {c e : Expr} {es : List Expr}

theorem heights_children (e : Expr) : heights e.children = e.height := by
  cases e <;> rw [height, children]
  all_goals rw [heights]

theorem height_lt_heights (h : c ∈ es) : c.height < heights es := by
  induction es with
  | nil => simp at h
  | cons e es ih =>
    rw [heights]
    rcases List.mem_cons.mp h with rfl | h
    · omega
    · have hlater := ih h
      omega

theorem height_lt_of_mem_children (h : c ∈ e.children) : c.height < e.height := by
  rw [← heights_children e]
  exact height_lt_heights h

end Expr

/-- No function fails with the depth limit on its own account. -/
def Registry.NeverLimits (r : Registry) : Prop :=
  ∀ name f, r.find? name = some f → ∀ args limit, f args ≠ .error (.depthLimit limit)

namespace Run

variable {α β : Type}

/-- The run failed because the formula was nested too deeply. -/
def TooDeep (r : Run α) : Prop :=
  ∃ limit, r.outcome = .error (.depthLimit limit)

theorem TooDeep.bind {r : Run α} (h : TooDeep r) (f : α → Run β) : TooDeep (r >>= f) := by
  obtain ⟨limit, hr⟩ := h
  rw [bind_of_error hr]
  exact ⟨limit, rfl⟩

theorem tooDeep_bind_of_ok {r : Run α} {f : α → Run β} {a : α} (hr : r.outcome = .ok a) :
    TooDeep (r >>= f) ↔ TooDeep (f a) := by
  rw [bind_of_ok hr]
  exact Iff.rfl

theorem not_tooDeep_pure (a : α) : ¬TooDeep (pure a) := by
  rintro ⟨limit, h⟩
  cases h

theorem not_tooDeep_fail {e : EvalError} (h : ∀ limit, e ≠ .depthLimit limit) :
    ¬TooDeep (fail e : Run α) := by
  rintro ⟨limit, hfail⟩
  exact h limit (Except.error.inj hfail)

/-- The second run is the first one unless that was nested too deeply. -/
def deeper : Relation where
  Rel r s := TooDeep r ∨ r = s
  pure _ := Or.inr rfl
  fail _ := Or.inr rfl
  bind {_ _ r s f g} hrs hfg := by
    rcases hrs with hdeep | rfl
    · exact Or.inl (hdeep.bind f)
    · cases hr : r.outcome with
      | error e => exact Or.inr (by rw [bind_of_error hr, bind_of_error hr])
      | ok a =>
        rcases hfg a with hdeep | hsame
        · exact Or.inl ((tooDeep_bind_of_ok hr).mpr hdeep)
        · exact Or.inr (by rw [bind_of_ok hr, bind_of_ok hr, hsame])

/-- The first run is not nested too deeply, whatever the second one is. -/
def shallow : Relation where
  Rel r _ := ¬TooDeep r
  pure := not_tooDeep_pure
  fail := not_tooDeep_fail
  bind {_ _ r _ f _} hr hf := by
    cases houtcome : r.outcome with
    | ok a => exact mt (tooDeep_bind_of_ok houtcome).mp (hf a)
    | error e =>
      rw [bind_of_error houtcome]
      rintro ⟨limit, hlimit⟩
      have he : e = .depthLimit limit := Except.error.inj hlimit
      exact hr ⟨limit, he ▸ houtcome⟩

end Run

namespace Evaluator

/-- The evaluator with another depth limit. -/
def within (ev : Evaluator) (limit : Nat) : Evaluator :=
  { ev with options := { ev.options with maxDepth := limit } }

/-- The same evaluation under two limits: where the larger one is exceeded, so is the smaller. -/
def raised (ev : Evaluator) (ctx : Context) {m m' : Nat} (h : m ≤ m') :
    Comparison Run.deeper (ev.within m) (ev.within m') ctx ctx where
  Meets _ _ := True
  below _ _ := trivial
  zone_eq := rfl
  mode_eq := rfl
  limit {depth e} _ hlimit := by
    have hd : (ev.within m).options.maxDepth < depth :=
      hlimit.elim id fun hd' => Nat.lt_of_le_of_lt h hd'
    rw [evalAt_of_lt e hd]
    exact Or.inl ⟨_, rfl⟩
  form _ := rfl
  system _ := rfl
  find?_eq _ := rfl
  unknown := Or.inr rfl
  invoke _ _ := Or.inr rfl

/-- An evaluation of formulas that do not reach below the limit. -/
def reaching (ev : Evaluator) (ctx : Context) (h : ev.registry.NeverLimits) :
    Comparison Run.shallow ev ev ctx ctx where
  Meets depth e := depth + e.height ≤ ev.options.maxDepth
  below {depth e c} h hc := by
    have hlt := Expr.height_lt_of_mem_children hc
    omega
  zone_eq := rfl
  mode_eq := rfl
  limit h hlimit := by omega
  form _ := rfl
  system _ := rfl
  find?_eq _ := rfl
  unknown := Run.not_tooDeep_fail nofun
  invoke {name f} hf vs := by
    rintro ⟨limit, hlimit⟩
    exact h name f hf vs limit hlimit

/-- A larger limit changes nothing but runs that were nested too deeply, and a formula that is no
higher than the limit is never nested too deeply. -/
theorem eval_within_larger (ev : Evaluator) (ctx : Context) (e : Expr) {m m' : Nat} (h : m ≤ m') :
    (¬((ev.within m).eval ctx e).TooDeep →
      (ev.within m').eval ctx e = (ev.within m).eval ctx e) ∧
    (ev.registry.NeverLimits → e.height ≤ m → ¬((ev.within m).eval ctx e).TooDeep) := by
  constructor
  · intro hshallow
    have hmeets : (ev.raised ctx h).Meets 0 e := trivial
    rcases (ev.raised ctx h).related hmeets with hdeep | hsame
    · exact absurd hdeep hshallow
    · exact hsame.symm
  · intro hregistry hheight
    have hmeets : ((ev.within m).reaching ctx hregistry).Meets 0 e := by
      change 0 + e.height ≤ m
      omega
    exact ((ev.within m).reaching ctx hregistry).related hmeets

/-- One level too few hides the unknown operator behind the depth error of its left sibling; with
that level, and with more, the operator is what fails, after the same call. -/
theorem eval_within_larger_sum :
    let ev : Evaluator := ⟨.utc, Table.ofList [("TICK", fun _ => .ok (.bool true))], {}⟩
    let ctx : Context := ⟨Table.empty, Table.empty⟩
    let tick : Expr := .call none (some "TICK") []
    let e : Expr := .binary none "+" [.assignment none [tick], .binary none "**" []]
    ((ev.within 1).eval ctx e).outcome = .error (.depthLimit 1) ∧
      ((ev.within 2).eval ctx e).outcome = .error (.unsupportedOperator .binary "**") ∧
      (ev.within 9).eval ctx e = (ev.within 2).eval ctx e ∧
      ¬((ev.within 2).eval ctx e).TooDeep := by
  intro ev ctx tick e
  have hregistry : ev.registry.NeverLimits := by
    intro name f hf args limit
    have hmem := Table.mem_of_find?_ofList hf
    obtain ⟨-, rfl⟩ : name = "TICK" ∧ f = fun _ => .ok (.bool true) := by simpa using hmem
    exact nofun
  have hfails : ((ev.within 1).eval ctx e).outcome = .error (.depthLimit 1) := rfl
  have hvalue : ((ev.within 2).eval ctx e).outcome =
      .error (.unsupportedOperator .binary "**") := rfl
  have hle : 2 ≤ 9 := by decide
  obtain ⟨hsame, hheight⟩ := eval_within_larger ev ctx e hle
  have hshallow := hheight hregistry (by decide)
  exact ⟨hfails, hvalue, hsame hshallow, hshallow⟩

end Evaluator

end RecordLogic.Formula
