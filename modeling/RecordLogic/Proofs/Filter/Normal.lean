import Mathlib.Logic.Relation
import RecordLogic.Proofs.Filter.Change
import RecordLogic.Proofs.Filter.Leaves
import RecordLogic.Proofs.Filter.Load

namespace RecordLogic.Filter

open Relation (ReflTransGen)

variable {c : Condition} {cs ds : List Clause}

@[simp]
theorem Condition.withoutIdleValue_withoutIdleValue (c : Condition) :
    c.withoutIdleValue.withoutIdleValue = c.withoutIdleValue := by
  rw [← sent_eq_withoutIdleValue, ← sent_eq_withoutIdleValue, sent_sent]

theorem Condition.withoutIdleValue_eq_self_iff :
    c.withoutIdleValue = c ↔ c.operator = .isEmpty ∨ c.operator = .isNotEmpty → c.value = none := by
  obtain ⟨op, field, value, source⟩ := c
  by_cases hop : op = .isEmpty ∨ op = .isNotEmpty
  · simp [withoutIdleValue, hop, eq_comm]
  · simp [withoutIdleValue, hop]

namespace Clause

/-- One step towards the normal form, at any depth: a group without clauses is taken out, or the
value of a condition that only asks whether its field is empty. -/
inductive Shrinks : List Clause → List Clause → Prop where
  | emptyGroup (op : GroupOperator) (cs : List Clause) : Shrinks (group op [] :: cs) cs
  | idleValue {c : Condition} (hc : c.withoutIdleValue ≠ c) (cs : List Clause) :
      Shrinks (leaf c :: cs) (leaf c.withoutIdleValue :: cs)
  | inside (op : GroupOperator) {inner inner' : List Clause} (cs : List Clause)
      (h : Shrinks inner inner') : Shrinks (group op inner :: cs) (group op inner' :: cs)
  | behind (c : Clause) {cs cs' : List Clause} (h : Shrinks cs cs') : Shrinks (c :: cs) (c :: cs')

/-- The second clauses come from the first by steps, and no further step is possible. -/
def NormalForm (cs ds : List Clause) : Prop :=
  ReflTransGen Shrinks cs ds ∧ ∀ es, ¬Shrinks ds es

theorem normal_of_shrinks (h : Shrinks cs ds) : normal ds = normal cs := by
  induction h with
  | emptyGroup op cs => simp [normal]
  | idleValue hc cs => simp [normal, Condition.sent_eq_withoutIdleValue]
  | inside op cs h ih => simp [normal, ih]
  | behind c h ih => cases c <;> simp [normal, ih]

theorem reflTransGen_normal (cs : List Clause) : ReflTransGen Shrinks cs (normal cs) := by
  fun_induction normal cs with
  | case1 => exact .refl
  | case2 c cs ih =>
    have hrest : ReflTransGen Shrinks (leaf c :: cs) (leaf c :: normal cs) :=
      ih.lift (leaf c :: ·) fun _ _ h => .behind (leaf c) h
    rw [Condition.sent_eq_withoutIdleValue]
    by_cases hc : c.withoutIdleValue = c
    · rwa [hc]
    · exact hrest.tail (.idleValue hc _)
  | case3 op inner cs ihi ihc =>
    have hinner : ReflTransGen Shrinks (group op inner :: cs) (group op (normal inner) :: cs) :=
      ihi.lift (group op · :: cs) fun _ _ h => .inside op cs h
    have hrest : ReflTransGen Shrinks (group op (normal inner) :: cs)
        (group op (normal inner) :: normal cs) :=
      ihc.lift (group op (normal inner) :: ·) fun _ _ h => .behind _ h
    by_cases hnil : normal inner = []
    · rw [hnil] at hinner hrest
      rw [hnil, consGroup_nil]
      exact (hinner.trans hrest).tail (.emptyGroup op _)
    · rw [consGroup_of_ne hnil]
      exact hinner.trans hrest

theorem not_shrinks_normal (cs es : List Clause) : ¬Shrinks (normal cs) es := by
  fun_induction normal cs generalizing es with
  | case1 =>
    intro h
    cases h
  | case2 c cs ih =>
    rw [Condition.sent_eq_withoutIdleValue]
    intro h
    cases h with
    | idleValue hc => exact hc c.withoutIdleValue_withoutIdleValue
    | behind _ h => exact ih _ h
  | case3 op inner cs ihi ihc =>
    by_cases hnil : normal inner = []
    · rw [hnil, consGroup_nil]
      exact ihc es
    · rw [consGroup_of_ne hnil]
      generalize normal inner = kept at ihi hnil
      intro h
      cases h with
      | emptyGroup => exact hnil rfl
      | inside _ _ h => exact ihi _ h
      | behind _ h => exact ihc _ h

/-- Whatever steps are taken, and in whatever order, there is one end. -/
theorem normalForm_iff : NormalForm cs ds ↔ ds = normal cs := by
  constructor
  · rintro ⟨hsteps, hend⟩
    have hsame : normal ds = normal cs := by
      clear hend
      induction hsteps with
      | refl => rfl
      | tail _ hstep ih => exact (normal_of_shrinks hstep).trans ih
    rcases (reflTransGen_normal ds).cases_head with heq | ⟨es, hstep, -⟩
    · exact heq.trans hsame
    · exact absurd hstep (hend es)
  · rintro rfl
    exact ⟨reflTransGen_normal cs, not_shrinks_normal cs⟩

/-- Where no group is empty, the normal form has all clauses in their places. -/
theorem normal_of_filled (h : filled cs) :
    normal cs = mapLeaves Condition.withoutIdleValue cs := by
  fun_induction mapLeaves Condition.withoutIdleValue cs with
  | case1 => simp [normal]
  | case2 c cs ih =>
    rw [filled] at h
    rw [normal, ih h, Condition.sent_eq_withoutIdleValue]
  | case3 op inner cs ihi ihc =>
    simp only [filled, Bool.and_eq_true, Bool.not_eq_true', List.isEmpty_eq_false_iff] at h
    obtain ⟨⟨hne, hinner⟩, hcs⟩ := h
    have hkept : mapLeaves Condition.withoutIdleValue inner ≠ [] := by simpa using hne
    rw [normal, ihi hinner, ihc hcs, consGroup_of_ne hkept]

end Clause

namespace Payload

variable {p f : Payload}

/-- The filter without the values that nothing looks at. -/
def withoutIdleValues (p : Payload) : Payload :=
  { p with clauses := Clause.mapLeaves Condition.withoutIdleValue p.clauses }

theorem withoutIdleValues_eq_self_iff (p : Payload) : p.withoutIdleValues = p ↔
    ∀ c ∈ p.conditions, c.operator = .isEmpty ∨ c.operator = .isNotEmpty → c.value = none := by
  have hclauses := Clause.mapLeaves_eq_self_iff Condition.withoutIdleValue p.clauses
  simp only [Condition.withoutIdleValue_eq_self_iff] at hclauses
  rw [conditions, ← hclauses]
  cases p
  simp [withoutIdleValues]

theorem normal?_eq_none_iff (p : Payload) :
    p.normal? = none ↔ Clause.NormalForm p.clauses [] := by
  rw [Clause.normalForm_iff, normal?]
  cases Clause.normal p.clauses <;> simp [ofClauses?]

theorem normal?_eq_some_iff : p.normal? = some f ↔
    f.operator = p.operator ∧ f.clauses ≠ [] ∧ Clause.NormalForm p.clauses f.clauses := by
  obtain ⟨op, cs⟩ := f
  rw [normal?, ofClauses?_eq_some_iff, Clause.normalForm_iff]
  grind

/-- A group that only holds empty groups goes with them. -/
example : normal? ⟨.and, [.group .or [.group .not []],
      .group .not [.group .and [], .leaf ⟨.isEmpty, "a", some .null, .constant⟩]]⟩ =
    some ⟨.and, [.group .not [.leaf ⟨.isEmpty, "a", none, .constant⟩]]⟩ := by
  cbv

theorem normal?_bind_normal? (p : Payload) : p.normal?.bind normal? = p.normal? := by
  cases h : p.normal? with
  | none => rfl
  | some f =>
    obtain ⟨hne, rfl⟩ := ofClauses?_eq_some_iff.mp h
    rw [Option.bind_some, normal?, Clause.normal_normal]
    exact ofClauses?_eq_some_iff.mpr ⟨hne, rfl⟩

theorem normal?_of_filled (h : Clause.filled [p.toClause]) :
    p.normal? = some p.withoutIdleValues := by
  obtain ⟨hne, hfilled⟩ : p.clauses ≠ [] ∧ Clause.filled p.clauses := by
    simpa [toClause, Clause.filled] using h
  rw [normal?, Clause.normal_of_filled hfilled]
  exact ofClauses?_eq_some_iff.mpr ⟨by simpa using hne, rfl⟩

end Payload

namespace Tree

/-- The tree is the filter with identities of its own. What it sends is what is left of the filter
when no group is empty and no value idle; nothing if no clause is left. -/
structure Restores (t : Tree) (p : Payload) : Prop where
  operator_eq : t.operator = p.operator
  shape_eq : Node.shape t.children = p.clauses
  size_eq : t.size = Clause.sizes p.clauses
  distinct : t.Distinct
  payload?_eq_none_iff : t.payload? = none ↔ Clause.NormalForm p.clauses []
  payload?_eq_some_iff : ∀ f, t.payload? = some f ↔
    f.operator = p.operator ∧ f.clauses ≠ [] ∧ Clause.NormalForm p.clauses f.clauses

/-- Any filter is restored as it is, and sent in its normal form. To bring that to normal form again
changes nothing. -/
theorem ofPayload_restores (p : Payload) (start : Nat) (supply : Supply) :
    (ofPayload p start supply).Restores p ∧
      (ofPayload p start supply).payload? = p.normal? ∧
      p.normal?.bind Payload.normal? = p.normal? := by
  obtain ⟨hoperator, hshape⟩ := shape_ofPayload p start supply
  have hsent := payload?_ofPayload p start supply
  have hissued := Issued.ofOrigin start supply (.restored p)
  refine ⟨?_, hsent, p.normal?_bind_normal?⟩
  exact {
    operator_eq := hoperator
    shape_eq := hshape
    size_eq := by rw [size, ← Node.sizes_shape, hshape]
    distinct := hissued.nodup
    payload?_eq_none_iff := by rw [hsent, Payload.normal?_eq_none_iff]
    payload?_eq_some_iff := fun f => by rw [hsent, Payload.normal?_eq_some_iff] }

/-- A filter without empty groups is sent again but for idle values: it is the same filter exactly
if it has none. -/
theorem ofPayload_payload?_of_filled {p : Payload} (h : Clause.filled [p.toClause]) (start : Nat)
    (supply : Supply) :
    (ofPayload p start supply).payload? = some p.withoutIdleValues ∧
      ((ofPayload p start supply).payload? = some p ↔
        ∀ c ∈ p.conditions, c.operator = .isEmpty ∨ c.operator = .isNotEmpty → c.value = none) := by
  have hsent : (ofPayload p start supply).payload? = some p.withoutIdleValues := by
    rw [payload?_ofPayload, Payload.normal?_of_filled h]
  refine ⟨hsent, ?_⟩
  rw [hsent, Option.some.injEq, Payload.withoutIdleValues_eq_self_iff]

/-- No other value is lost, whatever its shape and whatever it stands for. -/
theorem ofPayload_payload?_of_filled_nested :
    let p : Payload := ⟨.not, [.group .or [
      .leaf ⟨.between, "amount", some .null, .field⟩,
      .group .and [.leaf ⟨.isNotEmpty, "email", none, .environment⟩]]]⟩
    Clause.filled [p.toClause] ∧ (ofPayload p 4 .counted).payload? = some p := by
  intro p
  have hfilled : Clause.filled [p.toClause] := by
    simp [p, Payload.toClause, Clause.filled]
  have hiff := (ofPayload_payload?_of_filled hfilled 4 .counted).2
  refine ⟨hfilled, hiff.mpr ?_⟩
  simp [p, Payload.conditions, Clause.conditions]

/-- The value of a condition that only asks whether its field is empty does not come back, although
no group is empty. -/
theorem idleValue_not_sent_again :
    let p : Payload := ⟨.and, [.leaf ⟨.isEmpty, "a", some (.integer 3), .constant⟩]⟩
    Clause.filled [p.toClause] ∧
      (ofPayload p 0).payload? = some ⟨.and, [.leaf ⟨.isEmpty, "a", none, .constant⟩]⟩ ∧
      (ofPayload p 0).payload? ≠ some p := by
  intro p
  have hfilled : Clause.filled [p.toClause] := by
    simp [p, Payload.toClause, Clause.filled]
  have hsent : (ofPayload p 0).payload? =
      some ⟨.and, [.leaf ⟨.isEmpty, "a", none, .constant⟩]⟩ := by
    rw [payload?_ofPayload, Payload.normal?_of_filled hfilled]
    simp [p, Payload.withoutIdleValues, Clause.mapLeaves, Condition.withoutIdleValue]
  refine ⟨hfilled, hsent, ?_⟩
  rw [hsent]
  simp [p]

end Tree

end RecordLogic.Filter
