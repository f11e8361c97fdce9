import RecordLogic.Filter.Tree

namespace RecordLogic.Filter

namespace Condition

/-- The value, if there is one, is in canonical form. -/
def Canonical (c : Condition) : Prop :=
  ∀ v, c.value = some v → v.canonical = v

/-- The condition without a value that is an explicit null. -/
def withoutNull (c : Condition) : Condition :=
  match c.value with
  | some .null => { c with value := none }
  | _ => c

variable {c : Condition}

@[simp]
theorem sent_sent (c : Condition) : c.sent.sent = c.sent := by
  by_cases h : c.operator.takesValue <;> simp [sent, h]

theorem withoutNull_of_null (h : c.value = some .null) :
    c.withoutNull = { c with value := none } := by
  rw [withoutNull, h]

theorem withoutNull_of_ne (h : c.value ≠ some .null) : c.withoutNull = c := by
  rw [withoutNull]
  split
  · contradiction
  · rfl

theorem withoutNull_eq_self_iff : c.withoutNull = c ↔ c.value ≠ some .null := by
  refine ⟨fun heq hnull => ?_, withoutNull_of_ne⟩
  rw [withoutNull_of_null hnull] at heq
  have hvalue := congrArg Condition.value heq
  simp [hnull] at hvalue

theorem sent_withoutNull (c : Condition) : c.withoutNull.sent = c.sent.withoutNull := by
  by_cases hnull : c.value = some .null
  · rw [withoutNull_of_null hnull]
    by_cases htakes : c.operator.takesValue
    · rw [sent, sent, if_pos htakes, if_pos htakes, withoutNull_of_null hnull]
    · rw [sent, sent, if_neg htakes, if_neg htakes, withoutNull_of_ne (by simp)]
  · rw [withoutNull_of_ne hnull, withoutNull_of_ne]
    by_cases htakes : c.operator.takesValue <;> simp [sent, htakes, hnull]

end Condition

namespace Clause

/-- The conditions at any depth in their order. -/
def conditions : List Clause → List Condition
  | [] => []
  | leaf c :: cs => c :: conditions cs
  | group _ inner :: cs => conditions inner ++ conditions cs

/-- The same clauses without explicit nulls. -/
def withoutNulls : List Clause → List Clause
  | [] => []
  | leaf c :: cs => leaf c.withoutNull :: withoutNulls cs
  | group op inner :: cs => group op (withoutNulls inner) :: withoutNulls cs

/-- The same clauses with other conditions. -/
def mapLeaves (f : Condition → Condition) : List Clause → List Clause
  | [] => []
  | leaf c :: cs => leaf (f c) :: mapLeaves f cs
  | group op inner :: cs => group op (mapLeaves f inner) :: mapLeaves f cs

variable {op : GroupOperator} {inner cs : List Clause}

theorem consGroup_of_ne (h : inner ≠ []) : consGroup op inner cs = group op inner :: cs := by
  simp [consGroup, h]

@[simp]
theorem consGroup_nil (op : GroupOperator) (cs : List Clause) : consGroup op [] cs = cs := by
  simp [consGroup]

theorem consGroup_eq_nil_iff : consGroup op inner cs = [] ↔ inner = [] ∧ cs = [] := by
  by_cases hinner : inner = []
  · simp [hinner]
  · simp [consGroup_of_ne hinner, hinner]

theorem conditions_cons (c : Clause) (cs : List Clause) :
    conditions (c :: cs) = conditions [c] ++ conditions cs := by
  cases c <;> simp [conditions]

theorem conditions_consGroup (op : GroupOperator) (inner cs : List Clause) :
    conditions (consGroup op inner cs) = conditions inner ++ conditions cs := by
  cases inner with
  | nil => simp [consGroup, conditions]
  | cons c inner => simp [consGroup, conditions]

theorem normal_consGroup (op : GroupOperator) (inner cs : List Clause) :
    normal (consGroup op inner cs) = consGroup op (normal inner) (normal cs) := by
  cases inner with
  | nil => simp [consGroup, normal]
  | cons c inner => simp [consGroup, normal]

@[simp]
theorem normal_normal (cs : List Clause) : normal (normal cs) = normal cs := by
  fun_induction normal cs with
  | case1 => simp [normal]
  | case2 c cs ih => simp [normal, ih]
  | case3 op inner cs ihi ihc => rw [normal_consGroup, ihi, ihc]

theorem conditions_normal (cs : List Clause) :
    conditions (normal cs) = (conditions cs).map Condition.sent := by
  fun_induction normal cs with
  | case1 => simp [conditions]
  | case2 c cs ih => simp [conditions, ih]
  | case3 op inner cs ihi ihc => rw [conditions_consGroup, ihi, ihc, conditions, List.map_append]

@[simp]
theorem mapLeaves_eq_nil_iff (f : Condition → Condition) (cs : List Clause) :
    mapLeaves f cs = [] ↔ cs = [] := by
  fun_cases mapLeaves f cs <;> simp

@[simp]
theorem length_mapLeaves (f : Condition → Condition) (cs : List Clause) :
    (mapLeaves f cs).length = cs.length := by
  fun_induction mapLeaves f cs with
  | case1 => rfl
  | case2 c cs ih => simp [ih]
  | case3 op inner cs ihi ihc => simp [ihc]

@[simp]
theorem sizes_mapLeaves (f : Condition → Condition) (cs : List Clause) :
    sizes (mapLeaves f cs) = sizes cs := by
  fun_induction mapLeaves f cs with
  | case1 => rfl
  | case2 c cs ih => simp [sizes, ih]
  | case3 op inner cs ihi ihc => simp [sizes, ihi, ihc]

theorem mapLeaves_eq_self_iff (f : Condition → Condition) (cs : List Clause) :
    mapLeaves f cs = cs ↔ ∀ c ∈ conditions cs, f c = c := by
  fun_induction mapLeaves f cs with
  | case1 => simp [conditions]
  | case2 c cs ih => simp [conditions, ih]
  | case3 op inner cs ihi ihc => simp [conditions, ihi, ihc, or_imp, forall_and]

theorem withoutNulls_eq_mapLeaves (cs : List Clause) :
    withoutNulls cs = mapLeaves Condition.withoutNull cs := by
  fun_induction withoutNulls cs with
  | case1 => simp [mapLeaves]
  | case2 c cs ih => simp [mapLeaves, ih]
  | case3 op inner cs ihi ihc => simp [mapLeaves, ihi, ihc]

@[simp]
theorem withoutNulls_eq_nil_iff (cs : List Clause) : withoutNulls cs = [] ↔ cs = [] := by
  rw [withoutNulls_eq_mapLeaves, mapLeaves_eq_nil_iff]

theorem withoutNulls_consGroup (op : GroupOperator) (inner cs : List Clause) :
    withoutNulls (consGroup op inner cs) =
      consGroup op (withoutNulls inner) (withoutNulls cs) := by
  by_cases hinner : inner = []
  · simp [consGroup, hinner]
  · simp [consGroup, hinner, withoutNulls]

/-- It makes no difference whether nulls are left out before or after the normal form is built. -/
theorem normal_withoutNulls (cs : List Clause) :
    normal (withoutNulls cs) = withoutNulls (normal cs) := by
  fun_induction withoutNulls cs with
  | case1 => simp [normal, withoutNulls]
  | case2 c cs ih => simp [normal, withoutNulls, ih, Condition.sent_withoutNull]
  | case3 op inner cs ihi ihc => simp only [normal, withoutNulls_consGroup, ihi, ihc]

theorem withoutNulls_eq_self_iff (cs : List Clause) :
    withoutNulls cs = cs ↔ ∀ c ∈ conditions cs, c.value ≠ some .null := by
  rw [withoutNulls_eq_mapLeaves, mapLeaves_eq_self_iff]
  simp only [Condition.withoutNull_eq_self_iff]

end Clause

namespace Node

/-- What is left of nodes when their identities are forgotten. -/
def shape : List Node → List Clause
  | [] => []
  | leaf _ c :: ns => .leaf c :: shape ns
  | group _ op cs :: ns => .group op (shape cs) :: shape ns

@[simp]
theorem shape_append (ns ms : List Node) : shape (ns ++ ms) = shape ns ++ shape ms := by
  induction ns with
  | nil => simp [shape]
  | cons n ns ih => cases n <;> simp [shape, ih]

@[simp]
theorem length_shape (ns : List Node) : (shape ns).length = ns.length := by
  fun_induction shape ns with
  | case1 => rfl
  | case2 i c ns ih => simp [ih]
  | case3 i op cs ns ihc ihn => simp [ihn]

@[simp]
theorem shape_eq_nil_iff (ns : List Node) : shape ns = [] ↔ ns = [] := by
  fun_cases shape ns <;> simp

theorem sizes_shape (ns : List Node) : Clause.sizes (shape ns) = sizes ns := by
  fun_induction shape ns with
  | case1 => simp [Clause.sizes, sizes]
  | case2 i c ns ih => simp [Clause.sizes, sizes, ih]
  | case3 i op cs ns ihc ihn => simp [Clause.sizes, sizes, ihc, ihn]

/-- Only the normal form of the shape is sent. -/
theorem sent_eq_normal_shape (ns : List Node) : sent ns = Clause.normal (shape ns) := by
  fun_induction shape ns with
  | case1 => simp [sent, Clause.normal]
  | case2 i c ns ih => simp [sent, Clause.normal, ih]
  | case3 i op cs ns ihc ihn => simp [sent, Clause.normal, ihc, ihn]

end Node

namespace Payload

variable {p q : Payload}

def conditions (p : Payload) : List Condition :=
  Clause.conditions p.clauses

def withoutNulls (p : Payload) : Payload :=
  { p with clauses := Clause.withoutNulls p.clauses }

theorem ofClauses?_eq_some_iff {op : GroupOperator} {cs : List Clause} :
    ofClauses? op cs = some p ↔ cs ≠ [] ∧ ⟨op, cs⟩ = p := by
  cases cs <;> simp [ofClauses?]

theorem withoutNulls_eq_self_iff (p : Payload) :
    p.withoutNulls = p ↔ ∀ c ∈ p.conditions, c.value ≠ some .null := by
  rw [conditions, ← Clause.withoutNulls_eq_self_iff]
  cases p
  simp [withoutNulls]

/-- A filter in normal form keeps that form when its nulls are left out. -/
theorem normal?_withoutNulls (h : p.normal? = some p) :
    p.withoutNulls.normal? = some p.withoutNulls := by
  obtain ⟨hne, heq⟩ := ofClauses?_eq_some_iff.mp h
  have hnormal : Clause.normal p.clauses = p.clauses := congrArg Payload.clauses heq
  refine ofClauses?_eq_some_iff.mpr ⟨?_, ?_⟩
  · simpa [withoutNulls, Clause.normal_withoutNulls] using hne
  · simp [withoutNulls, Clause.normal_withoutNulls, hnormal]

end Payload

namespace Tree

variable {t : Tree} {f : Payload}

theorem payload?_eq (t : Tree) :
    t.payload? = Payload.normal? ⟨t.operator, Node.shape t.children⟩ := by
  rw [payload?, Node.sent_eq_normal_shape]
  rfl

/-- What is sent is in normal form. -/
theorem normal?_of_payload? (h : t.payload? = some f) : f.normal? = some f := by
  rw [payload?_eq] at h
  obtain ⟨hne, rfl⟩ := Payload.ofClauses?_eq_some_iff.mp h
  refine Payload.ofClauses?_eq_some_iff.mpr ⟨?_, ?_⟩
  · simpa using hne
  · simp

end Tree

end RecordLogic.Filter
