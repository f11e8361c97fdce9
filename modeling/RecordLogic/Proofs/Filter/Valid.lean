import RecordLogic.Filter.Issue
import RecordLogic.Proofs.Filter.Normal
import RecordLogic.Proofs.Number.Sign

namespace RecordLogic

/-- A number that is not negative. -/
def Json.NonNegative : Json → Prop
  | integer n => 0 ≤ n
  | float x => 0 ≤ x
  | _ => False

namespace Filter

theorem isNonNegative_iff (j : Json) : isNonNegative j ↔ j.NonNegative := by
  cases j <;> simp [isNonNegative, Json.toFloat?, Json.NonNegative, Number.zero_le_ofInt_iff]

theorem isPair_iff (j : Json) : isPair j ↔ ∃ low high, j = .array [low, high] := by
  fun_cases isPair j with
  | case1 low high => simp
  | case2 j hnot => simpa using hnot

theorem isFilledArray_iff (j : Json) :
    isFilledArray j ↔ ∃ first rest, j = .array (first :: rest) := by
  fun_cases isFilledArray j with
  | case1 first rest => simp
  | case2 j hnot => simpa using hnot

theorem valueIssues_eq_nil_iff (op : ConditionOperator) (value : Option Json) :
    valueIssues op value = [] ↔ ∃ j, value = some j ∧ (op.isRange → isPair j) ∧
      (op.isMembership → isFilledArray j) ∧ (op.isLengthBound → isNonNegative j) := by
  cases value with
  | none => simp [valueIssues]
  | some j => grind [valueIssues]

namespace ConditionOperator

variable {op : ConditionOperator}

theorem takesValue_iff : op.takesValue ↔ op ≠ .isEmpty ∧ op ≠ .isNotEmpty := by
  cases op <;> simp [takesValue]

theorem isRange_iff : op.isRange ↔ op = .between ∨ op = .notBetween := by
  cases op <;> simp [isRange]

theorem isMembership_iff : op.isMembership ↔ op = .isIn ∨ op = .isNotIn := by
  cases op <;> simp [isMembership]

theorem isLengthBound_iff : op.isLengthBound ↔ op = .minLength ∨ op = .maxLength := by
  cases op <;> simp [isLengthBound]

end ConditionOperator

namespace Condition

/-- What the server asks of a condition. -/
@[mk_iff acceptable_iff]
structure Acceptable (c : Condition) : Prop where
  field : ∃ ch ∈ c.field.toList, Text.isBlank ch = false
  value : c.operator ≠ .isEmpty → c.operator ≠ .isNotEmpty → c.value.isSome
  pair : c.operator = .between ∨ c.operator = .notBetween →
    ∃ low high, c.value = some (.array [low, high])
  candidates : c.operator = .isIn ∨ c.operator = .isNotIn →
    ∃ first rest, c.value = some (.array (first :: rest))
  bound : c.operator = .minLength ∨ c.operator = .maxLength →
    ∃ v, c.value = some v ∧ v.NonNegative

theorem issues_eq_nil_iff (c : Condition) : c.issues = [] ↔ c.Acceptable := by
  obtain ⟨op, field, value, source⟩ := c
  have hfield : Text.isBlankText field = false ↔ ∃ ch ∈ field.toList, Text.isBlank ch = false := by
    simp [Text.isBlankText]
  have hissues : (Condition.mk op field value source).issues = [] ↔
      (∃ ch ∈ field.toList, Text.isBlank ch = false) ∧
        (op.takesValue → valueIssues op value = []) := by
    simp [issues, ← hfield]
  rw [hissues, valueIssues_eq_nil_iff, acceptable_iff]
  simp only [isPair_iff, isFilledArray_iff, isNonNegative_iff, ConditionOperator.takesValue_iff,
    ConditionOperator.isRange_iff, ConditionOperator.isMembership_iff,
    ConditionOperator.isLengthBound_iff]
  cases op <;> cases value <;> simp

@[simp]
theorem acceptable_withoutIdleValue (c : Condition) :
    c.withoutIdleValue.Acceptable ↔ c.Acceptable := by
  rw [acceptable_iff, acceptable_iff, withoutIdleValue]
  grind

end Condition

namespace Clause

variable {cs : List Clause}

/-- The clauses and all below them, in depth-first order. -/
def all : List Clause → List Clause
  | [] => []
  | leaf c :: cs => leaf c :: all cs
  | group op inner :: cs => group op inner :: (all inner ++ all cs)

/-- What the server asks of a clause: a negation has one part, any other group at least one. The
parts are looked at by themselves. -/
def Acceptable : Clause → Prop
  | leaf c => c.Acceptable
  | group .not inner => inner.length = 1
  | group .and inner | group .or inner => inner ≠ []

/-- The server accepts every clause, at any depth. -/
def AllAcceptable (cs : List Clause) : Prop :=
  ∀ c ∈ all cs, c.Acceptable

@[simp]
theorem allAcceptable_nil : AllAcceptable [] := by
  simp [AllAcceptable, all]

@[simp]
theorem allAcceptable_leaf (c : Condition) (cs : List Clause) :
    AllAcceptable (leaf c :: cs) ↔ c.Acceptable ∧ AllAcceptable cs := by
  rw [AllAcceptable, all, List.forall_mem_cons, Acceptable, AllAcceptable]

@[simp]
theorem allAcceptable_group (op : GroupOperator) (inner cs : List Clause) :
    AllAcceptable (group op inner :: cs) ↔
      (group op inner).Acceptable ∧ AllAcceptable inner ∧ AllAcceptable cs := by
  rw [AllAcceptable, all, List.forall_mem_cons, List.forall_mem_append]
  rfl

theorem ne_nil_of_acceptable {op : GroupOperator} (h : (group op cs).Acceptable) : cs ≠ [] := by
  rintro rfl
  cases op <;> simp [Acceptable] at h

theorem filled_of_allAcceptable (h : AllAcceptable cs) : filled cs := by
  fun_induction filled cs with
  | case1 => rfl
  | case2 c cs ih =>
    rw [allAcceptable_leaf] at h
    exact ih h.2
  | case3 op inner cs ihi ihc =>
    obtain ⟨hgroup, hinner, hcs⟩ := (allAcceptable_group op inner cs).mp h
    simp [ne_nil_of_acceptable hgroup, ihi hinner, ihc hcs]

@[simp]
theorem acceptable_mapLeaves (op : GroupOperator) (f : Condition → Condition) (cs : List Clause) :
    (group op (mapLeaves f cs)).Acceptable ↔ (group op cs).Acceptable := by
  cases op <;> simp [Acceptable]

/-- The server does not look at idle values. -/
@[simp]
theorem allAcceptable_withoutIdleValue (cs : List Clause) :
    AllAcceptable (mapLeaves Condition.withoutIdleValue cs) ↔ AllAcceptable cs := by
  fun_induction mapLeaves Condition.withoutIdleValue cs with
  | case1 => rfl
  | case2 c cs ih => simp [ih]
  | case3 op inner cs ihi ihc => simp [ihi, ihc]

end Clause

theorem groupIssues_eq_nil_iff (op : GroupOperator) (cs : List Clause) :
    groupIssues op cs.length = [] ↔ (Clause.group op cs).Acceptable := by
  cases op <;> simp [groupIssues, notIssues, Clause.Acceptable]

/-- The root is asked what other groups are asked, unless it is empty. -/
theorem rootIssues_eq_nil_iff (op : GroupOperator) (cs : List Clause) :
    rootIssues op cs.length = [] ↔ cs = [] ∨ (Clause.group op cs).Acceptable := by
  cases op <;> grind [rootIssues, notIssues, Clause.Acceptable]

namespace Node

theorem issues_eq_nil_iff (ns : List Node) : issues ns = [] ↔ Clause.AllAcceptable (shape ns) := by
  fun_induction shape ns with
  | case1 => simp [issues]
  | case2 i c ns ih => simp [issues, Condition.issues_eq_nil_iff, ih]
  | case3 i op cs ns ihc ihn =>
    simp [issues, ← length_shape cs, groupIssues_eq_nil_iff, ihc, ihn, -length_shape]

end Node

namespace Tree

variable {t : Tree} {f : Payload}

/-- A tree has no issues if the server accepts all its clauses: the root too, unless it is empty. -/
theorem issues_eq_nil_iff (t : Tree) : t.issues = [] ↔
    t.children = [] ∨ Clause.AllAcceptable [.group t.operator (Node.shape t.children)] := by
  have hroot := rootIssues_eq_nil_iff t.operator (Node.shape t.children)
  rw [Node.length_shape, Node.shape_eq_nil_iff] at hroot
  have hnodes := Node.issues_eq_nil_iff t.children
  simp only [issues, List.append_eq_nil_iff, List.map_eq_nil_iff, hroot, hnodes,
    Clause.allAcceptable_group, Clause.allAcceptable_nil, and_true]
  constructor
  · rintro ⟨hempty | hgroup, hall⟩
    · exact .inl hempty
    · exact .inr ⟨hgroup, hall⟩
  · rintro (hempty | hall)
    · exact ⟨.inl hempty, by simp [hempty, Node.shape]⟩
    · exact ⟨.inr hall.1, hall.2⟩

/-- The filter is the tree node for node, but for idle values, and the server accepts all of it. -/
structure SentWhole (t : Tree) (f : Payload) : Prop where
  operator_eq : f.operator = t.operator
  clauses_eq : f.clauses = Clause.mapLeaves Condition.withoutIdleValue (Node.shape t.children)
  sizes_eq : Clause.sizes f.clauses = t.size
  acceptable : ∀ c ∈ Clause.all [f.toClause], c.Acceptable

theorem payload?_of_issues_eq_nil (h : t.issues = []) : t.payload? =
    if t.children = [] then none
    else some (Payload.withoutIdleValues ⟨t.operator, Node.shape t.children⟩) := by
  rw [payload?_eq]
  split
  case isTrue hempty =>
    simp [hempty, Node.shape, Payload.normal?, Clause.normal, Payload.ofClauses?]
  case isFalse hne =>
    have hall := ((issues_eq_nil_iff t).mp h).resolve_left hne
    exact Payload.normal?_of_filled (Clause.filled_of_allAcceptable hall)

theorem sentWhole_of_issues_eq_nil (h : t.issues = []) (hsent : t.payload? = some f) :
    t.SentWhole f := by
  rw [payload?_of_issues_eq_nil h] at hsent
  split at hsent
  case isTrue => contradiction
  case isFalse hne =>
    have hall := ((issues_eq_nil_iff t).mp h).resolve_left hne
    cases hsent
    exact {
      operator_eq := rfl
      clauses_eq := rfl
      sizes_eq := by simp [Payload.withoutIdleValues, size, Node.sizes_shape]
      acceptable := by
        rw [← Clause.AllAcceptable]
        simpa [Payload.toClause, Payload.withoutIdleValues] using hall }

theorem issues_ofPayload (h : Clause.AllAcceptable [f.toClause]) (start : Nat) (supply : Supply) :
    (ofPayload f start supply).issues = [] := by
  obtain ⟨hoperator, hshape⟩ := shape_ofPayload f start supply
  rw [issues_eq_nil_iff, hoperator, hshape]
  exact .inr h

/-- A tree without issues is sent whole if there is something to send, and what is sent has none
either when it is restored. -/
theorem accepted_sent_whole (h : t.issues = []) :
    (t.payload? = none ↔ t.children = []) ∧
      ∀ f, t.payload? = some f → t.SentWhole f ∧
        ∀ start supply, (ofPayload f start supply).issues = [] := by
  constructor
  · rw [payload?_of_issues_eq_nil h]
    split <;> simp [*]
  · intro f hsent
    have hwhole := sentWhole_of_issues_eq_nil h hsent
    exact ⟨hwhole, issues_ofPayload hwhole.acceptable⟩

theorem accepted_sent_whole_nested :
    let c : Condition := ⟨.between, "a", some (.array [.integer 1, .integer 9]), .constant⟩
    let t : Tree := ⟨⟨0⟩, .not, [.group ⟨1⟩ .or [.leaf ⟨2⟩ c,
      .leaf ⟨3⟩ ⟨.isEmpty, "b", some .null, .constant⟩]], .counted, 4⟩
    let f : Payload :=
      ⟨.not, [.group .or [.leaf c, .leaf ⟨.isEmpty, "b", none, .constant⟩]]⟩
    t.issues = [] ∧ t.payload? = some f ∧ t.SentWhole f ∧ (ofPayload f 4).issues = [] := by
  intro c t f
  have hissues : t.issues = [] := by
    cbv
  have hsent : t.payload? = some f := by
    cbv
  obtain ⟨hwhole, hrestored⟩ := (accepted_sent_whole hissues).2 f hsent
  exact ⟨hissues, hsent, hwhole, hrestored 4 .counted⟩

end Tree

end Filter

end RecordLogic
