import Mathlib.Data.List.Forall2
import RecordLogic.Proofs.Filter.Valid

namespace RecordLogic.Filter

/-- What is wrong with a condition. -/
def Condition.Defect (c : Condition) : IssueKind → Prop
  | .missingField => ∀ ch ∈ c.field.toList, Text.isBlank ch
  | .missingValue => c.operator ≠ .isEmpty ∧ c.operator ≠ .isNotEmpty ∧ c.value = none
  | .invalidRange =>
    (c.operator = .between ∨ c.operator = .notBetween) ∧
      ∃ j, c.value = some j ∧ ∀ low high, j ≠ .array [low, high]
  | .invalidMembership =>
    (c.operator = .isIn ∨ c.operator = .isNotIn) ∧
      ∃ j, c.value = some j ∧ ∀ first rest, j ≠ .array (first :: rest)
  | .invalidLength =>
    (c.operator = .minLength ∨ c.operator = .maxLength) ∧
      ∃ j, c.value = some j ∧ ¬j.NonNegative
  | .notGroupArity _ | .emptyGroup => False

/-- What is wrong with a group of some number of children. -/
def GroupOperator.Defect (op : GroupOperator) (children : Nat) : IssueKind → Prop
  | .notGroupArity n => op = .not ∧ n = children ∧ children ≠ 1
  | .emptyGroup => op ≠ .not ∧ children = 0
  | _ => False

/-- What is wrong with a node by itself. -/
def Node.Defect : Node → IssueKind → Prop
  | leaf _ c => c.Defect
  | group _ op cs => op.Defect cs.length

/-- The root is asked what other groups are asked, unless it is empty. -/
def Tree.RootDefect (t : Tree) (k : IssueKind) : Prop :=
  t.children ≠ [] ∧ t.operator.Defect t.children.length k

/-- The kinds are the defects. Of two of them the first one is the missing field and the second one
is not, so there are no more than two, and none occurs twice. -/
structure Lists (kinds : List IssueKind) (Defect : IssueKind → Prop) : Prop where
  mem_iff : ∀ k, k ∈ kinds ↔ Defect k
  ordered : kinds.Pairwise fun k l => k = .missingField ∧ l ≠ .missingField

namespace Lists

variable {kinds kinds' : List IssueKind} {Defect : IssueKind → Prop}

theorem nodup (h : Lists kinds Defect) : kinds.Nodup :=
  h.ordered.imp fun ⟨hk, hl⟩ heq => hl (heq ▸ hk)

theorem unique (h : Lists kinds Defect) (h' : Lists kinds' Defect) : kinds = kinds' := by
  have hperm : kinds.Perm kinds' :=
    (List.perm_ext_iff_of_nodup h.nodup h'.nodup).mpr fun k =>
      (h.mem_iff k).trans (h'.mem_iff k).symm
  exact hperm.eq_of_pairwise (fun k l _ _ hkl hlk => absurd hlk.1 hkl.2) h.ordered h'.ordered

end Lists

namespace ConditionOperator

variable {op : ConditionOperator}

theorem of_isRange (h : op.isRange) :
    op.takesValue ∧ op.isMembership = false ∧ op.isLengthBound = false := by
  obtain rfl | rfl := isRange_iff.mp h <;> decide

theorem of_isMembership (h : op.isMembership) : op.takesValue ∧ op.isLengthBound = false := by
  obtain rfl | rfl := isMembership_iff.mp h <;> decide

theorem takesValue_of_isLengthBound (h : op.isLengthBound) : op.takesValue := by
  obtain rfl | rfl := isLengthBound_iff.mp h <;> rfl

end ConditionOperator

theorem mem_valueIssues_iff {op : ConditionOperator} {value : Option Json} {k : IssueKind} :
    k ∈ valueIssues op value ↔
      (value = none ∧ k = .missingValue) ∨ ∃ j, value = some j ∧
        ((op.isRange ∧ isPair j = false ∧ k = .invalidRange) ∨
          (op.isMembership ∧ isFilledArray j = false ∧ k = .invalidMembership) ∨
          (op.isLengthBound ∧ isNonNegative j = false ∧ k = .invalidLength)) := by
  cases value with
  | none => simp [valueIssues]
  | some j =>
    have hrange : op.isRange → op.isMembership = false ∧ op.isLengthBound = false := fun h =>
      (ConditionOperator.of_isRange h).2
    have hmembership : op.isMembership → op.isLengthBound = false := fun h =>
      (ConditionOperator.of_isMembership h).2
    rw [valueIssues]
    grind

/-- There is at most one, so they stand in every order. -/
theorem valueIssues_pairwise (op : ConditionOperator) (value : Option Json)
    (R : IssueKind → IssueKind → Prop) : (valueIssues op value).Pairwise R := by
  fun_cases valueIssues op value <;> simp

namespace Condition

theorem mem_issues_iff {c : Condition} {k : IssueKind} :
    k ∈ c.issues ↔ (Text.isBlankText c.field ∧ k = .missingField) ∨
      (c.operator.takesValue ∧ k ∈ valueIssues c.operator c.value) := by
  simp [issues]

theorem mem_issues_iff_defect (c : Condition) (k : IssueKind) : k ∈ c.issues ↔ c.Defect k := by
  have hpair : ∀ j, isPair j = false ↔ ∀ low high, j ≠ .array [low, high] := by
    simp [Bool.eq_false_iff, isPair_iff]
  have hfilled : ∀ j, isFilledArray j = false ↔ ∀ first rest, j ≠ .array (first :: rest) := by
    simp [Bool.eq_false_iff, isFilledArray_iff]
  have hlength : ∀ j, isNonNegative j = false ↔ ¬j.NonNegative := by
    simp [Bool.eq_false_iff, isNonNegative_iff]
  rw [mem_issues_iff, mem_valueIssues_iff]
  simp only [hpair, hfilled, hlength]
  cases k with
  | missingField => simp [Defect, Text.isBlankText]
  | missingValue => simp [Defect, ConditionOperator.takesValue_iff, and_assoc]
  | invalidRange =>
    have htakes : c.operator.isRange → c.operator.takesValue := fun h =>
      (ConditionOperator.of_isRange h).1
    rw [Defect, ← ConditionOperator.isRange_iff]
    grind
  | invalidMembership =>
    have htakes : c.operator.isMembership → c.operator.takesValue := fun h =>
      (ConditionOperator.of_isMembership h).1
    rw [Defect, ← ConditionOperator.isMembership_iff]
    grind
  | invalidLength =>
    have htakes : c.operator.isLengthBound → c.operator.takesValue :=
      ConditionOperator.takesValue_of_isLengthBound
    rw [Defect, ← ConditionOperator.isLengthBound_iff]
    grind
  | notGroupArity | emptyGroup => simp [Defect]

theorem lists_issues (c : Condition) : Lists c.issues c.Defect where
  mem_iff := c.mem_issues_iff_defect
  ordered := by
    have hvalue : ∀ k ∈ valueIssues c.operator c.value, k ≠ .missingField := by
      rintro k hk rfl
      simp [mem_valueIssues_iff] at hk
    rw [issues]
    refine List.pairwise_append.mpr ⟨?_, ?_, ?_⟩
    · split <;> simp
    · split
      · exact valueIssues_pairwise _ _ _
      · exact .nil
    · intro k hk l hl
      obtain ⟨-, hk⟩ : Text.isBlankText c.field ∧ k = .missingField := by simpa using hk
      split at hl
      · exact ⟨hk, hvalue l hl⟩
      · contradiction

end Condition

theorem lists_nil {Defect : IssueKind → Prop} (h : ∀ k, ¬Defect k) : Lists [] Defect where
  mem_iff k := by simp [h k]
  ordered := .nil

theorem mem_notIssues_iff {children : Nat} {k : IssueKind} :
    k ∈ notIssues children ↔ children ≠ 1 ∧ k = .notGroupArity children := by
  simp [notIssues]

theorem mem_groupIssues_iff (op : GroupOperator) (children : Nat) (k : IssueKind) :
    k ∈ groupIssues op children ↔ op.Defect children k := by
  cases op <;> cases k <;> simp [groupIssues, mem_notIssues_iff, GroupOperator.Defect, and_comm]

theorem lists_groupIssues (op : GroupOperator) (children : Nat) :
    Lists (groupIssues op children) (op.Defect children) where
  mem_iff := mem_groupIssues_iff op children
  ordered := by
    cases op
    case not => rw [groupIssues, notIssues]; split <;> simp
    all_goals rw [groupIssues]; split <;> simp

theorem rootIssues_of_ne (op : GroupOperator) {children : Nat} (h : children ≠ 0) :
    rootIssues op children = groupIssues op children := by
  cases op <;> simp [rootIssues, groupIssues, h]

theorem lists_rootIssues (t : Tree) :
    Lists (rootIssues t.operator t.children.length) t.RootDefect := by
  by_cases hempty : t.children = []
  · have hnone : rootIssues t.operator t.children.length = [] := by simp [rootIssues, hempty]
    rw [hnone]
    exact lists_nil fun k hk => hk.1 hempty
  · have hroot : t.RootDefect = t.operator.Defect t.children.length := by
      funext k
      simp [Tree.RootDefect, hempty]
    rw [hroot, rootIssues_of_ne _ (by simpa using hempty)]
    exact lists_groupIssues _ _

/-- A place where something can be wrong: a node and its defects. -/
structure Site where
  node : NodeId
  Defect : IssueKind → Prop

/-- The root and all nodes below it, in depth-first order. -/
def Tree.sites (t : Tree) : List Site :=
  ⟨t.rootId, t.RootDefect⟩ :: (Node.all t.children).map fun n => ⟨n.id, n.Defect⟩

/-- The issues are those of each site by itself, one site after the other. -/
inductive Reported : List Issue → List Site → Prop where
  | nil : Reported [] []
  | cons (i : NodeId) {Defect : IssueKind → Prop} {kinds : List IssueKind} {issues : List Issue}
      {sites : List Site} (hown : Lists kinds Defect) (hrest : Reported issues sites) :
      Reported (kinds.map (⟨i, ·⟩) ++ issues) (⟨i, Defect⟩ :: sites)

namespace Reported

variable {xs ys : List Issue} {sites : List Site}

theorem unique (h : Reported xs sites) (h' : Reported ys sites) : xs = ys := by
  induction h generalizing ys with
  | nil =>
    cases h'
    rfl
  | cons i hown _ ih =>
    cases h' with
    | cons _ hown' hrest' => rw [hown.unique hown', ih hrest']

theorem append {sites' : List Site} (h : Reported xs sites) (h' : Reported ys sites') :
    Reported (xs ++ ys) (sites ++ sites') := by
  induction h with
  | nil => exact h'
  | cons i hown _ ih =>
    rw [List.append_assoc]
    exact .cons i hown ih

/-- An issue is reported exactly for a defect of a site. -/
theorem mem_iff (h : Reported xs sites) (x : Issue) :
    x ∈ xs ↔ ∃ s ∈ sites, s.node = x.node ∧ s.Defect x.kind := by
  induction h with
  | nil => simp
  | cons i hown _ ih =>
    obtain ⟨j, k⟩ := x
    simp [ih, hown.mem_iff, and_comm]

end Reported

theorem Node.reported (ns : List Node) :
    Reported (issues ns) ((all ns).map fun n => ⟨n.id, n.Defect⟩) := by
  fun_induction all ns with
  | case1 =>
    rw [issues, List.map_nil]
    exact .nil
  | case2 i c ns ih =>
    rw [issues, List.map_cons]
    exact .cons i c.lists_issues ih
  | case3 i op cs ns ihc ihn =>
    rw [issues, List.map_cons, List.map_append]
    exact .cons i (lists_groupIssues op cs.length) (ihc.append ihn)

namespace Tree

theorem reported (t : Tree) : Reported t.issues t.sites :=
  .cons t.rootId (lists_rootIssues t) (Node.reported t.children)

theorem map_node_sites (t : Tree) : t.sites.map Site.node = t.rootId :: t.ids := by
  simp [sites, ids, ← Node.map_id_all, Function.comp_def]

/-- The issues of a tree are the defects of its nodes, each once and in depth-first order, and
nothing else: there are none exactly if no node is defective, and they stand at nodes of the
tree. -/
theorem issues_are_defects (t : Tree) :
    (∀ xs, Reported xs t.sites ↔ xs = t.issues) ∧
      (t.issues = [] ↔ ∀ s ∈ t.sites, ∀ k, ¬s.Defect k) ∧
      ∀ x ∈ t.issues, x.node ∈ t.rootId :: t.ids := by
  have hreported := t.reported
  refine ⟨fun xs => ⟨fun h => h.unique hreported, ?_⟩, ?_, ?_⟩
  · rintro rfl
    exact hreported
  · constructor
    · intro hnil s hs k hk
      have hmem := (hreported.mem_iff ⟨s.node, k⟩).mpr ⟨s, hs, rfl, hk⟩
      simp [hnil] at hmem
    · intro hnone
      refine List.eq_nil_iff_forall_not_mem.mpr fun x hx => ?_
      obtain ⟨s, hs, -, hk⟩ := (hreported.mem_iff x).mp hx
      exact hnone s hs x.kind hk
  · intro x hx
    obtain ⟨s, hs, hnode, -⟩ := (hreported.mem_iff x).mp hx
    rw [← map_node_sites, ← hnode]
    exact List.mem_map_of_mem hs

/-- A defective group does not hide what is wrong below it, nor a blank field a missing value. -/
example :
    let t : Tree := ⟨⟨0⟩, .and, [.group ⟨1⟩ .not [.leaf ⟨2⟩ ⟨.equal, " ", none, .constant⟩,
      .group ⟨3⟩ .or []]], .counted, 4⟩
    t.issues = [⟨⟨1⟩, .notGroupArity 2⟩, ⟨⟨2⟩, .missingField⟩, ⟨⟨2⟩, .missingValue⟩,
      ⟨⟨3⟩, .emptyGroup⟩] := by
  cbv

end Tree

end RecordLogic.Filter
