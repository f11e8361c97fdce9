import RecordLogic.Proofs.Filter.Clauses
import RecordLogic.Proofs.Filter.Entries

namespace RecordLogic.Filter

/-- The condition without its value if it only asks whether the field is empty. -/
def Condition.withoutIdleValue (c : Condition) : Condition :=
  { c with value := if c.operator = .isEmpty ∨ c.operator = .isNotEmpty then none else c.value }

theorem Condition.sent_eq_withoutIdleValue (c : Condition) : c.sent = c.withoutIdleValue := by
  obtain ⟨op, field, value, source⟩ := c
  cases op <;> simp [sent, withoutIdleValue, ConditionOperator.takesValue]

namespace Clause

/-- The conditions in depth-first order, each with the operators of the groups around it from the
outermost inwards. -/
def leaves : List Clause → List (List GroupOperator × Condition)
  | [] => []
  | leaf c :: cs => ([], c) :: leaves cs
  | group op inner :: cs => (leaves inner).map (fun l => (op :: l.1, l.2)) ++ leaves cs

/-- The operators on the way to each group, its own last, in depth-first order. -/
def groupPaths : List Clause → List (List GroupOperator)
  | [] => []
  | leaf _ :: cs => groupPaths cs
  | group op inner :: cs => [op] :: (groupPaths inner).map (op :: ·) ++ groupPaths cs

variable {op : GroupOperator} {inner cs : List Clause}

theorem leaves_consGroup (op : GroupOperator) (inner cs : List Clause) :
    leaves (consGroup op inner cs) =
      (leaves inner).map (fun l => (op :: l.1, l.2)) ++ leaves cs := by
  by_cases hinner : inner = []
  · simp [hinner, leaves]
  · rw [consGroup_of_ne hinner, leaves]

theorem filled_consGroup (hinner : filled inner) (hcs : filled cs) :
    filled (consGroup op inner cs) := by
  by_cases hnil : inner = []
  · simp [hnil, hcs]
  · simp [consGroup_of_ne hnil, filled, hnil, hinner, hcs]

theorem leafCounts_eq_length (cs : List Clause) : leafCounts cs = (leaves cs).length := by
  fun_induction leaves cs with
  | case1 => simp [leafCounts]
  | case2 c cs ih =>
    simp only [leafCounts, ih, List.length_cons]
    omega
  | case3 op inner cs ihi ihc =>
    simp only [leafCounts, ihi, ihc, List.length_append, List.length_map]

end Clause

namespace Node

/-- The conditions in depth-first order, each with the operators of the groups around it from the
outermost inwards. -/
def leaves : List Node → List (List GroupOperator × Condition)
  | [] => []
  | leaf _ c :: ns => ([], c) :: leaves ns
  | group _ op cs :: ns => (leaves cs).map (fun l => (op :: l.1, l.2)) ++ leaves ns

/-- The operators on the way to each group that has a leaf at some depth, its own last, in
depth-first order. -/
def groupPaths : List Node → List (List GroupOperator)
  | [] => []
  | leaf _ _ :: ns => groupPaths ns
  | group _ op cs :: ns =>
    (if (all cs).all isGroup then [] else [op] :: (groupPaths cs).map (op :: ·)) ++ groupPaths ns

/-- Nothing is sent of nodes that are groups all the way down, and of no others. -/
theorem sent_eq_nil_iff (ns : List Node) : sent ns = [] ↔ ∀ n ∈ all ns, n.isGroup := by
  fun_induction sent ns with
  | case1 => simp [all]
  | case2 i c ns ih => simp [all, isGroup]
  | case3 i op cs ns ihc ihn =>
    rw [Clause.consGroup_eq_nil_iff, ihc, ihn]
    simp [all, isGroup, or_imp, forall_and]

theorem filled_sent (ns : List Node) : Clause.filled (sent ns) := by
  fun_induction sent ns with
  | case1 => simp [Clause.filled]
  | case2 i c ns ih => simpa [Clause.filled] using ih
  | case3 i op cs ns ihc ihn => exact Clause.filled_consGroup ihc ihn

theorem leaves_sent (ns : List Node) :
    Clause.leaves (sent ns) = (leaves ns).map fun l => (l.1, l.2.withoutIdleValue) := by
  fun_induction leaves ns with
  | case1 => simp [sent, Clause.leaves]
  | case2 i c ns ih => simp [sent, Clause.leaves, ih, Condition.sent_eq_withoutIdleValue]
  | case3 i op cs ns ihc ihn =>
    rw [sent, Clause.leaves_consGroup, ihc, ihn, List.map_append, List.map_map, List.map_map]
    rfl

theorem groupPaths_sent (ns : List Node) : Clause.groupPaths (sent ns) = groupPaths ns := by
  fun_induction groupPaths ns with
  | case1 => simp [sent, Clause.groupPaths]
  | case2 i c ns ih => simpa [sent, Clause.groupPaths] using ih
  | case3 i op cs ns ihc ihn =>
    by_cases hgroups : (all cs).all isGroup
    · have hinner : sent cs = [] := (sent_eq_nil_iff cs).mpr (List.all_eq_true.mp hgroups)
      rw [sent, hinner, Clause.consGroup_nil, ihn, if_pos hgroups, List.nil_append]
    · have hinner : sent cs ≠ [] := fun hnil =>
        hgroups (List.all_eq_true.mpr ((sent_eq_nil_iff cs).mp hnil))
      rw [sent, Clause.consGroup_of_ne hinner, Clause.groupPaths, ihc, ihn, if_neg hgroups]

end Node

/-- The filter as one group. -/
def Payload.toClause (p : Payload) : Clause :=
  .group p.operator p.clauses

namespace Tree

variable {t : Tree} {f : Payload}

/-- What a filter keeps of the tree that sends it. -/
structure Keeps (t : Tree) (f : Payload) : Prop where
  filled : Clause.filled [f.toClause]
  groupPaths_eq : Clause.groupPaths [f.toClause] = Node.groupPaths [t.root]
  leaves_eq : Clause.leaves [f.toClause] =
    (Node.leaves [t.root]).map fun l => (l.1, l.2.withoutIdleValue)
  leafCount_eq : f.leafCount = (Node.leaves [t.root]).length

theorem payload?_eq_none_iff (t : Tree) :
    t.payload? = none ↔ ∀ n ∈ Node.all t.children, n.isGroup := by
  rw [← Node.sent_eq_nil_iff, payload?, Payload.ofClauses?]
  split <;> simp_all

/-- What the root would be among other nodes is what the whole tree sends. -/
theorem sent_root (h : t.payload? = some f) : Node.sent [t.root] = [f.toClause] := by
  obtain ⟨hne, rfl⟩ := Payload.ofClauses?_eq_some_iff.mp h
  rw [root, Node.sent, Node.sent, Clause.consGroup_of_ne hne, Payload.toClause]

theorem keeps_of_payload? (h : t.payload? = some f) : t.Keeps f := by
  have hroot := sent_root h
  have hleaves := Node.leaves_sent [t.root]
  rw [hroot] at hleaves
  refine ⟨hroot ▸ Node.filled_sent [t.root], hroot ▸ Node.groupPaths_sent [t.root], hleaves, ?_⟩
  calc f.leafCount
    _ = Clause.leafCounts [f.toClause] := by
      simp [Payload.leafCount, Payload.toClause, Clause.leafCounts]
    _ = (Clause.leaves [f.toClause]).length := Clause.leafCounts_eq_length _
    _ = (Node.leaves [t.root]).length := by rw [hleaves, List.length_map]

/-- A tree without leaves sends nothing. Any other sends all its leaves, each under the same
operators as in the tree and in the same order, and no empty group. -/
theorem payload?_keeps_leaves (t : Tree) :
    (t.payload? = none ↔ ∀ n ∈ Node.all t.children, n.isGroup) ∧
      ∀ f, t.payload? = some f → t.Keeps f :=
  ⟨payload?_eq_none_iff t, fun _ => keeps_of_payload?⟩

/-- Groups that hold only groups are not sent, and neither is the value that nothing looks at. -/
theorem payload?_keeps_leaves_nested :
    let c : Condition := ⟨.isEmpty, "email", some (.integer 3), .constant⟩
    let t : Tree := ⟨⟨0⟩, .and,
      [.group ⟨1⟩ .or [.group ⟨2⟩ .not []], .group ⟨3⟩ .or [.group ⟨4⟩ .not [.leaf ⟨5⟩ c]]],
      .counted, 6⟩
    let f : Payload := ⟨.and, [.group .or [.group .not [.leaf { c with value := none }]]]⟩
    t.payload? = some f ∧ t.payload? ≠ none ∧ f.leafCount = 1 ∧
      Clause.groupPaths [f.toClause] = [[.and], [.and, .or], [.and, .or, .not]] ∧
      Clause.leaves [f.toClause] = [([.and, .or, .not], { c with value := none })] := by
  intro c t f
  have hf : t.payload? = some f := by
    simp [t, f, c, payload?, Node.sent, Clause.consGroup, Payload.ofClauses?, Condition.sent,
      ConditionOperator.takesValue]
  obtain ⟨hnone, hsome⟩ := payload?_keeps_leaves t
  have hkeeps := hsome f hf
  refine ⟨hf, ?_, ?_, ?_, ?_⟩
  · rw [Ne, hnone]
    simp [t, Node.all, Node.isGroup]
  · rw [hkeeps.leafCount_eq]
    simp [t, root, Node.leaves]
  · rw [hkeeps.groupPaths_eq]
    simp [t, root, Node.groupPaths, Node.all, Node.isGroup]
  · rw [hkeeps.leaves_eq]
    simp [t, c, root, Node.leaves, Condition.withoutIdleValue]

end Tree

end RecordLogic.Filter
