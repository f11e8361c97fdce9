import RecordLogic.Proofs.Filter.Clauses
import RecordLogic.Proofs.Filter.Identity

namespace RecordLogic.Filter

variable {i j parent : NodeId} {ns : List Node}

namespace Node

theorem groupPlace?_eq_none_of_not_mem (h : i ∉ ids ns) : groupPlace? i ns = none := by
  cases hplace : groupPlace? i ns with
  | none => rfl
  | some p =>
    have hreached := reached_of_groupPlace? hplace
    have hmem : i ∈ ids ns := by
      rw [← hreached.part_id, ← map_id_all]
      exact List.mem_map_of_mem hreached.mem_all
    exact absurd hmem h

/-- A group with a new identity is found where it was put, last among nodes. -/
theorem groupPlace?_concat (op : GroupOperator) (cs : List Node) (h : i ∉ ids ns) :
    groupPlace? i (ns ++ [group i op cs]) =
      some ⟨⟨i, op, cs⟩, fun g => ns ++ [g.toNode]⟩ := by
  induction ns with
  | nil => simp [groupPlace?]
  | cons n ns ih =>
    rw [ids_cons, List.mem_append, not_or] at h
    rw [List.cons_append, groupPlace?_cons_of_none (groupPlace?_eq_none_of_not_mem h.1), ih h.2]
    rfl

/-- A group with a new identity is found where it was put, last in another group. -/
theorem groupPlace?_push {p : Place Group (List Node)} (op : GroupOperator) (cs : List Node)
    (hp : groupPlace? j ns = some p) (h : i ∉ ids ns) :
    groupPlace? i (p.put (p.part.push (group i op cs))) =
      some ⟨⟨i, op, cs⟩, fun g => p.put (p.part.push g.toNode)⟩ := by
  have hreached := reached_of_groupPlace? hp
  clear hp
  induction hreached with
  | @here g ns hid =>
    simp only [Group.toNode, ids, List.mem_cons, List.mem_append, not_or] at h
    obtain ⟨hi, hchildren, -⟩ := h
    simp [Group.push, Group.toNode, groupPlace?, Ne.symm hi,
      groupPlace?_concat op cs hchildren, Place.within]
  | @inside k op' cs' ns p hk hp ih =>
    simp only [ids, List.mem_cons, List.mem_append, not_or] at h
    obtain ⟨hi, hchildren, -⟩ := h
    simp [Place.within, groupPlace?, Ne.symm hi, ih hchildren]
  | @behind n ns p hn hp ih =>
    rw [ids_cons, List.mem_append, not_or] at h
    rw [Place.within, groupPlace?_cons_of_none (groupPlace?_eq_none_of_not_mem h.1)]
    simp only [ih h.2]
    rfl

end Node

namespace Tree

variable {t : Tree} {p : Place Group Tree}

/-- The tree in which further nodes stand last in a group, after `k` identities were given out. -/
def grown (p : Place Group Tree) (ns : List Node) (k : Nat) : Tree :=
  { p.put { p.part with children := p.part.children ++ ns } with next := k }

theorem groupPlace?_of_ne (h : t.rootId ≠ i) :
    t.groupPlace? i =
      (Node.groupPlace? i t.children).map (·.within fun children => { t with children }) := by
  rw [groupPlace?, if_neg h]

theorem groupPlace?_next (t : Tree) (k : Nat) (i : NodeId) :
    { t with next := k }.groupPlace? i =
      (t.groupPlace? i).map (·.within fun t => { t with next := k }) := by
  by_cases hroot : t.rootId = i
  · simp [groupPlace?, hroot, Place.within]
  · simp only [groupPlace?, if_neg hroot, Option.map_map]
    rfl

/-- A group that has grown can grow further. -/
theorem groupPlace?_grown (h : t.groupPlace? i = some p) (ns : List Node) (k : Nat) :
    ∃ q, (grown p ns k).groupPlace? i = some q ∧ ∀ ms l, grown q ms l = grown p (ns ++ ms) l := by
  let g : Group := { p.part with children := p.part.children ++ ns }
  have hid : g.id = i := groupPlace?_part_id h
  have hput := groupPlace?_put h hid
  refine ⟨⟨g, fun g => { p.put g with next := k }⟩, ?_, fun ms l => by simp [grown, g]⟩
  rw [grown, groupPlace?_next, hput]
  rfl

/-- A group with a new identity can grow where it was added. -/
theorem groupPlace?_added (h : t.groupPlace? parent = some p) (hi : i ∉ t.rootId :: t.ids)
    (op : GroupOperator) (k : Nat) :
    ∃ q, (grown p [.group i op []] k).groupPlace? i = some q ∧
      ∀ ms l, grown q ms l = grown p [.group i op ms] l := by
  rw [List.mem_cons, not_or] at hi
  obtain ⟨hroot, hids⟩ := hi
  refine ⟨⟨⟨i, op, []⟩, fun g => grown p [g.toNode] k⟩, ?_, fun ms l => by
    simp [grown, Group.toNode]⟩
  rw [groupPlace?] at h
  split at h
  · cases h
    have hfound := Node.groupPlace?_concat op [] hids
    rw [groupPlace?_of_ne]
    · change Option.map _ (Node.groupPlace? i (t.children ++ [.group i op []])) = _
      rw [hfound]
      rfl
    · exact Ne.symm hroot
  · obtain ⟨q, hq, rfl⟩ := Option.map_eq_some_iff.mp h
    have hfound := Node.groupPlace?_push op [] hq hids
    rw [groupPlace?_of_ne]
    · change Option.map _ (Node.groupPlace? i (q.put (q.part.push (.group i op [])))) = _
      rw [hfound]
      rfl
    · exact Ne.symm hroot

theorem addCondition_eq (h : t.groupPlace? parent = some p) (c : Condition) :
    (t.addCondition (some parent) c).2 =
      grown p [.leaf (t.supply.give t.next) c] (t.next + 1) := by
  simp [addCondition, add, attach?, h, Group.push, grown]

theorem addGroup_eq (h : t.groupPlace? parent = some p) (op : GroupOperator) :
    t.addGroup (some parent) op = (some (t.supply.give t.next),
      grown p [.group (t.supply.give t.next) op []] (t.next + 1)) := by
  simp [addGroup, add, attach?, h, Group.push, grown]

/-- Loading puts nodes in the shape of the clauses last into the group. -/
theorem load_eq (ht : t.Issued) (h : t.groupPlace? parent = some p) (cs : List Clause) :
    ∃ ns k, Node.shape ns = cs ∧ t.load parent cs = grown p ns k := by
  fun_induction Tree.load t parent cs generalizing p with
  | case1 t parent =>
    refine ⟨[], t.next, by simp [Node.shape], ?_⟩
    simp [grown, groupPlace?_put_part h]
  | case2 t parent c cs ih =>
    obtain ⟨q, hq, hgrown⟩ :=
      groupPlace?_grown h [.leaf (t.supply.give t.next) c] (t.next + 1)
    rw [← addCondition_eq h] at hq
    obtain ⟨ns, k, hshape, hload⟩ := ih (ht.addCondition (some parent) c) hq
    refine ⟨.leaf (t.supply.give t.next) c :: ns, k, by simp [Node.shape, hshape], ?_⟩
    rw [hload, hgrown, List.singleton_append]
  | case3 t parent op inner cs i t' hadd ihi ihc =>
    have ht' : t'.Issued := by
      have hgroup := ht.addGroup (some parent) op
      rwa [hadd] at hgroup
    rw [addGroup_eq h] at hadd
    cases hadd
    obtain ⟨q, hq, hgrown⟩ := groupPlace?_added h ht.fresh op (t.next + 1)
    obtain ⟨ms, l, hinner, hload⟩ := ihi ht' hq
    rw [hgrown] at hload
    obtain ⟨q', hq', hgrown'⟩ :=
      groupPlace?_grown h [.group (t.supply.give t.next) op ms] l
    rw [← hload] at hq'
    obtain ⟨ns, k, hshape, hrest⟩ := ihc (ht'.load _ inner) hq'
    refine ⟨.group (t.supply.give t.next) op ms :: ns, k, ?_, ?_⟩
    · simp [Node.shape, hinner, hshape]
    · rw [hrest, hgrown', List.singleton_append]
  | case4 t parent op inner cs t' hadd ih =>
    rw [addGroup_eq h] at hadd
    cases hadd

/-- A filter that was sent comes back with its operators and clauses. -/
theorem shape_ofPayload (p : Payload) (start : Nat) (supply : Supply) :
    (ofPayload p start supply).operator = p.operator ∧
      Node.shape (ofPayload p start supply).children = p.clauses := by
  let t := Tree.new p.operator start supply
  have hroot : t.groupPlace? t.rootId =
      some ⟨⟨t.rootId, t.operator, t.children⟩,
        fun g => { t with rootId := g.id, operator := g.operator, children := g.children }⟩ := by
    rw [groupPlace?, if_pos rfl]
  obtain ⟨ns, k, hshape, hload⟩ :=
    load_eq (Issued.of_new p.operator start supply) hroot p.clauses
  rw [ofPayload, hload]
  exact ⟨rfl, by simpa [grown, t, Tree.new] using hshape⟩

theorem payload?_ofPayload (p : Payload) (start : Nat) (supply : Supply) :
    (ofPayload p start supply).payload? = p.normal? := by
  obtain ⟨hoperator, hshape⟩ := shape_ofPayload p start supply
  rw [payload?_eq, hoperator, hshape]

end Tree

end RecordLogic.Filter
