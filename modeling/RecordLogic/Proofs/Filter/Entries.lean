import RecordLogic.Filter.Node
import Mathlib.Data.List.Nodup

namespace RecordLogic.Filter

/-- What a node holds besides its children. -/
inductive Content where
  | leaf (condition : Condition)
  | group (operator : GroupOperator)

/-- A node as it stands in a tree: its identity, that of its parent and what it holds. -/
structure Entry where
  id : NodeId
  parent : NodeId
  content : Content

/-- The condition of an entry, if it belongs to a leaf. -/
def Entry.condition? (e : Entry) : Option Condition :=
  match e.content with
  | .leaf c => some c
  | .group _ => none

namespace Node

/-- All nodes, at any depth, in depth-first order. -/
def all : List Node → List Node
  | [] => []
  | leaf i c :: ns => leaf i c :: all ns
  | group i op cs :: ns => group i op cs :: (all cs ++ all ns)

/-- The entries of all nodes in depth-first order; the topmost ones have the parent `r`. -/
def entries (r : NodeId) : List Node → List Entry
  | [] => []
  | leaf i c :: ns => ⟨i, r, .leaf c⟩ :: entries r ns
  | group i op cs :: ns => ⟨i, r, .group op⟩ :: (entries i cs ++ entries r ns)

variable {i j r : NodeId} {n m : Node} {ns ns' : List Node}

@[simp]
theorem entries_append (r : NodeId) (ns ns' : List Node) :
    entries r (ns ++ ns') = entries r ns ++ entries r ns' := by
  induction ns with
  | nil => simp [entries]
  | cons n ns ih => cases n <;> simp [entries, ih]

theorem entries_cons (r : NodeId) (n : Node) (ns : List Node) :
    entries r (n :: ns) = entries r [n] ++ entries r ns :=
  entries_append r [n] ns

@[simp]
theorem map_id_entries (r : NodeId) (ns : List Node) : (entries r ns).map Entry.id = ids ns := by
  fun_induction ids ns generalizing r with
  | case1 => simp [entries]
  | case2 i c ns ih => simp [entries, ih]
  | case3 i op cs ns ihc ihn => simp [entries, ihc, ihn]

theorem id_mem_of_mem_entries {e : Entry} (h : e ∈ entries r ns) : e.id ∈ ids ns := by
  rw [← map_id_entries r]
  exact List.mem_map_of_mem h

theorem map_id_all (ns : List Node) : (all ns).map Node.id = ids ns := by
  fun_induction ids ns with
  | case1 => simp [all]
  | case2 i c ns ih => simp [all, Node.id, ih]
  | case3 i op cs ns ihc ihn => simp [all, Node.id, ihc, ihn]

theorem mem_all_of_mem (h : n ∈ ns) : n ∈ all ns := by
  induction ns with
  | nil => simp at h
  | cons m ns ih =>
    rcases List.mem_cons.mp h with rfl | hmem
    · cases n <;> simp [all]
    · cases m <;> simp [all, ih hmem]

theorem sizes_eq_length (ns : List Node) : sizes ns = (ids ns).length := by
  fun_induction ids ns with
  | case1 => simp [sizes]
  | case2 i c ns ih =>
    simp only [sizes, ih, List.length_cons]
    omega
  | case3 i op cs ns ihc ihn =>
    simp only [sizes, ihc, ihn, List.length_cons, List.length_append]
    omega

theorem ids_cons (n : Node) (ns : List Node) : ids (n :: ns) = ids [n] ++ ids ns := by
  cases n <;> simp [ids]

theorem ids_ne_nil (h : ns ≠ []) : ids ns ≠ [] := by
  cases ns with
  | nil => exact absurd rfl h
  | cons n ns => cases n <;> simp [ids]

theorem mem_all_of_find? (h : find? i ns = some n) : n ∈ all ns ∧ n.id = i := by
  fun_induction find? i ns with
  | case1 => simp at h
  | case2 c ns =>
    cases h
    simp [all, Node.id]
  | case3 j c ns hj ih =>
    obtain ⟨hmem, hid⟩ := ih h
    simp [all, hmem, hid]
  | case4 op cs ns =>
    cases h
    simp [all, Node.id]
  | case5 j op cs ns hj m hm ih =>
    cases h
    obtain ⟨hmem, hid⟩ := ih hm
    simp [all, hmem, hid]
  | case6 j op cs ns hj hcs ihc ihn =>
    obtain ⟨hmem, hid⟩ := ihn h
    simp [all, hmem, hid]

theorem find?_isSome_iff (i : NodeId) (ns : List Node) : (find? i ns).isSome ↔ i ∈ ids ns := by
  fun_induction find? i ns with
  | case1 => simp [ids]
  | case2 c ns => simp [ids]
  | case3 j c ns hj ih => simp [ids, ih, Ne.symm hj]
  | case4 op cs ns => simp [ids]
  | case5 j op cs ns hj m hm ih =>
    have hmem : i ∈ ids cs := by simpa [hm] using ih
    simp [ids, hmem]
  | case6 j op cs ns hj hcs ihc ihn =>
    have hnot : i ∉ ids cs := by simpa [hcs] using ihc
    simp [ids, hnot, ihn, Ne.symm hj]

theorem find?_eq_none_iff : find? i ns = none ↔ i ∉ ids ns := by
  rw [← find?_isSome_iff, Bool.not_eq_true, Option.isSome_eq_false_iff, Option.isNone_iff_eq_none]

/-- Where identities do not repeat, the node with an identity is the one that is found. -/
theorem find?_of_mem_all (hnd : (ids ns).Nodup) (hmem : n ∈ all ns) : find? n.id ns = some n := by
  have hid : n.id ∈ ids ns := map_id_all ns ▸ List.mem_map_of_mem hmem
  obtain ⟨m, hm⟩ := Option.isSome_iff_exists.mp ((find?_isSome_iff n.id ns).mpr hid)
  obtain ⟨hm_mem, hm_id⟩ := mem_all_of_find? hm
  have hinj := List.inj_on_of_nodup_map (map_id_all ns ▸ hnd)
  rw [hm, hinj hm_mem hmem hm_id]

theorem find?_eq_some_iff (hnd : (ids ns).Nodup) :
    find? i ns = some n ↔ n ∈ all ns ∧ n.id = i := by
  constructor
  · exact mem_all_of_find?
  · rintro ⟨hmem, rfl⟩
    exact find?_of_mem_all hnd hmem

end Node

end RecordLogic.Filter
