import Mathlib.Logic.Relation
import RecordLogic.Proofs.Filter.Change

namespace RecordLogic.Filter

variable {i j r q : NodeId} {n : Node} {ns : List Node}

namespace Node

theorem id_mem_ids (n : Node) : n.id ∈ ids [n] := by
  cases n <;> simp [ids, Node.id]

theorem dropFirst?_cons_eq_none_iff :
    dropFirst? i (n :: ns) = none ↔ n.id ≠ i ∧ dropFirst? i ns = none := by
  by_cases hn : n.id = i <;> simp [dropFirst?, hn]

/-- No node is missed although each level is searched before the levels below it. -/
theorem not_mem_ids_of_remove?_eq_none (hdrop : dropFirst? i ns = none)
    (hbelow : removeBelow? i ns = none) : i ∉ ids ns := by
  fun_induction removeBelow? i ns with
  | case1 => simp [ids]
  | case2 j c ns ih =>
    obtain ⟨hj, hdrop⟩ := dropFirst?_cons_eq_none_iff.mp hdrop
    have hrest := ih hdrop (by simpa using hbelow)
    simpa [ids, hrest, eq_comm, Node.id] using hj
  | case3 j op cs ns cs' hcs ih => simp at hbelow
  | case4 j op cs ns hcs ihc ihn =>
    obtain ⟨hj, hdrop⟩ := dropFirst?_cons_eq_none_iff.mp hdrop
    obtain ⟨hcdrop, hcbelow⟩ := Option.or_eq_none_iff.mp hcs
    have hinner := ihc hcdrop hcbelow
    have hrest := ihn hdrop (by simpa using hbelow)
    simpa [ids, hinner, hrest, eq_comm, Node.id] using hj

theorem remove?_isSome_iff (i : NodeId) (ns : List Node) : (remove? i ns).isSome ↔ i ∈ ids ns := by
  constructor
  · intro h
    obtain ⟨ns', hns'⟩ := Option.isSome_iff_exists.mp h
    obtain ⟨before, q, cut, after, -, hid, hold, -⟩ := remove?_splits hns' i
    have hmem := id_mem_ids cut
    rw [← map_id_entries i, hold]
    simp [hid ▸ hmem]
  · intro hmem
    rw [Option.isSome_iff_ne_none]
    intro h
    obtain ⟨hdrop, hbelow⟩ := Option.or_eq_none_iff.mp h
    exact not_mem_ids_of_remove?_eq_none hdrop hbelow hmem

/-- Whatever stands below is reached from the parent of the topmost nodes. -/
theorem reflTransGen_of_mem_ids {R : NodeId → NodeId → Prop}
    (hR : ∀ e ∈ entries r ns, R e.parent e.id) (hj : j ∈ ids ns) : Relation.ReflTransGen R r j := by
  fun_induction ids ns generalizing r with
  | case1 => simp at hj
  | case2 i c ns ih =>
    rcases List.mem_cons.mp hj with rfl | hj
    · exact .single (hR ⟨j, r, .leaf c⟩ (by simp [entries]))
    · exact ih (fun e he => hR e (by simp [entries, he])) hj
  | case3 i op cs ns ihc ihn =>
    have hi : R r i := hR ⟨i, r, .group op⟩ (by simp [entries])
    rcases List.mem_cons.mp hj with rfl | hj
    · exact .single hi
    · rcases List.mem_append.mp hj with hj | hj
      · exact .head hi (ihc (fun e he => hR e (by simp [entries, he])) hj)
      · exact ihn (fun e he => hR e (by simp [entries, he])) hj

theorem reflTransGen_of_mem_ids_self {R : NodeId → NodeId → Prop}
    (hR : ∀ e ∈ entries q [n], R e.parent e.id) (hj : j ∈ ids [n]) :
    Relation.ReflTransGen R n.id j := by
  cases n with
  | leaf i c =>
    obtain rfl : j = i := by simpa [ids] using hj
    exact .refl
  | group i op cs =>
    rw [ids, ids, List.append_nil] at hj
    rcases List.mem_cons.mp hj with rfl | hj
    · exact .refl
    · exact reflTransGen_of_mem_ids (r := i) (fun e he => hR e (by simp [entries, he])) hj

end Node

namespace Tree

variable {t t' : Tree} {cut : Node}

/-- The second identity belongs to a child of the node with the first. -/
def IsParent (t : Tree) (p c : NodeId) : Prop :=
  ∃ e ∈ t.entries, e.parent = p ∧ e.id = c

/-- The second identity belongs to the node with the first or to one of its descendants. -/
def Reaches (t : Tree) : NodeId → NodeId → Prop :=
  Relation.ReflTransGen t.IsParent

/-- The second tree is the first without a node and its descendants. -/
structure Cut (n : Node) (t t' : Tree) : Prop where
  rootId_eq : t'.rootId = t.rootId
  operator_eq : t'.operator = t.operator
  gone_iff : ∀ j, j ∈ t.ids ∧ j ∉ t'.ids ↔ t.Reaches n.id j
  ids_eq : t'.ids = t.ids.filter (· ∉ Node.ids [n])
  entries_eq : t'.entries = t.entries.filter (·.id ∉ Node.ids [n])
  under_eq : ∀ p, t'.under p = (t.under p).filter (·.id ∉ Node.ids [n])
  size_eq : t'.size + Node.sizes [n] = t.size

section

variable (h : t.Distinct) (hs : Spliced (Node.entries q [cut]) [] t t')

include hs in
theorem perm_of_cut : (t.rootId :: t.ids).Perm (Node.ids [cut] ++ t'.rootId :: t'.ids) := by
  obtain ⟨hroot, -, before, after, hold, hnew⟩ := hs
  rw [hroot, ← map_id_entries t, ← map_id_entries t', hold, hnew]
  simp only [List.map_append, Node.map_id_entries, List.append_nil]
  have hswap : (before.map Entry.id ++ Node.ids [cut]).Perm
      (Node.ids [cut] ++ before.map Entry.id) := List.perm_append_comm
  have hall := hswap.append_right (after.map Entry.id)
  rw [List.append_assoc (Node.ids [cut])] at hall
  exact (hall.cons t.rootId).trans List.perm_middle.symm

include h hs in
theorem not_mem_of_mem_cut (hj : j ∈ Node.ids [cut]) : j ∉ t'.rootId :: t'.ids := by
  have hnd := (perm_of_cut hs).nodup_iff.mp h
  exact List.disjoint_of_nodup_append hnd hj

include h hs in
/-- The descendants of a node are those that its own part of the entries holds. -/
theorem reaches_iff_mem_cut (j : NodeId) : t.Reaches cut.id j ↔ j ∈ Node.ids [cut] := by
  obtain ⟨-, -, before, after, hold, hnew⟩ := id hs
  constructor
  · intro hreaches
    induction hreaches with
    | refl => exact Node.id_mem_ids cut
    | tail _ hparent ih =>
      obtain ⟨e, he, rfl, rfl⟩ := hparent
      by_cases hinside : e ∈ Node.entries q [cut]
      · exact Node.id_mem_of_mem_entries hinside
      · have hkept : e ∈ t'.entries := by
          rw [hold] at he
          simp only [List.mem_append] at he
          simp only [hnew, List.append_nil, List.mem_append]
          tauto
        exact absurd (Node.parent_mem_of_mem_entries hkept) (not_mem_of_mem_cut h hs ih)
  · intro hj
    refine Node.reflTransGen_of_mem_ids_self (q := q) (fun e he => ?_) hj
    exact ⟨e, by simp [hold, he], rfl, rfl⟩

include h hs in
theorem entries_of_cut : t'.entries = t.entries.filter (·.id ∉ Node.ids [cut]) := by
  have hkeep : ∀ e ∈ t'.entries, e.id ∉ Node.ids [cut] := by
    intro e he hcut
    have hmem : e.id ∈ t'.ids := Node.id_mem_of_mem_entries he
    exact not_mem_of_mem_cut h hs hcut (List.mem_cons_of_mem _ hmem)
  obtain ⟨-, -, before, after, hold, hnew⟩ := hs
  rw [hnew, List.append_nil] at hkeep
  have hbefore : before.filter (·.id ∉ Node.ids [cut]) = before :=
    List.filter_eq_self.mpr fun e he => by simpa using hkeep e (List.mem_append_left _ he)
  have hafter : after.filter (·.id ∉ Node.ids [cut]) = after :=
    List.filter_eq_self.mpr fun e he => by simpa using hkeep e (List.mem_append_right _ he)
  have hmiddle : (Node.entries q [cut]).filter (·.id ∉ Node.ids [cut]) = [] :=
    List.filter_eq_nil_iff.mpr fun e he => by simpa using Node.id_mem_of_mem_entries he
  rw [hold, hnew, List.filter_append, List.filter_append, hbefore, hmiddle, hafter]

include h hs in
theorem ids_of_cut : t'.ids = t.ids.filter (· ∉ Node.ids [cut]) := by
  rw [← map_id_entries, ← map_id_entries, entries_of_cut h hs, List.filter_map]
  rfl

include h hs in
theorem Cut.of_spliced (hoperator : t'.operator = t.operator) : Cut cut t t' where
  rootId_eq := hs.rootId_eq
  operator_eq := hoperator
  gone_iff j := by
    rw [reaches_iff_mem_cut h hs]
    have hmem : j ∈ Node.ids [cut] → j ∈ t.ids := by
      obtain ⟨-, -, before, after, hold, -⟩ := hs
      intro hj
      rw [← map_id_entries, hold]
      simp [hj]
    simp only [ids_of_cut h hs, List.mem_filter, decide_eq_true_eq]
    tauto
  ids_eq := ids_of_cut h hs
  entries_eq := entries_of_cut h hs
  under_eq p := by
    rw [under, under, entries_of_cut h hs, List.filter_filter, List.filter_filter]
    simp only [Bool.and_comm]
  size_eq := by
    have hlength := (perm_of_cut hs).length_eq
    rw [size, size, Node.sizes_eq_length, Node.sizes_eq_length, Node.sizes_eq_length]
    simp only [List.length_cons, List.length_append, ids] at hlength
    omega

end

theorem remove_operator (t : Tree) (i : NodeId) : (t.remove i).2.operator = t.operator := by
  rw [remove]
  split <;> rfl

theorem remove_success_iff (t : Tree) (i : NodeId) : (t.remove i).1 = true ↔ i ∈ t.ids := by
  rw [ids, ← Node.remove?_isSome_iff, remove]
  cases Node.remove? i t.children <;> simp

theorem remove_of_not_mem (hi : i ∉ t.ids) : t.remove i = (false, t) := by
  rcases remove_spliced t i with hsame | ⟨q, cut, t', hremove, -⟩
  · exact hsame
  · exact absurd ((remove_success_iff t i).mp (by rw [hremove])) hi

theorem remove_of_mem (h : t.Distinct) (hi : i ∈ t.ids) :
    ∃ n t', t.remove i = (true, t') ∧ t.find? i = some n ∧ Cut n t t' := by
  rcases remove_spliced t i with hsame | ⟨q, cut, t', hremove, -, hmem, hid, hs⟩
  · have hsuccess := (remove_success_iff t i).mpr hi
    rw [hsame] at hsuccess
    cases hsuccess
  · have hids := (List.nodup_cons.mp h).2
    have hoperator := remove_operator t i
    rw [hremove] at hoperator
    exact ⟨cut, t', hremove, (Node.find?_eq_some_iff hids).mpr ⟨hmem, hid⟩,
      .of_spliced h hs hoperator⟩

/-- A removal succeeds exactly for a node below the root, and then it cuts off that node with its
descendants. A failure, as for the root, changes nothing. -/
theorem remove_cuts_subtree (h : t.Distinct) (i : NodeId) :
    Attempt (i ∈ t.ids) (fun t' => ∃ n, t.find? i = some n ∧ Cut n t t') t (t.remove i) ∧
      t.remove t.rootId = (false, t) := by
  refine ⟨?_, remove_of_not_mem (List.nodup_cons.mp h).1⟩
  by_cases hi : i ∈ t.ids
  · obtain ⟨n, t', hremove, hfound, hcut⟩ := remove_of_mem h hi
    rw [hremove]
    exact .of_changed hi ⟨n, hfound, hcut⟩
  · rw [remove_of_not_mem hi]
    exact .of_failed hi

theorem remove_cuts_subtree_nested :
    let c : Condition := ⟨.equal, "amount", some (.integer 3), .constant⟩
    let t : Tree := ⟨⟨0⟩, .and,
      [.leaf ⟨1⟩ c, .group ⟨2⟩ .or [.leaf ⟨3⟩ c, .group ⟨4⟩ .not [.leaf ⟨5⟩ c], .leaf ⟨6⟩ c]],
      .counted, 7⟩
    t.Distinct ∧ (t.remove ⟨4⟩).1 = true ∧ (t.remove ⟨4⟩).2.ids = [⟨1⟩, ⟨2⟩, ⟨3⟩, ⟨6⟩] ∧
      (t.remove ⟨4⟩).2.under ⟨2⟩ = [⟨⟨3⟩, ⟨2⟩, .leaf c⟩, ⟨⟨6⟩, ⟨2⟩, .leaf c⟩] ∧
      t.remove ⟨0⟩ = (false, t) := by
  intro c t
  have hdistinct : t.Distinct := by
    simp [t, Distinct, ids, Node.ids]
  obtain ⟨hattempt, hroot⟩ := remove_cuts_subtree hdistinct ⟨4⟩
  have hsuccess := hattempt.success_iff.mpr (by simp [t, ids, Node.ids])
  obtain ⟨n, hfound, hcut⟩ := hattempt.changed hsuccess
  have hn : n = .group ⟨4⟩ .not [.leaf ⟨5⟩ c] := by
    simpa [t, find?, Node.find?] using hfound.symm
  refine ⟨hdistinct, hsuccess, ?_, ?_, hroot⟩
  · rw [hcut.ids_eq, hn]
    simp [t, ids, Node.ids]
  · rw [hcut.under_eq, hn]
    simp [t, under, entries, Node.entries, Node.ids]

end Tree

end RecordLogic.Filter
