import RecordLogic.Proofs.Filter.Stale

namespace RecordLogic.Filter

variable {i j r : NodeId} {is js : List NodeId} {n : Node} {ns ns' : List Node}

namespace Node

/-- The nodes that are left, at any depth, when those with a listed identity are taken out together
with all below them. -/
def without (is : List NodeId) : List Node → List Node
  | [] => []
  | leaf i c :: ns =>
    let rest := without is ns
    if i ∈ is then rest else leaf i c :: rest
  | group i op cs :: ns =>
    let rest := without is ns
    if i ∈ is then rest else group i op (without is cs) :: rest

theorem without_cons (is : List NodeId) (n : Node) (ns : List Node) :
    without is (n :: ns) = without is [n] ++ without is ns := by
  cases n with
  | leaf i c => by_cases hi : i ∈ is <;> simp [without, hi]
  | group i op cs => by_cases hi : i ∈ is <;> simp [without, hi]

theorem without_cons_of_mem (h : n.id ∈ is) (ns : List Node) :
    without is (n :: ns) = without is ns := by
  cases n with
  | leaf i c =>
    have hi : i ∈ is := h
    simp [without, hi]
  | group i op cs =>
    have hi : i ∈ is := h
    simp [without, hi]

theorem without_of_disjoint (h : ∀ i ∈ ids ns, i ∉ is) : without is ns = ns := by
  fun_induction ids ns with
  | case1 => rw [without]
  | case2 i c ns ih =>
    have hi : i ∉ is := h i (by simp)
    have hrest : without is ns = ns := ih fun j hj => h j (by simp [hj])
    simp [without, hi, hrest]
  | case3 i op cs ns ihc ihn =>
    have hi : i ∉ is := h i (by simp)
    have hinner : without is cs = cs := ihc fun j hj => h j (by simp [hj])
    have hrest : without is ns = ns := ihn fun j hj => h j (by simp [hj])
    simp [without, hi, hinner, hrest]

theorem without_of_not_mem (h : i ∉ ids ns) : without [i] ns = ns := by
  apply without_of_disjoint
  intro j hj hji
  exact h (List.mem_singleton.mp hji ▸ hj)

/-- Only which identities are listed counts, not their order or how often they are. -/
theorem without_congr (h : ∀ i, i ∈ is ↔ i ∈ js) (ns : List Node) :
    without is ns = without js ns := by
  fun_induction ids ns with
  | case1 => rw [without, without]
  | case2 i c ns ih => simp [without, h, ih]
  | case3 i op cs ns ihc ihn => simp [without, h, ihc, ihn]

theorem without_without (is js : List NodeId) (ns : List Node) :
    without is (without js ns) = without (js ++ is) ns := by
  fun_induction ids ns with
  | case1 => simp [without]
  | case2 i c ns ih =>
    by_cases hj : i ∈ js
    · simp [without, hj, ih]
    · by_cases hi : i ∈ is <;> simp [without, hj, hi, ih]
  | case3 i op cs ns ihc ihn =>
    by_cases hj : i ∈ js
    · simp [without, hj, ihn]
    · by_cases hi : i ∈ is <;> simp [without, hj, hi, ihc, ihn]

theorem entries_without_sublist (is : List NodeId) (r : NodeId) (ns : List Node) :
    (entries r (without is ns)).Sublist (entries r ns) := by
  fun_induction entries r ns with
  | case1 => simp [without, entries]
  | case2 r i c ns ih =>
    by_cases hi : i ∈ is
    · simpa [without, hi] using ih.cons _
    · simpa [without, hi, entries] using ih
  | case3 r i op cs ns ihc ihn =>
    by_cases hi : i ∈ is
    · simpa [without, hi] using (ihn.trans (List.sublist_append_right _ _)).cons _
    · simpa [without, hi, entries] using ihc.append ihn

theorem ids_without_sublist (is : List NodeId) (ns : List Node) :
    (ids (without is ns)).Sublist (ids ns) := by
  have hentries := (entries_without_sublist is ⟨0⟩ ns).map Entry.id
  rwa [map_id_entries, map_id_entries] at hentries

/-- Where identities do not repeat, a node that is found in the first node is not looked for behind
it. -/
theorem without_cons_of_first (hnd : (ids (n :: ns)).Nodup) (hi : i ∈ ids [n]) :
    without [i] (n :: ns) = without [i] [n] ++ ns := by
  rw [ids_cons] at hnd
  have hrest : i ∉ ids ns := List.disjoint_of_nodup_append hnd hi
  rw [without_cons, without_of_not_mem hrest]

/-- One that is found behind the first node leaves the first node as it is. -/
theorem without_cons_of_later (hnd : (ids (n :: ns)).Nodup) (hi : i ∈ ids ns) :
    without [i] (n :: ns) = n :: without [i] ns := by
  rw [ids_cons] at hnd
  have hfirst : i ∉ ids [n] := fun hmem => List.disjoint_of_nodup_append hnd hmem hi
  rw [without_cons, without_of_not_mem hfirst, List.singleton_append]

theorem mem_ids_of_dropFirst? (h : dropFirst? i ns = some ns') : i ∈ ids ns := by
  rw [← remove?_isSome_iff, remove?, h]
  rfl

theorem mem_ids_of_removeBelow? (h : removeBelow? i ns = some ns') : i ∈ ids ns := by
  rw [← remove?_isSome_iff, remove?, h]
  cases dropFirst? i ns <;> rfl

theorem dropFirst?_eq_without (hnd : (ids ns).Nodup) (h : dropFirst? i ns = some ns') :
    ns' = without [i] ns := by
  induction ns generalizing ns' with
  | nil => simp [dropFirst?] at h
  | cons n ns ih =>
    rw [dropFirst?] at h
    split at h
    · rename_i hid
      cases h
      have hnone : without [i] [n] = [] := by
        rw [without_cons_of_mem (by simp [hid]), without]
      rw [without_cons_of_first hnd (hid ▸ id_mem_ids n), hnone, List.nil_append]
    · obtain ⟨rest, hrest, rfl⟩ := Option.map_eq_some_iff.mp h
      rw [without_cons_of_later hnd (mem_ids_of_dropFirst? hrest)]
      rw [ids_cons] at hnd
      rw [ih (List.nodup_append.mp hnd).2.1 hrest]

/-- A removal from below a node searches each level first, but finds the same node. -/
theorem removeBelow?_eq_without (hnd : (ids ns).Nodup) (h : removeBelow? i ns = some ns') :
    ns' = without [i] ns := by
  fun_induction removeBelow? i ns generalizing ns' with
  | case1 => simp at h
  | case2 j c ns ih =>
    obtain ⟨rest, hrest, rfl⟩ := Option.map_eq_some_iff.mp h
    rw [without_cons_of_later hnd (mem_ids_of_removeBelow? hrest)]
    rw [ids, List.nodup_cons] at hnd
    rw [ih hnd.2 hrest]
  | case3 j op cs ns cs' hcs ih =>
    cases h
    have hsplit := hnd
    rw [ids, List.nodup_cons, List.nodup_append] at hsplit
    obtain ⟨hj, hinner, -⟩ := hsplit
    have hcut : i ∈ ids cs ∧ cs' = without [i] cs := by
      rcases Option.or_eq_some_iff.mp hcs with hdrop | ⟨-, hbelow⟩
      · exact ⟨mem_ids_of_dropFirst? hdrop, dropFirst?_eq_without hinner hdrop⟩
      · exact ⟨mem_ids_of_removeBelow? hbelow, ih hinner hbelow⟩
    obtain ⟨hmem, rfl⟩ := hcut
    have hji : j ≠ i := by
      rintro rfl
      exact hj (List.mem_append_left _ hmem)
    rw [without_cons_of_first hnd (by simp [ids, hmem])]
    simp [without, hji]
  | case4 j op cs ns hcs ihc ihn =>
    obtain ⟨rest, hrest, rfl⟩ := Option.map_eq_some_iff.mp h
    rw [without_cons_of_later hnd (mem_ids_of_removeBelow? hrest)]
    rw [ids, List.nodup_cons, List.nodup_append] at hnd
    rw [ihn hnd.2.2.1 hrest]

/-- A listed node has the identity or holds it below itself. -/
def Covered (is : List NodeId) (ns : List Node) (j : NodeId) : Prop :=
  ∃ n ∈ all ns, n.id ∈ is ∧ j ∈ ids [n]

theorem covered_leaf (i : NodeId) (c : Condition) (ns : List Node) :
    Covered is (leaf i c :: ns) j ↔ (i ∈ is ∧ j = i) ∨ Covered is ns j := by
  simp [Covered, all, Node.id, ids]

theorem covered_group (i : NodeId) (op : GroupOperator) (cs ns : List Node) :
    Covered is (group i op cs :: ns) j ↔
      (i ∈ is ∧ (j = i ∨ j ∈ ids cs)) ∨ Covered is cs j ∨ Covered is ns j := by
  simp [Covered, all, Node.id, ids, or_and_right, exists_or]

theorem mem_ids_of_covered (h : Covered is ns j) : j ∈ ids ns := by
  fun_induction ids ns with
  | case1 => simp [Covered, all] at h
  | case2 i c ns ih =>
    rw [covered_leaf] at h
    rw [List.mem_cons]
    exact h.imp And.right ih
  | case3 i op cs ns ihc ihn =>
    rw [covered_group] at h
    rw [List.mem_cons, List.mem_append]
    rcases h with ⟨-, h⟩ | h | h
    · exact h.imp_right Or.inl
    · exact Or.inr (Or.inl (ihc h))
    · exact Or.inr (Or.inr (ihn h))

/-- Where identities do not repeat, one is left exactly if no listed node covers it. -/
theorem mem_ids_without_iff (hnd : (ids ns).Nodup) (j : NodeId) :
    j ∈ ids (without is ns) ↔ j ∈ ids ns ∧ ¬Covered is ns j := by
  fun_induction ids ns with
  | case1 => simp [without, ids]
  | case2 i c ns ih =>
    obtain ⟨hfresh, hrest⟩ := List.nodup_cons.mp hnd
    have hbelow : Covered is ns j → j ∈ ids ns := mem_ids_of_covered
    rw [covered_leaf]
    by_cases hi : i ∈ is
    · rw [without_cons_of_mem (show (leaf i c).id ∈ is from hi), ih hrest]
      grind
    · simp only [without, hi, if_false, ids, List.mem_cons, ih hrest]
      grind
  | case3 i op cs ns ihc ihn =>
    obtain ⟨hfresh, hnd⟩ := List.nodup_cons.mp hnd
    obtain ⟨hinner, hrest, hapart⟩ := List.nodup_append.mp hnd
    have hbelow : Covered is cs j → j ∈ ids cs := mem_ids_of_covered
    have hbehind : Covered is ns j → j ∈ ids ns := mem_ids_of_covered
    rw [covered_group]
    by_cases hi : i ∈ is
    · rw [without_cons_of_mem (show (group i op cs).id ∈ is from hi), ihn hrest]
      grind
    · simp only [without, hi, if_false, ids, List.mem_cons, List.mem_append, ihc hinner,
        ihn hrest]
      grind

end Node

namespace Tree

variable {t t' : Tree}

/-- The tree without the nodes below the root that have a listed identity, and without all below
them. -/
def without (is : List NodeId) (t : Tree) : Tree :=
  { t with children := Node.without is t.children }

theorem entries_without_sublist (is : List NodeId) (t : Tree) :
    (t.without is).entries.Sublist t.entries :=
  Node.entries_without_sublist is t.rootId t.children

theorem Distinct.without (h : t.Distinct) (is : List NodeId) : (t.without is).Distinct :=
  List.Nodup.sublist ((Node.ids_without_sublist is t.children).cons_cons t.rootId) h

theorem without_nil (t : Tree) : t.without [] = t := by
  have hchildren : Node.without [] t.children = t.children :=
    Node.without_of_disjoint (by simp)
  rw [Tree.without, hchildren]

theorem without_without (is js : List NodeId) (t : Tree) :
    (t.without is).without js = t.without (is ++ js) := by
  simp only [Tree.without, Node.without_without]

theorem without_congr (h : ∀ i, i ∈ is ↔ i ∈ js) (t : Tree) : t.without is = t.without js := by
  simp only [Tree.without, Node.without_congr h]

theorem remove_eq_without (h : t.Distinct) (i : NodeId) : (t.remove i).2 = t.without [i] := by
  have hids := (List.nodup_cons.mp h).2
  rw [remove]
  split
  · rename_i ns' hremove
    have hchildren : ns' = Node.without [i] t.children := by
      rcases Option.or_eq_some_iff.mp hremove with hdrop | ⟨-, hbelow⟩
      · exact Node.dropFirst?_eq_without hids hdrop
      · exact Node.removeBelow?_eq_without hids hbelow
    rw [hchildren, Tree.without]
  · rename_i hnone
    have hi : i ∉ Node.ids t.children := by
      rw [← Node.remove?_isSome_iff, hnone]
      simp
    rw [Tree.without, Node.without_of_not_mem hi]

/-- Removals one after the other take out what is listed, whether or not an earlier one took a
listed node away already. -/
theorem run_remove_eq_without (h : t.Distinct) (is : List NodeId) :
    t.run (is.map .remove) = t.without is := by
  induction is generalizing t with
  | nil =>
    rw [without_nil]
    rfl
  | cons i is ih =>
    have hstep : t.run ((i :: is).map .remove) = (t.remove i).2.run (is.map .remove) := rfl
    rw [hstep, remove_eq_without h, ih (h.without [i]), without_without, List.singleton_append]

theorem reaches_iff_of_find? (h : t.Distinct) (hn : t.find? i = some n) (j : NodeId) :
    t.Reaches i j ↔ j ∈ Node.ids [n] := by
  obtain ⟨hmem, rfl⟩ := Node.mem_all_of_find? hn
  obtain ⟨m, t', -, hm, hcut⟩ := remove_of_mem h (mem_ids_of_find? hn)
  obtain rfl : n = m := Option.some.inj (hn.symm.trans hm)
  have hsub : j ∈ Node.ids [n] → j ∈ t.ids := by
    intro hj
    have hcovered : Node.Covered [n.id] t.children j := ⟨n, hmem, List.mem_singleton_self _, hj⟩
    exact Node.mem_ids_of_covered hcovered
  rw [← hcut.gone_iff, hcut.ids_eq]
  simp only [List.mem_filter, decide_eq_true_eq]
  tauto

/-- The identity belongs to a listed node or to a descendant of one. The root is no node that can be
listed. -/
def Listed (t : Tree) (is : List NodeId) (j : NodeId) : Prop :=
  ∃ i ∈ is, i ∈ t.ids ∧ t.Reaches i j

theorem listed_iff (h : t.Distinct) (is : List NodeId) (j : NodeId) :
    t.Listed is j ↔ Node.Covered is t.children j := by
  have hids := (List.nodup_cons.mp h).2
  constructor
  · rintro ⟨i, hi, hmem, hreaches⟩
    have hfound := (Node.find?_isSome_iff i t.children).mpr hmem
    obtain ⟨n, hn⟩ := Option.isSome_iff_exists.mp hfound
    obtain ⟨hall, rfl⟩ := Node.mem_all_of_find? hn
    exact ⟨n, hall, hi, (reaches_iff_of_find? h hn j).mp hreaches⟩
  · rintro ⟨n, hall, hi, hj⟩
    have hn : t.find? n.id = some n := Node.find?_of_mem_all hids hall
    exact ⟨n.id, hi, mem_ids_of_find? hn, (reaches_iff_of_find? h hn j).mpr hj⟩

/-- The second tree is the first without the listed nodes and their descendants, and without these
alone: all that is left stands in the old order, with its parent and its content. -/
structure Missing (is : List NodeId) (t t' : Tree) : Prop where
  rootId_eq : t'.rootId = t.rootId
  operator_eq : t'.operator = t.operator
  mem_ids_iff : ∀ j, j ∈ t'.ids ↔ j ∈ t.ids ∧ ¬t.Listed is j
  entries_sublist : t'.entries.Sublist t.entries

theorem missing_without (h : t.Distinct) (is : List NodeId) : Missing is t (t.without is) where
  rootId_eq := rfl
  operator_eq := rfl
  mem_ids_iff j := by
    rw [listed_iff h]
    exact Node.mem_ids_without_iff (List.nodup_cons.mp h).2 j
  entries_sublist := entries_without_sublist is t

end Tree

end RecordLogic.Filter
