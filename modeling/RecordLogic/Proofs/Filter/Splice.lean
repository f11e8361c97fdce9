import RecordLogic.Filter.Edit
import RecordLogic.Proofs.Filter.Place

namespace RecordLogic.Filter

variable {i r : NodeId} {n : Node} {ns ns' : List Node}

namespace Node

theorem dropFirst?_splits (h : dropFirst? i ns = some ns') (r : NodeId) :
    ∃ before cut after, cut ∈ ns ∧ cut.id = i ∧ entries r ns = before ++ entries r [cut] ++ after ∧
      entries r ns' = before ++ after := by
  induction ns generalizing ns' with
  | nil => simp [dropFirst?] at h
  | cons n ns ih =>
    rw [dropFirst?] at h
    split at h
    · rename_i hid
      cases h
      refine ⟨[], n, entries r ns, List.mem_cons_self, hid, ?_, rfl⟩
      rw [entries_cons, List.nil_append]
    · obtain ⟨rest, hrest, rfl⟩ := Option.map_eq_some_iff.mp h
      obtain ⟨before, cut, after, hmem, hid, hold, hnew⟩ := ih hrest
      refine ⟨entries r [n] ++ before, cut, after, List.mem_cons_of_mem n hmem, hid, ?_, ?_⟩
      · rw [entries_cons, hold]
        simp
      · rw [entries_cons, hnew]
        simp

/-- A removal cuts one node with all below it out of the depth-first order. -/
theorem removeBelow?_splits (h : removeBelow? i ns = some ns') (r : NodeId) :
    ∃ before parent cut after, cut ∈ all ns ∧ cut.id = i ∧
      entries r ns = before ++ entries parent [cut] ++ after ∧
      entries r ns' = before ++ after := by
  fun_induction removeBelow? i ns generalizing ns' r with
  | case1 => simp at h
  | case2 j c ns ih =>
    obtain ⟨rest, hrest, rfl⟩ := Option.map_eq_some_iff.mp h
    obtain ⟨before, parent, cut, after, hmem, hid, hold, hnew⟩ := ih hrest r
    refine ⟨⟨j, r, .leaf c⟩ :: before, parent, cut, after, by simp [all, hmem], hid, ?_, ?_⟩
    · simp [entries, hold]
    · simp [entries, hnew]
  | case3 j op cs ns cs' hcs ih =>
    cases h
    have hinner : ∃ before parent cut after, cut ∈ all cs ∧ cut.id = i ∧
        entries j cs = before ++ entries parent [cut] ++ after ∧
        entries j cs' = before ++ after := by
      rcases Option.or_eq_some_iff.mp hcs with hdrop | ⟨-, hbelow⟩
      · obtain ⟨before, cut, after, hmem, hcut⟩ := dropFirst?_splits hdrop j
        exact ⟨before, j, cut, after, mem_all_of_mem hmem, hcut⟩
      · exact ih hbelow j
    obtain ⟨before, parent, cut, after, hmem, hid, hold, hnew⟩ := hinner
    refine ⟨⟨j, r, .group op⟩ :: before, parent, cut, after ++ entries r ns,
      by simp [all, hmem], hid, ?_, ?_⟩
    · simp [entries, hold]
    · simp [entries, hnew]
  | case4 j op cs ns hcs ihc ihn =>
    obtain ⟨rest, hrest, rfl⟩ := Option.map_eq_some_iff.mp h
    obtain ⟨before, parent, cut, after, hmem, hid, hold, hnew⟩ := ihn hrest r
    refine ⟨entries r [group j op cs] ++ before, parent, cut, after, by simp [all, hmem], hid,
      ?_, ?_⟩
    · rw [entries_cons, hold]
      simp
    · rw [entries_cons, hnew]
      simp

theorem remove?_splits (h : remove? i ns = some ns') (r : NodeId) :
    ∃ before parent cut after, cut ∈ all ns ∧ cut.id = i ∧
      entries r ns = before ++ entries parent [cut] ++ after ∧
      entries r ns' = before ++ after := by
  rcases Option.or_eq_some_iff.mp h with hdrop | ⟨-, hbelow⟩
  · obtain ⟨before, cut, after, hmem, hcut⟩ := dropFirst?_splits hdrop r
    exact ⟨before, r, cut, after, mem_all_of_mem hmem, hcut⟩
  · exact removeBelow?_splits hbelow r

end Node

namespace Tree

variable {t t' : Tree} {old new : List Entry} {parent : Option NodeId}

/-- The entries of all nodes below the root in depth-first order. -/
def entries (t : Tree) : List Entry :=
  Node.entries t.rootId t.children

@[simp]
theorem map_id_entries (t : Tree) : t.entries.map Entry.id = t.ids :=
  Node.map_id_entries t.rootId t.children

/-- From one tree to another some entries in a row gave way to others. The root keeps its identity
and the supply stays the same. -/
structure Spliced (old new : List Entry) (t t' : Tree) : Prop where
  rootId_eq : t'.rootId = t.rootId
  supply_eq : t'.supply = t.supply
  entries_eq : ∃ before after, t.entries = before ++ old ++ after ∧
    t'.entries = before ++ new ++ after

namespace Spliced

theorem refl (t : Tree) : Spliced [] [] t t :=
  ⟨rfl, rfl, t.entries, [], by simp, by simp⟩

/-- Entries that stand on both sides alike were not touched. -/
theorem narrow (before after : List Entry)
    (h : Spliced (before ++ old ++ after) (before ++ new ++ after) t t') :
    Spliced old new t t' := by
  obtain ⟨hroot, hsupply, first, last, hold, hnew⟩ := h
  exact ⟨hroot, hsupply, first ++ before, after ++ last, by simp [hold], by simp [hnew]⟩

end Spliced

theorem place?_part_id {p : Place Node Tree} (h : t.place? i = some p) : p.part.id = i := by
  obtain ⟨q, hq, rfl⟩ := Option.map_eq_some_iff.mp h
  exact (Node.reached_of_place? hq).part_id

/-- The search for a place to change ends at the node that is found. -/
theorem place?_part (t : Tree) (i : NodeId) : (t.place? i).map Place.part = t.find? i := by
  rw [place?, Option.map_map, find?, ← Node.place?_part]
  rfl

theorem place?_put_part {p : Place Node Tree} (h : t.place? i = some p) : p.put p.part = t := by
  obtain ⟨q, hq, rfl⟩ := Option.map_eq_some_iff.mp h
  simp [Place.within, (Node.reached_of_place? hq).put_part]

theorem place?_put {p : Place Node Tree} (h : t.place? i = some p) (hn : n.id = i) :
    (p.put n).place? i = some ⟨n, p.put⟩ := by
  obtain ⟨q, hq, rfl⟩ := Option.map_eq_some_iff.mp h
  rw [place?, Place.within, Node.place?_put hq hn]
  rfl

theorem place?_put_operator {p : Place Node Tree} (h : t.place? i = some p) (n : Node) :
    (p.put n).operator = t.operator := by
  obtain ⟨q, hq, rfl⟩ := Option.map_eq_some_iff.mp h
  rfl

theorem place?_spliced {p : Place Node Tree} (h : t.place? i = some p) :
    ∃ parent, ∀ m, (p.put m).next = t.next ∧
      Spliced (Node.entries parent [p.part]) (Node.entries parent [m]) t (p.put m) := by
  obtain ⟨q, hq, rfl⟩ := Option.map_eq_some_iff.mp h
  have hreached := Node.reached_of_place? hq
  obtain ⟨before, parent, after, hsplit⟩ := hreached.splits t.rootId
  refine ⟨parent, fun m => ⟨rfl, rfl, rfl, before, after, ?_, hsplit m⟩⟩
  have hold := hsplit q.part
  rwa [hreached.put_part] at hold

theorem groupPlace?_part_id {p : Place Group Tree} (h : t.groupPlace? i = some p) :
    p.part.id = i := by
  rw [groupPlace?] at h
  split at h
  · rename_i hroot
    cases h
    exact hroot
  · obtain ⟨q, hq, rfl⟩ := Option.map_eq_some_iff.mp h
    exact (Node.reached_of_groupPlace? hq).part_id

/-- The search for a group ends at that node too, unless it is a leaf; the root comes first. -/
theorem groupPlace?_part (hnd : (t.rootId :: t.ids).Nodup) (i : NodeId) :
    (t.groupPlace? i).map (·.part.toNode) =
      if i = t.rootId then some t.root else (t.find? i).filter Node.isGroup := by
  rw [groupPlace?]
  by_cases hi : t.rootId = i
  · rw [if_pos hi, if_pos hi.symm]
    rfl
  · have hids := (List.nodup_cons.mp hnd).2
    rw [if_neg hi, if_neg (Ne.symm hi), Option.map_map, find?, ← Node.groupPlace?_part hids]
    rfl

theorem groupPlace?_put_part {p : Place Group Tree} (h : t.groupPlace? i = some p) :
    p.put p.part = t := by
  rw [groupPlace?] at h
  split at h
  · cases h
    rfl
  · obtain ⟨q, hq, rfl⟩ := Option.map_eq_some_iff.mp h
    simp [Place.within, (Node.reached_of_groupPlace? hq).put_part]

theorem groupPlace?_put {p : Place Group Tree} {g : Group} (h : t.groupPlace? i = some p)
    (hg : g.id = i) : (p.put g).groupPlace? i = some ⟨g, p.put⟩ := by
  rw [groupPlace?] at h
  split at h
  · cases h
    subst hg
    simp [groupPlace?]
  · rename_i hroot
    obtain ⟨q, hq, rfl⟩ := Option.map_eq_some_iff.mp h
    rw [groupPlace?, Place.within, if_neg hroot, Node.groupPlace?_put hq hg]
    rfl

theorem groupPlace?_put_operator {p : Place Group Tree} (h : t.groupPlace? i = some p)
    (hi : i ≠ t.rootId) (g : Group) : (p.put g).operator = t.operator := by
  rw [groupPlace?, if_neg (Ne.symm hi)] at h
  obtain ⟨q, hq, rfl⟩ := Option.map_eq_some_iff.mp h
  rfl

/-- A group is the root, which has no entry of its own, or it has one before those below it. -/
theorem groupPlace?_spliced {p : Place Group Tree} (h : t.groupPlace? i = some p) :
    (i = t.rootId ∧ ∀ g, g.id = i → (p.put g).next = t.next ∧
      Spliced (Node.entries i p.part.children) (Node.entries i g.children) t (p.put g)) ∨
    ∃ parent, ∀ g, (p.put g).next = t.next ∧
      Spliced (Node.entries parent [p.part.toNode]) (Node.entries parent [g.toNode]) t
        (p.put g) := by
  rw [groupPlace?] at h
  split at h
  · rename_i hroot
    cases h
    refine Or.inl ⟨hroot.symm, fun g hg => ⟨rfl, hg.trans hroot.symm, rfl, [], [], ?_, ?_⟩⟩
    · simp [entries, hroot]
    · simp [entries, hg]
  · obtain ⟨q, hq, rfl⟩ := Option.map_eq_some_iff.mp h
    have hreached := Node.reached_of_groupPlace? hq
    obtain ⟨before, parent, after, hsplit⟩ := hreached.splits t.rootId
    refine Or.inr ⟨parent, fun g => ⟨rfl, rfl, rfl, before, after, ?_, hsplit g⟩⟩
    have hold := hsplit q.part
    rwa [hreached.put_part] at hold

/-- A node that finds its parent comes last below it; nothing else changes. -/
theorem attach?_spliced (h : t.attach? parent n = some t') :
    t'.next = t.next ∧ ∃ q, Spliced [] (Node.entries q [n]) t t' := by
  cases parent with
  | none =>
    cases h
    exact ⟨rfl, t.rootId, rfl, rfl, t.entries, [], by simp, by simp [entries]⟩
  | some i =>
    obtain ⟨p, hp, rfl⟩ := Option.map_eq_some_iff.mp h
    have hid := groupPlace?_part_id hp
    rcases groupPlace?_spliced hp with ⟨-, hput⟩ | ⟨q, hput⟩
    · obtain ⟨hnext, hspliced⟩ := hput (p.part.push n) hid
      refine ⟨hnext, i, Spliced.narrow (Node.entries i p.part.children) [] ?_⟩
      simpa [Group.push] using hspliced
    · obtain ⟨hnext, hspliced⟩ := hput (p.part.push n)
      refine ⟨hnext, p.part.id, Spliced.narrow (Node.entries q [p.part.toNode]) [] ?_⟩
      simpa [Group.push, Group.toNode, Node.entries] using hspliced

theorem add_spliced (t : Tree) (parent : Option NodeId) (node : NodeId → Node) :
    t.add parent node = (none, t) ∨ ∃ q t', t.add parent node = (some (t.supply.give t.next), t') ∧
      t'.next = t.next + 1 ∧
      Spliced [] (Node.entries q [node (t.supply.give t.next)]) t t' := by
  cases hattach : t.attach? parent (node (t.supply.give t.next)) with
  | none => exact Or.inl (by simp [add, hattach])
  | some t' =>
    obtain ⟨hnext, q, hspliced⟩ := attach?_spliced hattach
    refine Or.inr ⟨q, { t' with next := t.next + 1 }, by simp [add, hattach], rfl, ?_⟩
    exact ⟨hspliced.rootId_eq, hspliced.supply_eq, hspliced.entries_eq⟩

theorem updateCondition_spliced (t : Tree) (i : NodeId) (u : ConditionUpdate) :
    t.updateCondition i u = (false, t) ∨ ∃ q c t', t.updateCondition i u = (true, t') ∧
      t'.next = t.next ∧
      Spliced [⟨i, q, .leaf c⟩] [⟨i, q, .leaf (c.updated u)⟩] t t' := by
  rw [updateCondition]
  split
  · rename_i j c put hp
    obtain ⟨q, hput⟩ := place?_spliced hp
    obtain ⟨hnext, hspliced⟩ := hput (.leaf j (c.updated u))
    have hid : j = i := place?_part_id hp
    refine Or.inr ⟨q, c, _, rfl, hnext, ?_⟩
    simpa [Node.entries, hid] using hspliced
  · exact Or.inl rfl

theorem updateGroup_spliced (t : Tree) (i : NodeId) (operator : GroupOperator) :
    t.updateGroup i operator = (false, t) ∨ ∃ t', t.updateGroup i operator = (true, t') ∧
      t'.next = t.next ∧ (Spliced [] [] t t' ∨
        ∃ q op, Spliced [⟨i, q, .group op⟩] [⟨i, q, .group operator⟩] t t') := by
  rw [updateGroup]
  split
  · rename_i p hp
    refine Or.inr ⟨_, rfl, ?_⟩
    rcases groupPlace?_spliced hp with ⟨-, hput⟩ | ⟨q, hput⟩
    · obtain ⟨hnext, hspliced⟩ := hput { p.part with operator } (groupPlace?_part_id hp)
      refine ⟨hnext, Or.inl ?_⟩
      exact Spliced.narrow (Node.entries i p.part.children) [] (by simpa using hspliced)
    · obtain ⟨hnext, hspliced⟩ := hput { p.part with operator }
      have hid := groupPlace?_part_id hp
      refine ⟨hnext, Or.inr ⟨q, p.part.operator, ?_⟩⟩
      exact Spliced.narrow [] (Node.entries i p.part.children)
        (by simpa [Group.toNode, Node.entries, hid] using hspliced)
  · exact Or.inl rfl

theorem remove_spliced (t : Tree) (i : NodeId) :
    t.remove i = (false, t) ∨ ∃ q cut t', t.remove i = (true, t') ∧ t'.next = t.next ∧
      cut ∈ Node.all t.children ∧ cut.id = i ∧ Spliced (Node.entries q [cut]) [] t t' := by
  rw [remove]
  split
  · rename_i children h
    obtain ⟨before, q, cut, after, hmem, hid, hold, hnew⟩ := Node.remove?_splits h t.rootId
    refine Or.inr ⟨q, cut, _, rfl, rfl, hmem, hid, rfl, rfl, before, after, hold, ?_⟩
    simp [entries, hnew]
  · exact Or.inl rfl

/-- Everything that an edit can do: which entries give way to which, and whether an identity is
given out. An edit that names no suitable node does nothing, nor does one of the root, which has no
entry. -/
inductive Effect (t t' : Tree) : Edit → List Entry → List Entry → Prop where
  | nothing {e : Edit} (hnext : t'.next = t.next) : Effect t t' e [] []
  | addedLeaf {p : Option NodeId} {c : Condition} (q : NodeId) (hnext : t'.next = t.next + 1) :
      Effect t t' (.addCondition p c) [] [⟨t.supply.give t.next, q, .leaf c⟩]
  | addedGroup {p : Option NodeId} {op : GroupOperator} (q : NodeId)
      (hnext : t'.next = t.next + 1) :
      Effect t t' (.addGroup p op) [] [⟨t.supply.give t.next, q, .group op⟩]
  | updatedLeaf {i : NodeId} {u : ConditionUpdate} (q : NodeId) (c : Condition)
      (hnext : t'.next = t.next) :
      Effect t t' (.updateCondition i u) [⟨i, q, .leaf c⟩] [⟨i, q, .leaf (c.updated u)⟩]
  | updatedGroup {i : NodeId} {op : GroupOperator} (q : NodeId) (before : GroupOperator)
      (hnext : t'.next = t.next) :
      Effect t t' (.updateGroup i op) [⟨i, q, .group before⟩] [⟨i, q, .group op⟩]
  | cut {i : NodeId} (q : NodeId) (n : Node) (hid : n.id = i) (hnext : t'.next = t.next) :
      Effect t t' (.remove i) (Node.entries q [n]) []
  | cleared (hnext : t'.next = t.next) : Effect t t' .clear t.entries []

theorem edit_effect (t : Tree) (e : Edit) :
    ∃ old new, Spliced old new t (t.edit e) ∧ Effect t (t.edit e) e old new := by
  cases e with
  | addCondition parent c =>
    rcases add_spliced t parent (.leaf · c) with hnone | ⟨q, t', hadd, hnext, hs⟩
    · rw [edit, addCondition, hnone]
      exact ⟨[], [], .refl t, .nothing rfl⟩
    · rw [edit, addCondition, hadd]
      exact ⟨_, _, hs, by simpa [Node.entries] using .addedLeaf q hnext⟩
  | addGroup parent operator =>
    rcases add_spliced t parent (.group · operator []) with hnone | ⟨q, t', hadd, hnext, hs⟩
    · rw [edit, addGroup, hnone]
      exact ⟨[], [], .refl t, .nothing rfl⟩
    · rw [edit, addGroup, hadd]
      exact ⟨_, _, hs, by simpa [Node.entries] using .addedGroup q hnext⟩
  | updateCondition target u =>
    rcases updateCondition_spliced t target u with hsame | ⟨q, c, t', hupdate, hnext, hs⟩
    · rw [edit, hsame]
      exact ⟨[], [], .refl t, .nothing rfl⟩
    · rw [edit, hupdate]
      exact ⟨_, _, hs, .updatedLeaf q c hnext⟩
  | updateGroup target operator =>
    rcases updateGroup_spliced t target operator with hsame | ⟨t', hupdate, hnext, hs⟩
    · rw [edit, hsame]
      exact ⟨[], [], .refl t, .nothing rfl⟩
    · rw [edit, hupdate]
      rcases hs with hs | ⟨q, before, hs⟩
      · exact ⟨[], [], hs, .nothing hnext⟩
      · exact ⟨_, _, hs, .updatedGroup q before hnext⟩
  | remove target =>
    rcases remove_spliced t target with hsame | ⟨q, cut, t', hremove, hnext, -, hid, hs⟩
    · rw [edit, hsame]
      exact ⟨[], [], .refl t, .nothing rfl⟩
    · rw [edit, hremove]
      exact ⟨_, _, hs, .cut q cut hid hnext⟩
  | clear =>
    exact ⟨t.entries, [], ⟨rfl, rfl, [], [], by simp, by simp [entries, edit, clear, Node.entries]⟩,
      .cleared rfl⟩
  | setRootOperator operator =>
    exact ⟨[], [], ⟨rfl, rfl, t.entries, [], by simp, by simp [entries, edit, withOperator]⟩,
      .nothing rfl⟩

end Tree

end RecordLogic.Filter
