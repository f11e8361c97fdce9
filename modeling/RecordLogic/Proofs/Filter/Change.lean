import RecordLogic.Proofs.Filter.Attempt

namespace RecordLogic.Filter

variable {i r : NodeId} {n : Node} {ns : List Node} {e : Entry} {es : List Entry}

namespace Tree

variable {t t' : Tree} {q : NodeId} {old new content : Content} {parent : Option NodeId}

theorem groupPlace?_isSome_iff (h : t.Distinct) (i : NodeId) :
    (t.groupPlace? i).isSome ↔ t.HasGroup i := by
  have hpart := groupPlace?_part h i
  rw [HasGroup, ← Option.isSome_map, hpart]
  by_cases hi : i = t.rootId
  · simp [hi]
  · cases hfound : t.find? i with
    | none => simp [hi]
    | some n =>
      have hid : n.id = i := (Node.mem_all_of_find? hfound).2
      cases n with
      | leaf j c => simp [hi, Node.isGroup]
      | group j op cs =>
        obtain rfl : j = i := hid
        simp [hi, Node.isGroup]

theorem not_hasGroup_of_groupPlace? (h : t.Distinct) (hp : t.groupPlace? i = none) :
    ¬t.HasGroup i := by
  rw [← groupPlace?_isSome_iff h, hp]
  simp

theorem attach?_appended (h : t.Distinct) (hn : ∀ q, Node.entries q [n] = [⟨i, q, content⟩])
    (hattach : t.attach? parent n = some t') :
    Appended ⟨i, parent.getD t.rootId, content⟩ t t' := by
  cases parent with
  | none =>
    cases hattach
    refine .of_entries rfl rfl (List.append_nil t.entries).symm ?_ (by simp)
    simp [entries, hn]
  | some j =>
    obtain ⟨p, hp, rfl⟩ := Option.map_eq_some_iff.mp hattach
    rw [groupPlace?] at hp
    split at hp
    · rename_i hroot
      cases hp
      refine .of_entries rfl rfl (List.append_nil t.entries).symm ?_ (by simp)
      simp [entries, Group.push, hn, hroot]
    · obtain ⟨place, hplace, rfl⟩ := Option.map_eq_some_iff.mp hp
      obtain ⟨before, after, hold, hnew, hafter⟩ := Node.groupPlace?_push_splits hplace h n
      refine .of_entries rfl rfl hold ?_ hafter
      have happended : Node.entries t.rootId (place.put (place.part.push n)) =
          before ++ ⟨i, j, content⟩ :: after := by
        simpa [hn] using hnew
      exact happended

/-- What it means to add a node under a parent, or under the root if none is given; its identity is
the next of the supply. -/
def Adds (t : Tree) (parent : Option NodeId) (content : Content) (result : Option NodeId × Tree) :
    Prop :=
  Attempt (∀ i ∈ parent, t.HasGroup i)
    (fun t' => result.1 = some (t.supply.give t.next) ∧
      Appended ⟨t.supply.give t.next, parent.getD t.rootId, content⟩ t t')
    t (result.1.isSome, result.2)

theorem add_adds (h : t.Distinct) (parent : Option NodeId) {node : NodeId → Node}
    (hnode : ∀ i q, Node.entries q [node i] = [⟨i, q, content⟩]) :
    t.Adds parent content (t.add parent node) := by
  cases hattach : t.attach? parent (node (t.supply.give t.next)) with
  | none =>
    have hadd : t.add parent node = (none, t) := by simp [add, hattach]
    rw [Adds, hadd]
    refine .of_failed fun hpossible => ?_
    cases parent with
    | none => simp [attach?] at hattach
    | some i =>
      have hp : t.groupPlace? i = none := by simpa [attach?] using hattach
      exact not_hasGroup_of_groupPlace? h hp (hpossible i rfl)
  | some t' =>
    have hadd : t.add parent node =
        (some (t.supply.give t.next), { t' with next := t.next + 1 }) := by simp [add, hattach]
    have happended := attach?_appended h (hnode _) hattach
    rw [Adds, hadd]
    refine .of_changed (fun i hi => ?_) ⟨rfl, ?_⟩
    · cases hi
      have hplace : (t.groupPlace? i).isSome := by
        obtain ⟨p, hp, -⟩ := Option.map_eq_some_iff.mp hattach
        simp [hp]
      exact (groupPlace?_isSome_iff h i).mp hplace
    · exact ⟨happended.rootId_eq, happended.operator_eq, happended.entries_eq, happended.under_eq⟩

theorem addCondition_adds (h : t.Distinct) (parent : Option NodeId) (c : Condition) :
    t.Adds parent (.leaf c) (t.addCondition parent c) :=
  add_adds h parent fun i q => by simp [Node.entries]

theorem addGroup_adds (h : t.Distinct) (parent : Option NodeId) (op : GroupOperator) :
    t.Adds parent (.group op) (t.addGroup parent op) :=
  add_adds h parent fun i q => by simp [Node.entries]

theorem updateCondition_attempt (h : t.Distinct) (i : NodeId) (u : ConditionUpdate) :
    Attempt (t.HasLeaf i)
      (fun t' => ∃ c d, t.find? i = some (.leaf i c) ∧ u.Overwrites c d ∧
        Rewritten i (.leaf d) t t')
      t (t.updateCondition i u) := by
  have hpart := t.place?_part i
  rw [updateCondition]
  split
  · rename_i j c put hp
    have hj : j = i := place?_part_id hp
    subst hj
    rw [hp] at hpart
    obtain ⟨q, hput⟩ := place?_spliced hp
    obtain ⟨-, hspliced⟩ := hput (.leaf j (c.updated u))
    have hoperator := place?_put_operator hp (.leaf j (c.updated u))
    obtain ⟨hroot, hentries⟩ := Spliced.entries_rewrite h (by simpa [Node.entries] using hspliced)
    refine .of_changed ⟨c, hpart.symm⟩ ⟨c, _, hpart.symm, c.overwrites_updated u, ?_⟩
    refine .of_entries hspliced.rootId_eq ?_ hentries
    rw [if_neg hroot, hoperator]
  · rename_i hleaf
    refine .of_failed ?_
    rintro ⟨c, hc⟩
    rw [hc] at hpart
    obtain ⟨⟨part, put⟩, hp, rfl⟩ := Option.map_eq_some_iff.mp hpart
    exact hleaf i c put hp

theorem updateGroup_attempt (h : t.Distinct) (i : NodeId) (op : GroupOperator) :
    Attempt (t.HasGroup i) (Rewritten i (.group op) t) t (t.updateGroup i op) := by
  cases hp : t.groupPlace? i with
  | none =>
    rw [updateGroup, hp]
    exact .of_failed (not_hasGroup_of_groupPlace? h hp)
  | some p =>
    rw [updateGroup, hp]
    refine .of_changed ((groupPlace?_isSome_iff h i).mp (by simp [hp])) ?_
    by_cases hi : i = t.rootId
    · subst hi
      rw [groupPlace?, if_pos rfl] at hp
      cases hp
      have hne : ∀ e ∈ t.entries, e.id ≠ t.rootId := by
        intro e he heq
        have hmem : e.id ∈ t.ids := Node.id_mem_of_mem_entries he
        exact (List.nodup_cons.mp h).1 (heq ▸ hmem)
      refine .of_entries rfl ?_ (Entry.map_rewrite_of_ne _ hne).symm
      rw [if_pos rfl]
    · have hid := groupPlace?_part_id hp
      rcases groupPlace?_spliced hp with ⟨hroot, -⟩ | ⟨q, hput⟩
      · exact absurd hroot hi
      · obtain ⟨-, hspliced⟩ := hput { p.part with operator := op }
        have hsingle : Spliced [⟨i, q, .group p.part.operator⟩] [⟨i, q, .group op⟩] t
            (p.put { p.part with operator := op }) :=
          Spliced.narrow [] (Node.entries i p.part.children)
            (by simpa [Group.toNode, Node.entries, hid] using hspliced)
        obtain ⟨-, hentries⟩ := hsingle.entries_rewrite h
        refine .of_entries hspliced.rootId_eq ?_ hentries
        rw [if_neg hi, groupPlace?_put_operator hp hi]

/-- An addition succeeds exactly below the root or a group, an update exactly at a leaf and a change
of operator exactly at the root or a group. A failure changes nothing, and a success one place. -/
theorem operations_change_one_place (h : t.Distinct) :
    (∀ parent c, t.Adds parent (.leaf c) (t.addCondition parent c)) ∧
      (∀ parent op, t.Adds parent (.group op) (t.addGroup parent op)) ∧
      (∀ i u, Attempt (t.HasLeaf i)
        (fun t' => ∃ c d, t.find? i = some (.leaf i c) ∧ u.Overwrites c d ∧
          Rewritten i (.leaf d) t t')
        t (t.updateCondition i u)) ∧
      ∀ i op, Attempt (t.HasGroup i) (Rewritten i (.group op) t) t (t.updateGroup i op) :=
  ⟨addCondition_adds h, addGroup_adds h, updateCondition_attempt h, updateGroup_attempt h⟩

theorem operations_change_one_place_nested :
    let c : Condition := ⟨.equal, "amount", some (.integer 3), .constant⟩
    let t : Tree := ⟨⟨0⟩, .and, [.group ⟨1⟩ .or [.leaf ⟨2⟩ c], .leaf ⟨3⟩ c], .counted, 4⟩
    t.Distinct ∧ t.addCondition (some ⟨2⟩) c = (none, t) ∧
      (t.addGroup (some ⟨1⟩) .not).2.under ⟨1⟩ = [⟨⟨2⟩, ⟨1⟩, .leaf c⟩, ⟨⟨4⟩, ⟨1⟩, .group .not⟩] ∧
      (t.updateCondition ⟨2⟩ { field := some "total" }).2.under ⟨1⟩ =
        [⟨⟨2⟩, ⟨1⟩, .leaf { c with field := "total" }⟩] ∧
      (t.updateGroup ⟨0⟩ .not).2.operator = .not := by
  intro c t
  have hdistinct : t.Distinct := by
    simp [t, Distinct, ids, Node.ids]
  have hunder : t.under ⟨1⟩ = [⟨⟨2⟩, ⟨1⟩, .leaf c⟩] := by
    simp [t, under, entries, Node.entries]
  obtain ⟨hcondition, hgroup, hupdate, hoperator⟩ := operations_change_one_place hdistinct
  refine ⟨hdistinct, ?_, ?_, ?_, ?_⟩
  · have hleaf : ¬∀ i ∈ some (⟨2⟩ : NodeId), t.HasGroup i := by
      simp [t, HasGroup, find?, Node.find?]
    have hfailed := (hcondition (some ⟨2⟩) c).eq_of_not hleaf
    simpa [Prod.ext_iff] using hfailed
  · have hpossible : ∀ i ∈ some (⟨1⟩ : NodeId), t.HasGroup i := by
      simp [t, HasGroup, find?, Node.find?]
    have hadds := hgroup (some ⟨1⟩) .not
    obtain ⟨-, happended⟩ := hadds.changed (hadds.success_iff.mpr hpossible)
    have hchildren := happended.under_eq ⟨1⟩
    rw [hunder] at hchildren
    simpa [t, Supply.counted] using hchildren
  · have hleaf : t.HasLeaf ⟨2⟩ := ⟨c, by simp [t, find?, Node.find?]⟩
    have hattempt := hupdate ⟨2⟩ { field := some "total" }
    obtain ⟨c', d, hfound, hoverwrites, hrewritten⟩ :=
      hattempt.changed (hattempt.success_iff.mpr hleaf)
    have hc : c' = c := by simpa [t, find?, Node.find?] using hfound.symm
    obtain ⟨hop, hfield, hvalue, hsource⟩ := hoverwrites
    have hd : d = { c with field := "total" } := by
      cases d
      simp_all
    have hchildren := hrewritten.under_eq ⟨1⟩
    rw [hunder, hd] at hchildren
    simpa [Entry.rewrite] using hchildren
  · have hroot : t.HasGroup ⟨0⟩ := Or.inl rfl
    have hattempt := hoperator ⟨0⟩ .not
    have hrewritten := hattempt.changed (hattempt.success_iff.mpr hroot)
    simpa [t] using hrewritten.root_eq

end Tree

end RecordLogic.Filter
