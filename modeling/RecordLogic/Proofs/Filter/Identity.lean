import RecordLogic.Proofs.Filter.Splice

namespace RecordLogic.Filter.Tree

variable {t t' : Tree} {old new : List Entry} {e : Entry}

/-- What every single edit keeps is kept by any row of edits. -/
theorem run_induction {P : Tree → Prop} (hedit : ∀ t e, P t → P (t.edit e)) (h : P t)
    (edits : List Edit) : P (t.run edits) := by
  induction edits generalizing t with
  | nil => exact h
  | cons e edits ih => exact ih (hedit t e h)

/-- All identities in a tree are different, and the supply gave them out. -/
structure Issued (t : Tree) : Prop where
  nodup : (t.rootId :: t.ids).Nodup
  given : ∀ i ∈ t.rootId :: t.ids, ∃ k < t.next, t.supply.give k = i

namespace Issued

theorem fresh (h : t.Issued) : t.supply.give t.next ∉ t.rootId :: t.ids := by
  intro hmem
  obtain ⟨k, hk, hgive⟩ := h.given _ hmem
  have heq := t.supply.give_injective hgive
  omega

theorem of_new (operator : GroupOperator) (start : Nat) (supply : Supply) :
    (Tree.new operator start supply).Issued := by
  refine ⟨?_, fun i hi => ?_⟩
  · simp [Tree.new, ids, Node.ids]
  · simp only [Tree.new, ids, Node.ids, List.mem_singleton] at hi
    exact ⟨start, Nat.lt_succ_self start, hi.symm⟩

/-- No edit but an addition brings in an identity. -/
theorem of_kept (h : t.Issued) (hs : Spliced old new t t')
    (hsub : (new.map Entry.id).Sublist (old.map Entry.id)) (hnext : t'.next = t.next) :
    t'.Issued := by
  obtain ⟨hroot, hsupply, before, after, hold, hnew⟩ := hs
  have hids : (t'.rootId :: t'.ids).Sublist (t.rootId :: t.ids) := by
    rw [hroot, ← map_id_entries t, ← map_id_entries t', hold, hnew]
    simp only [List.map_append]
    exact (((List.Sublist.refl _).append hsub).append (List.Sublist.refl _)).cons_cons _
  refine ⟨h.nodup.sublist hids, fun i hi => ?_⟩
  rw [hnext, hsupply]
  exact h.given i (hids.subset hi)

/-- An added node has an identity that no other node has. -/
theorem of_added (h : t.Issued) (hs : Spliced [] [e] t t') (he : e.id = t.supply.give t.next)
    (hnext : t'.next = t.next + 1) : t'.Issued := by
  obtain ⟨hroot, hsupply, before, after, hold, hnew⟩ := hs
  have hids : (t'.rootId :: t'.ids).Perm (t.supply.give t.next :: t.rootId :: t.ids) := by
    rw [hroot, ← map_id_entries t, ← map_id_entries t', hold, hnew]
    simp only [List.map_append, List.map_cons, List.map_nil, List.append_nil, ← he]
    have hmiddle : (before.map Entry.id ++ [e.id] ++ after.map Entry.id).Perm
        (e.id :: (before.map Entry.id ++ after.map Entry.id)) := by
      rw [List.append_assoc]
      exact List.perm_middle
    exact (hmiddle.cons _).trans (List.Perm.swap _ _ _)
  refine ⟨hids.nodup_iff.mpr (List.nodup_cons.mpr ⟨h.fresh, h.nodup⟩), fun i hi => ?_⟩
  rw [hnext, hsupply]
  rcases List.mem_cons.mp (hids.subset hi) with rfl | hi
  · exact ⟨t.next, Nat.lt_succ_self _, rfl⟩
  · obtain ⟨k, hk, hgive⟩ := h.given i hi
    exact ⟨k, Nat.lt_succ_of_lt hk, hgive⟩

/-- One edit of any kind keeps the identities apart. -/
theorem edit (h : t.Issued) (e : Edit) : (t.edit e).Issued := by
  obtain ⟨old, new, hs, heffect⟩ := edit_effect t e
  cases heffect with
  | nothing hnext => exact h.of_kept hs (List.Sublist.refl _) hnext
  | addedLeaf q hnext => exact h.of_added hs rfl hnext
  | addedGroup q hnext => exact h.of_added hs rfl hnext
  | updatedLeaf q c hnext => exact h.of_kept hs (List.Sublist.refl _) hnext
  | updatedGroup q before hnext => exact h.of_kept hs (List.Sublist.refl _) hnext
  | cut q n hid hnext => exact h.of_kept hs (List.nil_sublist _) hnext
  | cleared hnext => exact h.of_kept hs (List.nil_sublist _) hnext

theorem addCondition (h : t.Issued) (parent : Option NodeId) (c : Condition) :
    (t.addCondition parent c).2.Issued :=
  h.edit (.addCondition parent c)

theorem addGroup (h : t.Issued) (parent : Option NodeId) (operator : GroupOperator) :
    (t.addGroup parent operator).2.Issued :=
  h.edit (.addGroup parent operator)

theorem load (h : t.Issued) (parent : NodeId) (cs : List Clause) : (t.load parent cs).Issued := by
  fun_induction Tree.load t parent cs with
  | case1 t parent => exact h
  | case2 t parent c cs ih => exact ih (h.addCondition (some parent) c)
  | case3 t parent operator inner cs i t' hadd ihi ihc =>
    have hgroup := h.addGroup (some parent) operator
    rw [hadd] at hgroup
    exact ihc (ihi hgroup)
  | case4 t parent operator inner cs t' hadd ih =>
    have hgroup := h.addGroup (some parent) operator
    rw [hadd] at hgroup
    exact ih hgroup

theorem ofOrigin (start : Nat) (supply : Supply) (origin : Origin) :
    (Tree.ofOrigin start supply origin).Issued := by
  cases origin with
  | empty operator => exact of_new operator start supply
  | restored payload => exact (of_new payload.operator start supply).load _ _

theorem run (h : t.Issued) (edits : List Edit) : (t.run edits).Issued :=
  run_induction (fun _ e ht => ht.edit e) h edits

end Issued

/-- All that is asked about a tree by identity gives one and the same answer. -/
structure Coherent (t : Tree) : Prop where
  nodup : (t.rootId :: t.ids).Nodup
  size_eq : t.size = t.ids.length
  hasConditions_iff : t.hasConditions ↔ 0 < t.size
  find?_isSome_iff : ∀ i, (t.find? i).isSome ↔ i ∈ t.ids
  find?_rootId : t.find? t.rootId = none
  find?_eq_some_iff : ∀ i n, t.find? i = some n ↔ n ∈ Node.all t.children ∧ n.id = i
  place?_part : ∀ i, (t.place? i).map Place.part = t.find? i
  place?_put : ∀ i p, t.place? i = some p →
    p.put p.part = t ∧ ∀ m, m.id = i → (p.put m).place? i = some ⟨m, p.put⟩
  groupPlace?_part : ∀ i, (t.groupPlace? i).map (·.part.toNode) =
    if i = t.rootId then some t.root else (t.find? i).filter Node.isGroup
  groupPlace?_put : ∀ i p, t.groupPlace? i = some p →
    p.put p.part = t ∧ ∀ g, g.id = i → (p.put g).groupPlace? i = some ⟨g, p.put⟩

theorem Issued.coherent (h : t.Issued) : t.Coherent where
  nodup := h.nodup
  size_eq := Node.sizes_eq_length t.children
  hasConditions_iff := by
    rw [hasConditions, size, Node.sizes_eq_length, List.length_pos_iff]
    cases hc : t.children with
    | nil => simp [Node.ids]
    | cons n ns => simp [Node.ids_ne_nil]
  find?_isSome_iff i := Node.find?_isSome_iff i t.children
  find?_rootId := Node.find?_eq_none_iff.mpr (List.nodup_cons.mp h.nodup).1
  find?_eq_some_iff i n := Node.find?_eq_some_iff (List.nodup_cons.mp h.nodup).2
  place?_part i := Tree.place?_part t i
  place?_put i p hp := ⟨place?_put_part hp, fun m hm => Tree.place?_put hp hm⟩
  groupPlace?_part i := Tree.groupPlace?_part h.nodup i
  groupPlace?_put i p hp := ⟨groupPlace?_put_part hp, fun g hg => Tree.groupPlace?_put hp hg⟩

/-- Every tree that editing can reach, from any beginning and with any identities named, is
coherent. -/
theorem run_coherent (start : Nat) (supply : Supply) (origin : Origin) (edits : List Edit) :
    ((ofOrigin start supply origin).run edits).Coherent :=
  ((Issued.ofOrigin start supply origin).run edits).coherent

end RecordLogic.Filter.Tree
