import RecordLogic.Proofs.Filter.Identity
import RecordLogic.Proofs.Filter.Removal

namespace RecordLogic.Filter.Tree

variable {t t' : Tree} {i j : NodeId} {e : Edit} {old new : List Entry}

/-- Whatever is tried at an identity fails and leaves the tree as it is. -/
structure Dead (t : Tree) (i : NodeId) : Prop where
  find?_eq : t.find? i = none
  addCondition_eq : ∀ c, t.addCondition (some i) c = (none, t)
  addGroup_eq : ∀ op, t.addGroup (some i) op = (none, t)
  updateCondition_eq : ∀ u, t.updateCondition i u = (false, t)
  updateGroup_eq : ∀ op, t.updateGroup i op = (false, t)
  remove_eq : t.remove i = (false, t)

theorem mem_ids_of_find? {n : Node} (h : t.find? i = some n) : i ∈ t.ids :=
  (Node.find?_isSome_iff i t.children).mp (Option.isSome_of_eq_some h)

theorem mem_ids_of_hasLeaf (h : t.HasLeaf i) : i ∈ t.ids := by
  obtain ⟨c, hfound⟩ := h
  exact mem_ids_of_find? hfound

theorem mem_of_hasGroup (h : t.HasGroup i) : i ∈ t.rootId :: t.ids := by
  rcases h with hroot | ⟨op, cs, hfound⟩
  · exact List.mem_cons.mpr (Or.inl hroot)
  · exact List.mem_cons_of_mem _ (mem_ids_of_find? hfound)

theorem Adds.eq_of_not_hasGroup {content : Content} {result : Option NodeId × Tree}
    (h : t.Adds (some i) content result) (hi : ¬t.HasGroup i) : result = (none, t) := by
  have hfailed := h.eq_of_not fun hpossible => hi (hpossible i rfl)
  simpa [Prod.ext_iff] using hfailed

theorem Distinct.dead (h : t.Distinct) (hi : i ∉ t.rootId :: t.ids) : t.Dead i := by
  have hids : i ∉ t.ids := fun hmem => hi (List.mem_cons_of_mem _ hmem)
  have hleaf : ¬t.HasLeaf i := fun hleaf => hids (mem_ids_of_hasLeaf hleaf)
  have hgroup : ¬t.HasGroup i := fun hgroup => hi (mem_of_hasGroup hgroup)
  exact {
    find?_eq := Node.find?_eq_none_iff.mpr hids
    addCondition_eq := fun c => (addCondition_adds h (some i) c).eq_of_not_hasGroup hgroup
    addGroup_eq := fun op => (addGroup_adds h (some i) op).eq_of_not_hasGroup hgroup
    updateCondition_eq := fun u => (updateCondition_attempt h i u).eq_of_not hleaf
    updateGroup_eq := fun op => (updateGroup_attempt h i op).eq_of_not hgroup
    remove_eq := remove_of_not_mem hids }

theorem Effect.next_le (h : Effect t t' e old new) : t.next ≤ t'.next := by
  cases h <;> omega

/-- Entries come in with identities that went out or with the next one that is given. -/
theorem Effect.id_mem (h : Effect t t' e old new) {x : Entry} (hx : x ∈ new) :
    x.id ∈ old.map Entry.id ∨ x.id = t.supply.give t.next := by
  cases h with
  | nothing hnext => simp at hx
  | addedLeaf q hnext => simp_all
  | addedGroup q hnext => simp_all
  | updatedLeaf q c hnext => simp_all
  | updatedGroup q before hnext => simp_all
  | cut q n hid hnext => simp at hx
  | cleared hnext => simp at hx

theorem rootId_edit (t : Tree) (e : Edit) : (t.edit e).rootId = t.rootId := by
  obtain ⟨old, new, hs, -⟩ := edit_effect t e
  exact hs.rootId_eq

theorem rootId_run (t : Tree) (edits : List Edit) : (t.run edits).rootId = t.rootId :=
  run_induction (P := fun t' => t'.rootId = t.rootId)
    (fun t' e ht => (rootId_edit t' e).trans ht) rfl edits

theorem run_append (t : Tree) (edits more : List Edit) :
    t.run (edits ++ more) = (t.run edits).run more :=
  List.foldl_append

/-- The identity was given out. -/
def Given (t : Tree) (i : NodeId) : Prop :=
  ∃ k < t.next, t.supply.give k = i

namespace Given

theorem edit (h : t.Given i) (e : Edit) : (t.edit e).Given i := by
  obtain ⟨old, new, hs, heffect⟩ := edit_effect t e
  obtain ⟨k, hk, hgive⟩ := h
  refine ⟨k, Nat.lt_of_lt_of_le hk heffect.next_le, ?_⟩
  rw [hs.supply_eq, hgive]

theorem run (h : t.Given i) (edits : List Edit) : (t.run edits).Given i :=
  run_induction (P := fun t => t.Given i) (fun _ e ht => ht.edit e) h edits

theorem ne_next (h : t.Given i) : i ≠ t.supply.give t.next := by
  obtain ⟨k, hk, rfl⟩ := h
  intro heq
  have hsame := t.supply.give_injective heq
  omega

end Given

/-- The identity was given out, but no node has it any more. -/
structure Gone (t : Tree) (i : NodeId) : Prop where
  absent : i ∉ t.rootId :: t.ids
  given : t.Given i

namespace Gone

/-- No edit brings an identity back, since only new ones are given out. -/
theorem edit (h : t.Gone i) (e : Edit) : (t.edit e).Gone i := by
  refine ⟨?_, h.given.edit e⟩
  obtain ⟨hroot, hids⟩ := not_or.mp (mt List.mem_cons.mpr h.absent)
  obtain ⟨old, new, ⟨hroot', -, before, after, hold, hnew⟩, heffect⟩ := edit_effect t e
  rw [← map_id_entries, hold] at hids
  rw [← map_id_entries, hroot', hnew]
  simp only [List.map_append, List.mem_cons, List.mem_append, not_or] at hids ⊢
  obtain ⟨⟨hbefore, hcut⟩, hafter⟩ := hids
  refine ⟨hroot, ⟨hbefore, ?_⟩, hafter⟩
  intro hmem
  obtain ⟨x, hx, rfl⟩ := List.mem_map.mp hmem
  rcases heffect.id_mem hx with hback | hfresh
  · exact hcut hback
  · exact h.given.ne_next hfresh

theorem run (h : t.Gone i) (edits : List Edit) : (t.run edits).Gone i :=
  run_induction (P := fun t => t.Gone i) (fun _ e ht => ht.edit e) h edits

end Gone

/-- An identity that some node had and that no node has after further edits is gone. -/
theorem Issued.gone (h : t.Issued) (edits : List Edit) (hin : i ∈ t.ids)
    (hout : i ∉ (t.run edits).ids) : (t.run edits).Gone i := by
  have hroot : i ≠ t.rootId := fun heq => (List.nodup_cons.mp h.nodup).1 (heq ▸ hin)
  have hgiven : t.Given i := h.given i (List.mem_cons_of_mem _ hin)
  refine ⟨?_, hgiven.run edits⟩
  rw [List.mem_cons, not_or, rootId_run]
  exact ⟨hroot, hout⟩

/-- Once an identity has left the tree it is dead in every later state, whatever edits follow. -/
theorem run_stale_dead (start : Nat) (supply : Supply) (origin : Origin)
    (before between after : List Edit)
    (hin : i ∈ ((ofOrigin start supply origin).run before).ids)
    (hout : i ∉ ((ofOrigin start supply origin).run (before ++ between)).ids) :
    ((ofOrigin start supply origin).run (before ++ between ++ after)).Dead i := by
  have hissued := Issued.ofOrigin start supply origin
  rw [run_append] at hout
  have hgone : ((ofOrigin start supply origin).run (before ++ between ++ after)).Gone i := by
    rw [run_append, run_append]
    exact ((hissued.run before).gone between hin hout).run after
  have hlater := hissued.run (before ++ between ++ after)
  exact Distinct.dead hlater.nodup hgone.absent

/-- The leaf left with the group around it, and its identity stays dead. -/
theorem run_stale_dead_nested :
    let c : Condition := ⟨.equal, "amount", some (.integer 3), .constant⟩
    let before : List Edit := [.addGroup none .or, .addCondition (some ⟨1⟩) c]
    let between : List Edit := [.remove ⟨1⟩]
    let after : List Edit := [.addGroup none .not, .addCondition (some ⟨3⟩) c]
    let t := ofOrigin 0 .counted (.empty .and)
    (⟨2⟩ : NodeId) ∈ (t.run before).ids ∧ (⟨2⟩ : NodeId) ∉ (t.run (before ++ between)).ids ∧
      (t.run (before ++ between ++ after)).Dead ⟨2⟩ := by
  intro c before between after t
  have hbefore : t.run before =
      ⟨⟨0⟩, .and, [.group ⟨1⟩ .or [.leaf ⟨2⟩ c]], .counted, 3⟩ := by
    simp [t, before, ofOrigin, new, Supply.counted, run, edit, addGroup, addCondition, add, attach?,
      groupPlace?, Node.groupPlace?, Group.push, Group.toNode, Place.within]
  have hin : (⟨2⟩ : NodeId) ∈ (t.run before).ids := by
    rw [hbefore]
    simp [ids, Node.ids]
  have hout : (⟨2⟩ : NodeId) ∉ (t.run (before ++ between)).ids := by
    rw [run_append, hbefore]
    simp [between, run, edit, remove, Node.remove?, Node.dropFirst?, Node.id, ids, Node.ids]
  exact ⟨hin, hout, run_stale_dead 0 .counted (.empty .and) before between after hin hout⟩

end RecordLogic.Filter.Tree
