import RecordLogic.Proofs.Filter.Entries

namespace RecordLogic.Filter

variable {σ : Type} {node : σ → Node} {passed : Node → Prop}
variable {i r : NodeId} {n m : Node} {g : Group} {ns : List Node}

/-- Whatever is put into the place stands, with all below it, between the same entries. -/
def Place.Splits (p : Place σ (List Node)) (node : σ → Node) (r : NodeId) : Prop :=
  ∃ before parent after, ∀ s,
    Node.entries r (p.put s) = before ++ Node.entries parent [node s] ++ after

namespace Node

/-- How a search for an identity comes to a place: it is the first node, or it lies below the first
node, or it lies behind a first node that the search passed. -/
inductive Reached (node : σ → Node) (passed : Node → Prop) (i : NodeId) :
    List Node → Place σ (List Node) → Prop where
  | here {s : σ} {ns : List Node} (hid : (node s).id = i) :
      Reached node passed i (node s :: ns) ⟨s, (node · :: ns)⟩
  | inside {j : NodeId} {op : GroupOperator} {cs ns : List Node} {p : Place σ (List Node)}
      (hj : j ≠ i) (hp : Reached node passed i cs p) :
      Reached node passed i (group j op cs :: ns) (p.within (group j op · :: ns))
  | behind {n : Node} {ns : List Node} {p : Place σ (List Node)}
      (hn : passed n) (hp : Reached node passed i ns p) :
      Reached node passed i (n :: ns) (p.within (n :: ·))

namespace Reached

variable {p : Place σ (List Node)}

theorem part_id (h : Reached node passed i ns p) : (node p.part).id = i := by
  induction h with
  | here hid => exact hid
  | inside hj hp ih => exact ih
  | behind hn hp ih => exact ih

theorem put_part (h : Reached node passed i ns p) : p.put p.part = ns := by
  induction h with
  | here hid => rfl
  | @inside j op cs ns p hj hp ih => exact congrArg (group j op · :: ns) ih
  | @behind n ns p hn hp ih => exact congrArg (n :: ·) ih

theorem mem_all (h : Reached node passed i ns p) : node p.part ∈ all ns := by
  induction h with
  | @here s ns hid => cases node s <;> simp [all]
  | inside hj hp ih => simp [all, Place.within, ih]
  | @behind n ns p hn hp ih => cases n <;> simp [all, Place.within, ih]

theorem splits (h : Reached node passed i ns p) (r : NodeId) : p.Splits node r := by
  induction h generalizing r with
  | @here s ns hid =>
    refine ⟨[], r, entries r ns, fun s => ?_⟩
    rw [entries_cons, List.nil_append]
  | @inside j op cs ns p hj hp ih =>
    obtain ⟨before, parent, after, hsplit⟩ := ih j
    refine ⟨⟨j, r, .group op⟩ :: before, parent, after ++ entries r ns, fun s => ?_⟩
    simp [Place.within, entries, hsplit]
  | @behind n ns p hn hp ih =>
    obtain ⟨before, parent, after, hsplit⟩ := ih r
    refine ⟨entries r [n] ++ before, parent, after, fun s => ?_⟩
    rw [Place.within, entries_cons, hsplit]
    simp

end Reached

theorem place?_part (i : NodeId) (ns : List Node) :
    (place? i ns).map Place.part = find? i ns := by
  fun_induction place? i ns with
  | case1 => simp [find?]
  | case2 c ns => simp [find?]
  | case3 j c ns hj ih =>
    rw [find?, if_neg hj, ← ih, Option.map_map]
    rfl
  | case4 op cs ns => simp [find?]
  | case5 j op cs ns hj p hp ih =>
    have hfound : find? i cs = some p.part := by rw [← ih, hp, Option.map_some]
    simp [find?, hj, hfound, Place.within]
  | case6 j op cs ns hj hcs ihc ihn =>
    have hnone : find? i cs = none := by rw [← ihc, hcs, Option.map_none]
    simp only [find?, if_neg hj, hnone, ← ihn, Option.map_map]
    rfl

theorem reached_of_place? {p : Place Node (List Node)} (h : place? i ns = some p) :
    Reached (fun n => n) (fun n => place? i [n] = none) i ns p := by
  fun_induction place? i ns generalizing p with
  | case1 => simp at h
  | case2 c ns =>
    cases h
    exact .here rfl
  | case3 j c ns hj ih =>
    obtain ⟨q, hq, rfl⟩ := Option.map_eq_some_iff.mp h
    exact .behind (by simp [place?, hj]) (ih hq)
  | case4 op cs ns =>
    cases h
    exact .here rfl
  | case5 j op cs ns hj q hq ih =>
    cases h
    exact .inside hj (ih hq)
  | case6 j op cs ns hj hcs ihc ihn =>
    obtain ⟨q, hq, rfl⟩ := Option.map_eq_some_iff.mp h
    exact .behind (by simp [place?, hj, hcs]) (ihn hq)

theorem place?_cons_self (n : Node) (ns : List Node) :
    place? n.id (n :: ns) = some ⟨n, (· :: ns)⟩ := by
  cases n <;> simp [place?, Node.id]

theorem place?_cons_of_none (h : place? i [n] = none) :
    place? i (n :: ns) = (place? i ns).map (·.within (n :: ·)) := by
  cases n with
  | leaf j c =>
    have hj : j ≠ i := by
      intro hj
      simp [place?, hj] at h
    rw [place?, if_neg hj]
  | group j op cs =>
    have hj : j ≠ i := by
      intro hj
      simp [place?, hj] at h
    have hcs : place? i cs = none := by
      cases hcs : place? i cs with
      | none => rfl
      | some p => simp [place?, hj, hcs] at h
    simp [place?, hj, hcs]

/-- A node that is put into the place of one with the same identity is reached at that place. -/
theorem place?_put {p : Place Node (List Node)} (h : place? i ns = some p) (hm : m.id = i) :
    place? i (p.put m) = some ⟨m, p.put⟩ := by
  have hreached := reached_of_place? h
  clear h
  subst hm
  induction hreached with
  | here hid => exact place?_cons_self m _
  | inside hj hp ih =>
    simp [Place.within, place?, hj, ih]
  | behind hn hp ih =>
    rw [Place.within, place?_cons_of_none hn, ih]
    rfl

theorem groupPlace?_cons_of_none (h : groupPlace? i [n] = none) :
    groupPlace? i (n :: ns) = (groupPlace? i ns).map (·.within (n :: ·)) := by
  cases n with
  | leaf j c => rw [groupPlace?]
  | group j op cs =>
    have hj : j ≠ i := by
      intro hj
      simp [groupPlace?, hj] at h
    have hcs : groupPlace? i cs = none := by
      cases hcs : groupPlace? i cs with
      | none => rfl
      | some p => simp [groupPlace?, hj, hcs] at h
    simp [groupPlace?, hj, hcs]

theorem reached_of_groupPlace? {p : Place Group (List Node)} (h : groupPlace? i ns = some p) :
    Reached Group.toNode (fun n => groupPlace? i [n] = none) i ns p := by
  fun_induction groupPlace? i ns generalizing p with
  | case1 => simp at h
  | case2 j c ns ih =>
    obtain ⟨q, hq, rfl⟩ := Option.map_eq_some_iff.mp h
    exact .behind (by simp [groupPlace?]) (ih hq)
  | case3 op cs ns =>
    cases h
    let g : Group := ⟨i, op, cs⟩
    have hid : g.toNode.id = i := rfl
    exact Reached.here (s := g) hid
  | case4 j op cs ns hj q hq ih =>
    cases h
    exact .inside hj (ih hq)
  | case5 j op cs ns hj hcs ihc ihn =>
    obtain ⟨q, hq, rfl⟩ := Option.map_eq_some_iff.mp h
    exact .behind (by simp [groupPlace?, hj, hcs]) (ihn hq)

/-- A group that is put into the place of one with the same identity is reached at that place. -/
theorem groupPlace?_put {p : Place Group (List Node)} (h : groupPlace? i ns = some p)
    (hg : g.id = i) : groupPlace? i (p.put g) = some ⟨g, p.put⟩ := by
  have hreached := reached_of_groupPlace? h
  clear h
  subst hg
  induction hreached with
  | here hid => simp [Group.toNode, groupPlace?]
  | inside hj hp ih => simp [Place.within, groupPlace?, hj, ih]
  | behind hn hp ih =>
    rw [Place.within, groupPlace?_cons_of_none hn, ih]
    rfl

/-- No group is missed. -/
theorem isGroup_of_groupPlace?_eq_none (h : groupPlace? i ns = none) (hmem : n ∈ all ns)
    (hid : n.id = i) : n.isGroup = false := by
  fun_induction groupPlace? i ns with
  | case1 => simp [all] at hmem
  | case2 j c ns ih =>
    rw [all, List.mem_cons] at hmem
    rcases hmem with rfl | hmem
    · rfl
    · exact ih (by simpa using h) hmem
  | case3 op cs ns => simp at h
  | case4 j op cs ns hj q hq ih => simp at h
  | case5 j op cs ns hj hcs ihc ihn =>
    rw [all, List.mem_cons, List.mem_append] at hmem
    rcases hmem with rfl | hmem | hmem
    · exact absurd hid hj
    · exact ihc hcs hmem
    · exact ihn (by simpa using h) hmem

/-- Where identities do not repeat, the search for a group finds the node with the identity, unless
that is a leaf. -/
theorem groupPlace?_part (hnd : (ids ns).Nodup) (i : NodeId) :
    (groupPlace? i ns).map (·.part.toNode) = (find? i ns).filter Node.isGroup := by
  cases hplace : groupPlace? i ns with
  | some p =>
    have hreached := reached_of_groupPlace? hplace
    have hfound : find? i ns = some p.part.toNode :=
      (find?_eq_some_iff hnd).mpr ⟨hreached.mem_all, hreached.part_id⟩
    have hgroup : p.part.toNode.isGroup = true := rfl
    rw [hfound, Option.map_some, Option.filter_some_pos hgroup]
  | none =>
    cases hfound : find? i ns with
    | none => rfl
    | some n =>
      obtain ⟨hmem, hid⟩ := mem_all_of_find? hfound
      have hleaf := isGroup_of_groupPlace?_eq_none hplace hmem hid
      rw [Option.map_none, Option.filter_some_neg hleaf]

end Node

end RecordLogic.Filter
