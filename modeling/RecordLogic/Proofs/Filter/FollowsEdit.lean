import RecordLogic.Proofs.Filter.Follows

namespace RecordLogic.Filter

open History

namespace Follows

variable {supply : Supply} {first : Nat} {h : History} {s : Session} {t' : Tree} {m : Mark}
  {i : NodeId} {kind : Kind} {step : Step}

theorem exists_mark (hf : Follows supply first h s) {ref : String}
    (hfound : s.refs.find? ref = some i) :
    ∃ m, mark? h ref = some m ∧ identity supply first h m = i := by
  rw [hf.refs ref] at hfound
  exact Option.map_eq_some_iff.mp hfound

/-- The parent that an addition finds can take the node unless the addition is idle. -/
theorem exists_place (hf : Follows supply first h s) (hadds : step.adds? = some kind)
    {node : Option NodeId} (hnode : s.ParentIs node step.named?) :
    ∃ m, place? h step = some m ∧ node.getD s.tree.rootId = identity supply first h m ∧
      ((∀ i ∈ node, s.tree.HasGroup i) ↔ idle h step = false) := by
  cases hnamed : step.named? with
  | none =>
    rw [hnamed] at hnode
    obtain rfl : node = none := hnode
    exact ⟨.root, by simp [place?, hnamed], hf.rootId_eq, by simp [idle, hnamed]⟩
  | some ref =>
    rw [hnamed] at hnode
    obtain ⟨i, hfound, rfl⟩ := hnode
    obtain ⟨m, hm, rfl⟩ := hf.exists_mark hfound
    refine ⟨m, by simp [place?, hnamed, hm], rfl, ?_⟩
    have hmisfits : misfits h step m = false ↔ ∀ n, m = .added n → kind? h n ≠ some .leaf := by
      cases step <;> cases m <;> simp_all [Step.adds?, misfits]
    rw [idle_of_mark? hnamed hm, Bool.or_eq_false_iff, hmisfits,
      ← hf.hasGroup_iff (knows_of_mark? hm)]
    simp

/-- What an addition comes to. -/
theorem bound (hf : Follows supply first h s) {content : Content}
    (hadds : step.adds? = some content.kind) {node : Option NodeId}
    (hnode : s.ParentIs node step.named?) {mk : NodeId → Node}
    (hmk : ∀ i q, Node.entries q [mk i] = [⟨i, q, content⟩]) :
    (s.bound step.ref? (s.tree.add node mk)).1 = !idle h step ∧
      Follows supply first (⟨step, !idle h step⟩ :: h)
        (s.bound step.ref? (s.tree.add node mk)).2 := by
  obtain ⟨m, hplace, hid, hpossible⟩ := hf.exists_place hadds hnode
  have hattempt := Tree.add_adds hf.distinct node hmk
  rw [Tree.Adds, hpossible] at hattempt
  rcases s.tree.add_spliced node mk with hfailed | ⟨q, t', hadd, hnext, hspliced⟩
  · rw [hfailed] at hattempt ⊢
    have hidle : idle h step = true := by simpa using hattempt.success_iff
    rw [hidle]
    exact ⟨rfl, hf.unchanged step⟩
  · rw [hadd] at hattempt ⊢
    have hidle : idle h step = false := by simpa using hattempt.success_iff
    obtain ⟨-, happended⟩ := hattempt.changed rfl
    rw [hid] at happended
    have hissued : t'.Issued := by
      rw [hmk] at hspliced
      exact hf.issued.of_added hspliced rfl hnext
    have hadded {refs : Table NodeId} (hrefs : ∀ ref, refs.find? ref =
        if step.ref? = some ref then some (s.tree.supply.give s.tree.next)
        else s.refs.find? ref) : Follows supply first (⟨step, true⟩ :: h) ⟨t', refs⟩ :=
      hf.added hadds hplace hissued hspliced.supply_eq hnext happended hrefs
    rw [hidle]
    cases href : step.ref? with
    | none => exact ⟨rfl, hadded (by simp [href])⟩
    | some name =>
      refine ⟨rfl, hadded fun ref => ?_⟩
      by_cases hname : name = ref
      · subst hname
        rw [Table.find?_insert_self, href, if_pos rfl]
      · rw [Table.find?_insert_of_ne hname, href, if_neg (by simpa using hname)]

/-- What any other edit comes to, if it is possible unless it is idle. -/
theorem changed (hf : Follows supply first h s) {possible : Prop} {change : Tree → Prop}
    {r : Bool × Tree} (hattempt : Tree.Attempt possible change s.tree r)
    (hpossible : possible ↔ idle h step = false)
    (hmade : ∀ t', r = (true, t') → change t' →
      Follows supply first (⟨step, true⟩ :: h) ⟨t', s.refs⟩) :
    (s.changed r).1 = !idle h step ∧
      Follows supply first (⟨step, !idle h step⟩ :: h) (s.changed r).2 := by
  have hsuccess := hattempt.success_iff.trans hpossible
  obtain ⟨made, t'⟩ := r
  cases made with
  | true =>
    rw [hsuccess.mp rfl]
    exact ⟨rfl, hmade t' rfl (hattempt.changed rfl)⟩
  | false =>
    have hidle : idle h step = true := by simpa using hsuccess
    obtain rfl : t' = s.tree := hattempt.unchanged rfl
    rw [hidle]
    exact ⟨rfl, hf.unchanged step⟩

/-- Entries gave way to others of the same nodes, places and kinds. -/
theorem rewritten (hf : Follows supply first h s) (hadds : step.adds? = none)
    (hkept : ∀ n, takesOut h ⟨step, true⟩ n = false) {old new : List Entry}
    (hs : Tree.Spliced old new s.tree t') (hissued : t'.Issued) (hnext : t'.next = s.tree.next)
    (hsame : new.map (fun x => (x.id, x.parent, x.content.kind)) =
      old.map fun x => (x.id, x.parent, x.content.kind)) :
    Follows supply first (⟨step, true⟩ :: h) ⟨t', s.refs⟩ := by
  obtain ⟨hroot, hsupply, before, after, hold, hnew⟩ := hs
  have hall : t'.entries.map (fun x => (x.id, x.parent, x.content.kind)) =
      s.tree.entries.map fun x => (x.id, x.parent, x.content.kind) := by
    rw [hold, hnew]
    simp only [List.map_append, hsame]
  have hids : t'.ids = s.tree.ids := by
    have hfirst := congrArg (List.map Prod.fst) hall
    simpa only [List.map_map, Function.comp_def, Tree.map_id_entries] using hfirst
  refine hf.keep (fun _ => hadds) hissued hsupply hnext hroot (fun x hx => ?_) fun n hn hleft => ?_
  · have hmem := List.mem_map_of_mem (f := fun x : Entry => (x.id, x.parent, x.content.kind)) hx
    rw [hall] at hmem
    obtain ⟨y, hy, heq⟩ := List.mem_map.mp hmem
    obtain ⟨hid, hrest⟩ := Prod.mk.inj heq
    obtain ⟨hparent, hkind⟩ := Prod.mk.inj hrest
    exact ⟨y, hy, hid.symm, hparent.symm, hkind.symm⟩
  · simp [hids, hf.mem_ids_iff hn, hleft, hkept]

theorem removed (hf : Follows supply first h s) {target : String} (hm : mark? h target = some m)
    {cut : Node} (hcut : Tree.Cut cut s.tree t') (hid : cut.id = identity supply first h m)
    (hissued : t'.Issued) (hsupply : t'.supply = s.tree.supply) (hnext : t'.next = s.tree.next) :
    Follows supply first (⟨.remove target, true⟩ :: h) ⟨t', s.refs⟩ := by
  refine hf.keep (fun _ => rfl) hissued hsupply hnext hcut.rootId_eq (fun x hx => ?_)
    fun n hn hleft => ?_
  · rw [hcut.entries_eq] at hx
    exact ⟨x, (List.mem_filter.mp hx).1, rfl, rfl, rfl⟩
  · have hgone := hcut.gone_iff
    rw [hid] at hgone
    cases m with
    | root => exact absurd ((hgone _).mpr .refl).1 hf.rootId_not_mem
    | added r =>
      have hmem := hf.live n hn hleft
      have hreaches := hf.reaches_iff (kind?_of_mark? hm) hn hmem
      rw [← hgone, and_iff_right hmem] at hreaches
      rw [← not_iff_not, hreaches]
      simp [takesOut, hm]

theorem cleared (hf : Follows supply first h s) :
    Follows supply first (⟨.clear, true⟩ :: h) ⟨s.tree.clear, s.refs⟩ := by
  refine hf.keep (fun _ => rfl) (hf.issued.edit .clear) rfl rfl rfl (fun x hx => ?_)
    fun n hn hleft => ?_
  · simp [Tree.entries, Tree.clear, Node.entries] at hx
  · simp [Tree.ids, Tree.clear, Node.ids, takesOut]

theorem update (hf : Follows supply first h s) {target : String} (hm : mark? h target = some m)
    (u : ConditionUpdate) :
    let r := s.changed (s.tree.updateCondition (identity supply first h m) u)
    r.1 = !idle h (.update target u) ∧ Follows supply first (record h (.update target u)) r.2 := by
  have hattempt := Tree.updateCondition_attempt hf.distinct (identity supply first h m) u
  have hpossible : s.tree.HasLeaf (identity supply first h m) ↔
      idle h (.update target u) = false := by
    rw [hf.hasLeaf_iff (knows_of_mark? hm), idle_of_mark? rfl hm, Bool.or_eq_false_iff]
    cases m <;> simp [misfits]
  refine hf.changed hattempt hpossible fun t' hmade _ => ?_
  have hissued := hf.issued.edit (.updateCondition (identity supply first h m) u)
  rw [Tree.edit, hmade] at hissued
  rcases s.tree.updateCondition_spliced (identity supply first h m) u with
    hfailed | ⟨q, c, t'', hupdated, hnext, hs⟩
  · cases hfailed.symm.trans hmade
  · cases hupdated.symm.trans hmade
    exact hf.rewritten rfl (fun n => rfl) hs hissued hnext rfl

theorem setGroupOperator (hf : Follows supply first h s) {target : String}
    (hm : mark? h target = some m) (op : GroupOperator) :
    let r := s.changed (s.tree.updateGroup (identity supply first h m) op)
    r.1 = !idle h (.setGroupOperator target op) ∧
      Follows supply first (record h (.setGroupOperator target op)) r.2 := by
  have hattempt := Tree.updateGroup_attempt hf.distinct (identity supply first h m) op
  have hpossible : s.tree.HasGroup (identity supply first h m) ↔
      idle h (.setGroupOperator target op) = false := by
    rw [hf.hasGroup_iff (knows_of_mark? hm), idle_of_mark? rfl hm, Bool.or_eq_false_iff]
    cases m <;> simp [misfits]
  refine hf.changed hattempt hpossible fun t' hmade _ => ?_
  have hissued := hf.issued.edit (.updateGroup (identity supply first h m) op)
  rw [Tree.edit, hmade] at hissued
  rcases s.tree.updateGroup_spliced (identity supply first h m) op with
    hfailed | ⟨t'', hupdated, hnext, hs⟩
  · cases hfailed.symm.trans hmade
  · cases hupdated.symm.trans hmade
    rcases hs with hs | ⟨q, op', hs⟩
    · exact hf.rewritten rfl (fun n => rfl) hs hissued hnext rfl
    · exact hf.rewritten rfl (fun n => rfl) hs hissued hnext rfl

theorem remove (hf : Follows supply first h s) {target : String}
    (hm : mark? h target = some m) :
    let r := s.changed (s.tree.remove (identity supply first h m))
    r.1 = !idle h (.remove target) ∧ Follows supply first (record h (.remove target)) r.2 := by
  obtain ⟨hattempt, -⟩ := Tree.remove_cuts_subtree hf.distinct (identity supply first h m)
  have hpossible : identity supply first h m ∈ s.tree.ids ↔ idle h (.remove target) = false := by
    rw [hf.mark_mem_ids_iff (knows_of_mark? hm), idle_of_mark? rfl hm, Bool.or_eq_false_iff]
    cases m <;> simp [misfits]
  refine hf.changed hattempt hpossible fun t' hmade ⟨cut, hfound, hcut⟩ => ?_
  have hissued := hf.issued.edit (.remove (identity supply first h m))
  rw [Tree.edit, hmade] at hissued
  have hid : cut.id = identity supply first h m := (Node.mem_all_of_find? hfound).2
  rcases s.tree.remove_spliced (identity supply first h m) with
    hfailed | ⟨q, cut', t'', hremoved, hnext, -, -, hs⟩
  · cases hfailed.symm.trans hmade
  · cases hremoved.symm.trans hmade
    exact hf.removed hm hcut hid hissued hs.supply_eq hnext

/-- An edit succeeds unless it is idle, and what comes of it is what the history says. -/
theorem applies (hf : Follows supply first h s) {r : Bool × Session} (happlies : s.Applies step r) :
    r.1 = !idle h step ∧ Follows supply first (record h step) r.2 := by
  cases happlies with
  | @addCondition ref parent c node hnode =>
    have hadds : (Step.addCondition ref parent c).adds? = some (Content.leaf c).kind := rfl
    exact hf.bound hadds hnode fun i q => by simp [Node.entries]
  | @addGroup ref parent op node hnode =>
    have hadds : (Step.addGroup ref parent op).adds? = some (Content.group op).kind := rfl
    exact hf.bound hadds hnode fun i q => by simp [Node.entries]
  | update u hfound =>
    obtain ⟨m, hm, rfl⟩ := hf.exists_mark hfound
    exact hf.update hm u
  | setGroupOperator op hfound =>
    obtain ⟨m, hm, rfl⟩ := hf.exists_mark hfound
    exact hf.setGroupOperator hm op
  | remove hfound =>
    obtain ⟨m, hm, rfl⟩ := hf.exists_mark hfound
    exact hf.remove hm
  | setRootOperator op =>
    have hs : Tree.Spliced [] [] s.tree (s.tree.withOperator op) :=
      ⟨rfl, rfl, s.tree.entries, [], by simp, by simp [Tree.entries, Tree.withOperator]⟩
    have hfollows : Follows supply first (⟨.setRootOperator op, true⟩ :: h)
        ⟨s.tree.withOperator op, s.refs⟩ :=
      hf.rewritten rfl (fun n => rfl) hs (hf.issued.edit (.setRootOperator op)) rfl rfl
    exact ⟨rfl, hfollows⟩
  | clear => exact ⟨rfl, hf.cleared⟩

end Follows

end RecordLogic.Filter
