import RecordLogic.Proofs.Filter.Missing

namespace RecordLogic.Filter

variable {i j : NodeId} {is js : List NodeId} {n : Node} {ns : List Node} {e f : Edit}

/-- What becomes of the conditions and of the operators in a tree; it depends on the identity of the
node that holds them. -/
structure Amendment where
  condition : NodeId → Condition → Condition
  operator : NodeId → GroupOperator → GroupOperator

namespace Amendment

/-- One amendment after the other. -/
def andThen (a b : Amendment) : Amendment where
  condition i c := b.condition i (a.condition i c)
  operator i op := b.operator i (a.operator i op)

/-- The node itself stays as it is. -/
def Fixes (a : Amendment) : Node → Prop
  | .leaf i c => a.condition i c = c
  | .group i op _ => a.operator i op = op

end Amendment

namespace Node

variable {a b : Amendment}

def amend (a : Amendment) : List Node → List Node
  | [] => []
  | leaf i c :: ns => leaf i (a.condition i c) :: amend a ns
  | group i op cs :: ns => group i (a.operator i op) (amend a cs) :: amend a ns

theorem amend_cons (a : Amendment) (n : Node) (ns : List Node) :
    amend a (n :: ns) = amend a [n] ++ amend a ns := by
  cases n <;> simp [amend]

theorem ids_amend (a : Amendment) (ns : List Node) : ids (amend a ns) = ids ns := by
  fun_induction ids ns with
  | case1 => simp [amend, ids]
  | case2 i c ns ih => simp [amend, ids, ih]
  | case3 i op cs ns ihc ihn => simp [amend, ids, ihc, ihn]

theorem amend_amend (a b : Amendment) (ns : List Node) :
    amend b (amend a ns) = amend (a.andThen b) ns := by
  fun_induction ids ns with
  | case1 => simp [amend]
  | case2 i c ns ih => simp [amend, Amendment.andThen, ih]
  | case3 i op cs ns ihc ihn => simp [amend, Amendment.andThen, ihc, ihn]

/-- It does not matter whether what is taken out was amended before. -/
theorem without_amend (is : List NodeId) (a : Amendment) (ns : List Node) :
    without is (amend a ns) = amend a (without is ns) := by
  fun_induction ids ns with
  | case1 => simp [amend, without]
  | case2 i c ns ih => by_cases hi : i ∈ is <;> simp [amend, without, hi, ih]
  | case3 i op cs ns ihc ihn => by_cases hi : i ∈ is <;> simp [amend, without, hi, ihc, ihn]

theorem amend_eq_self (h : ∀ n ∈ all ns, a.Fixes n) : amend a ns = ns := by
  fun_induction all ns with
  | case1 => rw [amend]
  | case2 i c ns ih =>
    have hfirst : a.condition i c = c := h (leaf i c) List.mem_cons_self
    have hrest : amend a ns = ns := ih fun n hn => h n (List.mem_cons_of_mem _ hn)
    rw [amend, hfirst, hrest]
  | case3 i op cs ns ihc ihn =>
    have hfirst : a.operator i op = op := h (group i op cs) List.mem_cons_self
    have hinner : amend a cs = cs :=
      ihc fun n hn => h n (List.mem_cons_of_mem _ (List.mem_append_left _ hn))
    have hrest : amend a ns = ns :=
      ihn fun n hn => h n (List.mem_cons_of_mem _ (List.mem_append_right _ hn))
    rw [amend, hfirst, hinner, hrest]

theorem amend_of_not_mem (ha : ∀ n : Node, n.id ≠ i → a.Fixes n) (hi : i ∉ ids ns) :
    amend a ns = ns := by
  apply amend_eq_self
  intro n hn
  apply ha
  intro hid
  rw [← map_id_all] at hi
  exact hi (hid ▸ List.mem_map_of_mem hn)

namespace Reached

variable {σ : Type} {node : σ → Node} {passed : Node → Prop} {p : Place σ (List Node)}

theorem mem_ids (h : Reached node passed i ns p) : i ∈ ids ns := by
  rw [← map_id_all, ← h.part_id]
  exact List.mem_map_of_mem h.mem_all

theorem nodup_part (h : Reached node passed i ns p) (hnd : (ids ns).Nodup) :
    (ids [node p.part]).Nodup := by
  obtain ⟨before, parent, after, hsplit⟩ := h.splits i
  have hids : ids ns = before.map Entry.id ++ ids [node p.part] ++ after.map Entry.id := by
    rw [← map_id_entries i ns, ← h.put_part, hsplit]
    simp
  rw [hids, List.nodup_append, List.nodup_append] at hnd
  exact hnd.1.2.1

/-- Where identities do not repeat, an amendment of one node changes what a search for it finds and
nothing else. -/
theorem put_eq_amend {s : σ} (h : Reached node passed i ns p) (hnd : (ids ns).Nodup)
    (ha : ∀ n : Node, n.id ≠ i → a.Fixes n) (hs : amend a [node p.part] = [node s]) :
    p.put s = amend a ns := by
  induction h with
  | @here s' ns hid =>
    rw [ids_cons] at hnd
    have hrest : i ∉ ids ns := List.disjoint_of_nodup_append hnd (hid ▸ id_mem_ids (node s'))
    rw [amend_cons, hs, amend_of_not_mem ha hrest, List.singleton_append]
  | @inside j op cs ns p hj hp ih =>
    rw [ids, List.nodup_cons, List.nodup_append] at hnd
    obtain ⟨-, hinner, -, hapart⟩ := hnd
    have hrest : i ∉ ids ns := fun hi => hapart i hp.mem_ids i hi rfl
    have hop : a.operator j op = op := ha (group j op cs) hj
    rw [amend, hop, amend_of_not_mem ha hrest, ← ih hinner hs]
    rfl
  | @behind n ns p hn hp ih =>
    rw [ids_cons] at hnd
    have hfirst : i ∉ ids [n] := fun hi => List.disjoint_of_nodup_append hnd hi hp.mem_ids
    rw [amend_cons, amend_of_not_mem ha hfirst, ← ih (List.nodup_append.mp hnd).2.1 hs]
    rfl

end Reached

end Node

namespace Edit

/-- The edits that name a node to be taken out or changed. -/
def IsLocal : Edit → Prop
  | .updateCondition .. | .updateGroup .. | .remove _ => True
  | _ => False

/-- No two changes of one node's condition or of one group's operator. -/
def Apart : Edit → Edit → Prop
  | .updateCondition i _, .updateCondition j _ => i ≠ j
  | .updateGroup i _, .updateGroup j _ => i ≠ j
  | _, _ => True

def removed : Edit → List NodeId
  | .remove i => [i]
  | _ => []

def amendment : Edit → Amendment
  | .updateCondition i u => ⟨fun j c => if j = i then c.updated u else c, fun _ op => op⟩
  | .updateGroup i new => ⟨fun _ c => c, fun j op => if j = i then new else op⟩
  | _ => ⟨fun _ c => c, fun _ op => op⟩

theorem fixes_updateCondition (u : ConditionUpdate) (h : ∀ c, n ≠ .leaf i c) :
    (updateCondition i u).amendment.Fixes n := by
  cases n with
  | leaf j c =>
    have hji : j ≠ i := by
      rintro rfl
      exact h c rfl
    exact if_neg hji
  | group j op cs => rfl

theorem fixes_updateGroup (new : GroupOperator) (h : ∀ op cs, n ≠ .group i op cs) :
    (updateGroup i new).amendment.Fixes n := by
  cases n with
  | leaf j c => rfl
  | group j op cs =>
    have hji : j ≠ i := by
      rintro rfl
      exact h op cs rfl
    exact if_neg hji

theorem amendment_comm (h : e.Apart f) :
    e.amendment.andThen f.amendment = f.amendment.andThen e.amendment := by
  cases e with
  | updateCondition i u =>
    cases f with
    | updateCondition j v =>
      have hij : i ≠ j := h
      simp only [amendment, Amendment.andThen, Amendment.mk.injEq, and_true]
      funext k c
      by_cases hi : k = i <;> simp [hi, hij]
    | _ => rfl
  | updateGroup i new =>
    cases f with
    | updateGroup j other =>
      have hij : i ≠ j := h
      simp only [amendment, Amendment.andThen, Amendment.mk.injEq, true_and]
      funext k op
      by_cases hi : k = i <;> simp [hi, hij]
    | _ => rfl
  | _ => rfl

end Edit

namespace Tree

variable {t : Tree} {es fs : List Edit}

def amend (a : Amendment) (t : Tree) : Tree :=
  { t with operator := a.operator t.rootId t.operator, children := Node.amend a t.children }

theorem Distinct.amend (h : t.Distinct) (a : Amendment) : (t.amend a).Distinct := by
  rw [Distinct, ids, Tree.amend, Node.ids_amend]
  exact h

theorem amend_eq_self {a : Amendment} (hroot : a.operator t.rootId t.operator = t.operator)
    (h : ∀ n ∈ Node.all t.children, a.Fixes n) : t.amend a = t := by
  rw [amend, hroot, Node.amend_eq_self h]

theorem updateCondition_eq_amend (h : t.Distinct) (i : NodeId) (u : ConditionUpdate) :
    (t.updateCondition i u).2 = t.amend (Edit.updateCondition i u).amendment := by
  have hids := (List.nodup_cons.mp h).2
  by_cases hleaf : t.HasLeaf i
  · obtain ⟨c, hc⟩ := hleaf
    obtain ⟨q, hq, hpart⟩ := Option.map_eq_some_iff.mp ((Node.place?_part i t.children).trans hc)
    obtain ⟨part, put⟩ := q
    obtain rfl : part = .leaf i c := hpart
    have hput : put (.leaf i (c.updated u)) =
        Node.amend (Edit.updateCondition i u).amendment t.children := by
      apply (Node.reached_of_place? hq).put_eq_amend hids
      · intro n hn
        apply Edit.fixes_updateCondition
        rintro d rfl
        exact hn rfl
      · simp [Node.amend, Edit.amendment]
    rw [amend, ← hput, updateCondition, place?, hq]
    rfl
  · rw [(updateCondition_attempt h i u).eq_of_not hleaf, amend_eq_self rfl]
    intro n hn
    apply Edit.fixes_updateCondition
    rintro c rfl
    exact hleaf ⟨c, Node.find?_of_mem_all hids hn⟩

theorem updateGroup_eq_amend (h : t.Distinct) (i : NodeId) (new : GroupOperator) :
    (t.updateGroup i new).2 = t.amend (Edit.updateGroup i new).amendment := by
  obtain ⟨hroot, hids⟩ := List.nodup_cons.mp h
  have hother : ∀ n : Node, n.id ≠ i → (Edit.updateGroup i new).amendment.Fixes n := by
    intro n hn
    apply Edit.fixes_updateGroup
    rintro op cs rfl
    exact hn rfl
  by_cases hi : t.rootId = i
  · have hchildren : Node.amend (Edit.updateGroup i new).amendment t.children = t.children :=
      Node.amend_of_not_mem hother (hi ▸ hroot)
    rw [amend, hchildren, updateGroup, groupPlace?, if_pos hi]
    simp [Edit.amendment, hi]
  · have hoperator : (Edit.updateGroup i new).amendment.operator t.rootId t.operator = t.operator :=
      if_neg hi
    cases hq : Node.groupPlace? i t.children with
    | some q =>
      have hreached := Node.reached_of_groupPlace? hq
      have hput : q.put { q.part with operator := new } =
          Node.amend (Edit.updateGroup i new).amendment t.children := by
        apply hreached.put_eq_amend hids hother
        have hid : q.part.id = i := hreached.part_id
        have hinner := hreached.nodup_part hids
        rw [Group.toNode, Node.ids, hid, List.nodup_cons, Node.ids, List.append_nil] at hinner
        simp only [Group.toNode, Node.amend, Node.amend_of_not_mem hother hinner.1, hid]
        simp [Edit.amendment]
      rw [amend, hoperator, ← hput, updateGroup, groupPlace?, if_neg hi, hq]
      rfl
    | none =>
      rw [updateGroup, groupPlace?, if_neg hi, hq, amend_eq_self hoperator]
      · rfl
      · intro n hn
        apply Edit.fixes_updateGroup
        rintro op cs rfl
        have hleaf := Node.isGroup_of_groupPlace?_eq_none hq hn rfl
        simp [Node.isGroup] at hleaf

/-- What a local edit does, as a function of the whole tree. -/
def act (e : Edit) (t : Tree) : Tree :=
  (t.without e.removed).amend e.amendment

theorem Distinct.act (h : t.Distinct) (e : Edit) : (act e t).Distinct :=
  (h.without e.removed).amend e.amendment

theorem without_amend (is : List NodeId) (a : Amendment) (t : Tree) :
    (t.amend a).without is = (t.without is).amend a := by
  simp only [amend, without, Node.without_amend]

theorem amend_amend (a b : Amendment) (t : Tree) : (t.amend a).amend b = t.amend (a.andThen b) := by
  simp only [amend, Node.amend_amend]
  rfl

theorem amend_remove (i : NodeId) (t : Tree) : t.amend (Edit.remove i).amendment = t := by
  apply amend_eq_self rfl
  intro n hn
  cases n <;> rfl

theorem edit_eq_act (h : t.Distinct) (he : e.IsLocal) : t.edit e = act e t := by
  cases e with
  | updateCondition i u =>
    change (t.updateCondition i u).2 = (t.without []).amend _
    rw [without_nil, updateCondition_eq_amend h]
  | updateGroup i new =>
    change (t.updateGroup i new).2 = (t.without []).amend _
    rw [without_nil, updateGroup_eq_amend h]
  | remove i => rw [edit, act, amend_remove, remove_eq_without h, Edit.removed]
  | _ => cases he

theorem run_eq_foldl_act (h : t.Distinct) (hes : ∀ e ∈ es, e.IsLocal) :
    t.run es = es.foldl (fun t e => act e t) t := by
  induction es generalizing t with
  | nil => rfl
  | cons e es ih =>
    obtain ⟨he, hes⟩ := List.forall_mem_cons.mp hes
    have hstep : t.run (e :: es) = (t.edit e).run es := rfl
    rw [hstep, edit_eq_act h he, ih (h.act e) hes, List.foldl_cons]

theorem act_act (e f : Edit) (t : Tree) :
    act f (act e t) =
      (t.without (e.removed ++ f.removed)).amend (e.amendment.andThen f.amendment) := by
  rw [act, act, without_amend, amend_amend, without_without]

/-- Edits commute whatever the tree is like, once they are read as functions of all of it. -/
theorem act_comm (h : e.Apart f) (t : Tree) : act f (act e t) = act e (act f t) := by
  have hlist : ∀ i, i ∈ e.removed ++ f.removed ↔ i ∈ f.removed ++ e.removed := by
    intro i
    rw [List.mem_append, List.mem_append, or_comm]
  rw [act_act, act_act, Edit.amendment_comm h, without_congr hlist]

/-- The order of local edits does not count where no two of them change the same part of a node. -/
theorem run_perm (h : t.Distinct) (hes : ∀ e ∈ es, e.IsLocal) (hapart : es.Pairwise Edit.Apart)
    (hperm : es.Perm fs) : t.run es = t.run fs := by
  have hfs : ∀ e ∈ fs, e.IsLocal := by
    intro e he
    exact hes e (hperm.mem_iff.mpr he)
  rw [run_eq_foldl_act h hes, run_eq_foldl_act h hfs]
  apply hperm.foldl_eq'
  apply List.Pairwise.forall_of_forall_of_flip
  · intro e he t
    rfl
  · apply hapart.imp
    intro e f hef t
    exact act_comm hef t
  · apply hapart.imp
    intro e f hef t
    exact (act_comm hef t).symm

/-- Removals in any order end in the same tree, that without the listed nodes and their descendants;
what names no node below the root takes nothing out, nor does what an earlier removal took away.
Changes of conditions and of operators may stand among the removals in any order too, as long as no
two of them change the same condition or the same operator. -/
theorem removals_and_updates_commute (h : t.Distinct) :
    (∀ is js : List NodeId, is.Perm js →
      t.run (is.map .remove) = t.without is ∧ t.run (js.map .remove) = t.without is ∧
        Missing is t (t.without is)) ∧
    ∀ es fs : List Edit, es.Perm fs → (∀ e ∈ es, e.IsLocal) → es.Pairwise Edit.Apart →
      t.run es = t.run fs := by
  constructor
  · intro is js hperm
    have hsame : t.without js = t.without is := without_congr (fun i => hperm.mem_iff.symm) t
    exact ⟨run_remove_eq_without h is, (run_remove_eq_without h js).trans hsame,
      missing_without h is⟩
  · intro es fs hperm hlocal hapart
    exact run_perm h hlocal hapart hperm

/-- Two listed nodes lie in one another, one is listed twice, one is unknown and one is the root. -/
theorem removals_and_updates_commute_nested :
    let c : Condition := ⟨.equal, "amount", some (.integer 3), .constant⟩
    let t : Tree := ⟨⟨0⟩, .and,
      [.leaf ⟨1⟩ c, .group ⟨2⟩ .or [.leaf ⟨3⟩ c, .group ⟨4⟩ .not [.leaf ⟨5⟩ c], .leaf ⟨6⟩ c]],
      .counted, 7⟩
    let is : List NodeId := [⟨5⟩, ⟨4⟩, ⟨9⟩, ⟨0⟩, ⟨4⟩]
    let js : List NodeId := [⟨4⟩, ⟨0⟩, ⟨4⟩, ⟨5⟩, ⟨9⟩]
    let es : List Edit :=
      [.updateCondition ⟨5⟩ { field := some "total" }, .remove ⟨4⟩, .updateGroup ⟨2⟩ .and]
    let fs : List Edit :=
      [.updateGroup ⟨2⟩ .and, .remove ⟨4⟩, .updateCondition ⟨5⟩ { field := some "total" }]
    t.Distinct ∧ is.Perm js ∧ t.run (is.map .remove) = t.run (js.map .remove) ∧
      (t.run (js.map .remove)).ids = [⟨1⟩, ⟨2⟩, ⟨3⟩, ⟨6⟩] ∧ t.run es = t.run fs := by
  intro c t is js es fs
  have hdistinct : t.Distinct := by
    simp [t, Distinct, ids, Node.ids]
  have hperm : is.Perm js := by decide
  obtain ⟨hremovals, hedits⟩ := removals_and_updates_commute hdistinct
  obtain ⟨his, hjs, -⟩ := hremovals is js hperm
  have hmixed : es.Perm fs :=
    (List.Perm.swap _ _ _).trans (((List.Perm.swap _ _ _).cons _).trans (List.Perm.swap _ _ _))
  have hlocal : ∀ e ∈ es, e.IsLocal := by
    simp [es, Edit.IsLocal]
  have hapart : es.Pairwise Edit.Apart := by
    simp [es, Edit.Apart]
  refine ⟨hdistinct, hperm, his.trans hjs.symm, ?_, hedits es fs hmixed hlocal hapart⟩
  rw [hjs]
  simp [t, is, without, Node.without, ids, Node.ids]

end Tree

end RecordLogic.Filter
