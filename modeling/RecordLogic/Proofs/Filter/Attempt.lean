import RecordLogic.Proofs.Filter.Splice

namespace RecordLogic.Filter

variable {i r : NodeId} {n : Node} {ns : List Node} {e : Entry} {es : List Entry}

/-- What a change gives is in the second condition, and all else is as in the first. -/
structure ConditionUpdate.Overwrites (u : ConditionUpdate) (c d : Condition) : Prop where
  operator_eq : d.operator = u.operator.getD c.operator
  field_eq : d.field = u.field.getD c.field
  value_eq : d.value = u.value.or c.value
  source_eq : d.source = u.source.getD c.source

theorem Condition.overwrites_updated (c : Condition) (u : ConditionUpdate) :
    u.Overwrites c (c.updated u) :=
  ⟨rfl, rfl, rfl, rfl⟩

/-- The entry with other content if it belongs to the node. -/
def Entry.rewrite (i : NodeId) (content : Content) (e : Entry) : Entry :=
  if e.id = i then { e with content } else e

@[simp]
theorem Entry.parent_rewrite (i : NodeId) (content : Content) (e : Entry) :
    (e.rewrite i content).parent = e.parent := by
  rw [rewrite]
  split <;> rfl

theorem Entry.map_rewrite_of_ne (content : Content) (h : ∀ e ∈ es, e.id ≠ i) :
    es.map (Entry.rewrite i content) = es := by
  have hsame : ∀ e ∈ es, e.rewrite i content = e := by
    intro e he
    rw [rewrite, if_neg (h e he)]
  rw [List.map_congr_left hsame, List.map_id']

namespace Node

theorem parent_mem_of_mem_entries (h : e ∈ entries r ns) : e.parent ∈ r :: ids ns := by
  fun_induction entries r ns with
  | case1 => simp at h
  | case2 r i c ns ih =>
    simp only [ids, List.mem_cons] at h ih ⊢
    rcases h with rfl | h
    · exact Or.inl rfl
    · exact (ih h).imp_right Or.inr
  | case3 r i op cs ns ihc ihn =>
    simp only [ids, List.mem_cons, List.mem_append] at h ihc ihn ⊢
    rcases h with rfl | h | h
    · exact Or.inl rfl
    · exact Or.inr ((ihc h).imp_right Or.inl)
    · exact (ihn h).imp_right fun hmem => Or.inr (Or.inr hmem)

/-- A node that is pushed into a group comes behind all that has the group as its parent. -/
theorem groupPlace?_push_splits {p : Place Group (List Node)} (hp : groupPlace? i ns = some p)
    (hnd : (r :: ids ns).Nodup) (n : Node) :
    ∃ before after, entries r ns = before ++ after ∧
      entries r (p.put (p.part.push n)) = before ++ entries i [n] ++ after ∧
      ∀ e ∈ after, e.parent ≠ i := by
  have hreached := reached_of_groupPlace? hp
  have hid : p.part.id = i := hreached.part_id
  obtain ⟨before, q, after, hsplit⟩ := hreached.splits r
  have hold := hsplit p.part
  rw [hreached.put_part] at hold
  refine ⟨before ++ ⟨i, q, .group p.part.operator⟩ :: entries i p.part.children, after, ?_, ?_, ?_⟩
  · simp [hold, Group.toNode, entries, hid]
  · simp [hsplit, Group.push, Group.toNode, entries, hid]
  · intro e he hparent
    let other : Group := ⟨r, p.part.operator, []⟩
    have hentries := hsplit other
    have hmem : e ∈ entries r (p.put other) := by
      rw [hentries]
      exact List.mem_append_right _ he
    have hids : ids (p.put other) = before.map Entry.id ++ r :: after.map Entry.id := by
      rw [← map_id_entries r, hentries]
      simp [other, Group.toNode, ids]
    have hi := parent_mem_of_mem_entries hmem
    rw [hparent, hids] at hi
    have hnot : i ∉ r :: (before.map Entry.id ++ r :: after.map Entry.id) := by
      rw [← map_id_entries r, hold] at hnd
      simp only [List.map_append, map_id_entries, Group.toNode, ids, hid, List.cons_append,
        List.append_assoc, List.nodup_cons, List.nodup_middle, List.mem_append, List.mem_cons,
        not_or] at hnd ⊢
      grind
    exact hnot hi

end Node

namespace Tree

variable {t t' : Tree} {q : NodeId} {old new content : Content} {parent : Option NodeId}

/-- No two nodes have the same identity, and none has that of the root. -/
def Distinct (t : Tree) : Prop :=
  (t.rootId :: t.ids).Nodup

/-- The entries of the children of a node in their order. -/
def under (t : Tree) (p : NodeId) : List Entry :=
  t.entries.filter (·.parent = p)

/-- The identity belongs to a leaf. -/
def HasLeaf (t : Tree) (i : NodeId) : Prop :=
  ∃ c, t.find? i = some (.leaf i c)

/-- The identity belongs to the root or to a group below it. -/
def HasGroup (t : Tree) (i : NodeId) : Prop :=
  i = t.rootId ∨ ∃ op cs, t.find? i = some (.group i op cs)

/-- How an operation ends: if it was possible, it reports success after its change; if not, it
reports failure and the tree is the one it was. -/
structure Attempt (possible : Prop) (change : Tree → Prop) (t : Tree) (result : Bool × Tree) :
    Prop where
  success_iff : result.1 = true ↔ possible
  changed : result.1 = true → change result.2
  unchanged : result.1 = false → result.2 = t

namespace Attempt

variable {possible : Prop} {change : Tree → Prop} {result : Bool × Tree}

theorem of_failed (h : ¬possible) : Attempt possible change t (false, t) :=
  ⟨by simp [h], by simp, fun _ => rfl⟩

theorem of_changed (h : possible) (hchange : change t') : Attempt possible change t (true, t') :=
  ⟨by simp [h], fun _ => hchange, by simp⟩

theorem eq_of_not (h : Attempt possible change t result) (hnot : ¬possible) :
    result = (false, t) := by
  have hfailed : result.1 = false := by
    rw [← Bool.not_eq_true, h.success_iff]
    exact hnot
  exact Prod.ext hfailed (h.unchanged hfailed)

end Attempt

/-- One node came last under its parent; all others stand where they stood. -/
structure Appended (e : Entry) (t t' : Tree) : Prop where
  rootId_eq : t'.rootId = t.rootId
  operator_eq : t'.operator = t.operator
  entries_eq : ∃ before after, t.entries = before ++ after ∧ t'.entries = before ++ e :: after
  under_eq : ∀ p, t'.under p = t.under p ++ if p = e.parent then [e] else []

theorem Appended.of_entries (hroot : t'.rootId = t.rootId) (hoperator : t'.operator = t.operator)
    {before after : List Entry} (hold : t.entries = before ++ after)
    (hnew : t'.entries = before ++ e :: after) (hafter : ∀ x ∈ after, x.parent ≠ e.parent) :
    Appended e t t' := by
  refine ⟨hroot, hoperator, ⟨before, after, hold, hnew⟩, fun p => ?_⟩
  rw [under, under, hold, hnew, List.filter_append, List.filter_append]
  by_cases hp : p = e.parent
  · have hnone : after.filter (·.parent = p) = [] := by
      rw [List.filter_eq_nil_iff]
      intro x hx
      simpa [hp] using hafter x hx
    simp [hp, hp ▸ hnone]
  · simp [hp, Ne.symm hp]

/-- One node, which may be the root, holds something else; it keeps its identity, and every node
keeps its parent and its place among its siblings. -/
structure Rewritten (i : NodeId) (content : Content) (t t' : Tree) : Prop where
  rootId_eq : t'.rootId = t.rootId
  root_eq : Content.group t'.operator = if i = t.rootId then content else .group t.operator
  entries_eq : t'.entries = t.entries.map (Entry.rewrite i content)
  under_eq : ∀ p, t'.under p = (t.under p).map (Entry.rewrite i content)

theorem Rewritten.of_entries (hroot : t'.rootId = t.rootId)
    (hcontent : Content.group t'.operator = if i = t.rootId then content else .group t.operator)
    (hentries : t'.entries = t.entries.map (Entry.rewrite i content)) :
    Rewritten i content t t' := by
  refine ⟨hroot, hcontent, hentries, fun p => ?_⟩
  rw [under, under, hentries, List.filter_map]
  congr 2
  funext e
  simp

/-- In a tree with distinct identities one entry gives way alone. -/
theorem Spliced.entries_rewrite (h : t.Distinct) (hs : Spliced [⟨i, q, old⟩] [⟨i, q, new⟩] t t') :
    i ≠ t.rootId ∧ t'.entries = t.entries.map (Entry.rewrite i new) := by
  obtain ⟨-, -, before, after, hold, hnew⟩ := hs
  have hnd := h
  rw [Distinct, ← map_id_entries, hold] at hnd
  simp only [List.map_append, List.map_cons, List.append_assoc,
    List.singleton_append, List.nodup_cons, List.nodup_middle] at hnd
  obtain ⟨hroot, hi, -⟩ := hnd
  have hne : ∀ e ∈ before ++ after, e.id ≠ i := by
    intro e he heq
    rw [← List.map_append] at hi
    exact hi (heq ▸ List.mem_map_of_mem he)
  have hbefore := Entry.map_rewrite_of_ne new fun e he => hne e (List.mem_append_left after he)
  have hafter := Entry.map_rewrite_of_ne new fun e he => hne e (List.mem_append_right before he)
  refine ⟨?_, ?_⟩
  · rintro rfl
    simp at hroot
  · simp [hold, hnew, hbefore, hafter, Entry.rewrite]

end Tree

end RecordLogic.Filter
