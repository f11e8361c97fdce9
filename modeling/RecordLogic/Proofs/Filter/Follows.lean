import RecordLogic.Proofs.Filter.Marks
import RecordLogic.Proofs.Filter.Removal
import RecordLogic.Proofs.Filter.Replay

namespace RecordLogic.Filter

open History

variable {i j : NodeId} {kind : Kind} {step : Step}

/-- A session stands where its history says. -/
structure Follows (supply : Supply) (first : Nat) (h : History) (s : Session) : Prop where
  issued : s.tree.Issued
  supply_eq : s.tree.supply = supply
  next_eq : s.tree.next = first + 1 + additions h
  rootId_eq : s.tree.rootId = supply.give first
  refs : ∀ ref, s.refs.find? ref = (mark? h ref).map (identity supply first h)
  shown : ∀ x ∈ s.tree.entries, Shows supply first h x
  live : ∀ n, (kind? h n).isSome → left h n = false →
    identity supply first h (.added n) ∈ s.tree.ids

namespace Follows

variable {supply : Supply} {first : Nat} {h : History} {e : Event} {s : Session} {t' : Tree}
  {m : Mark} {n r : Nat}

theorem distinct (hf : Follows supply first h s) : s.tree.Distinct :=
  hf.issued.nodup

theorem rootId_not_mem (hf : Follows supply first h s) :
    identity supply first h .root ∉ s.tree.ids := by
  have hroot := (List.nodup_cons.mp hf.distinct).1
  rwa [hf.rootId_eq] at hroot

theorem has_iff (hf : Follows supply first h s) (hn : (kind? h n).isSome) :
    s.tree.Has (identity supply first h (.added n)) kind ↔
      kind? h n = some kind ∧ left h n = false := by
  have hgiven {kind : Kind} (hhas : s.tree.Has (identity supply first h (.added n)) kind) :
      kind? h n = some kind ∧ left h n = false := by
    obtain ⟨x, hx, hid, rfl⟩ := hhas
    obtain ⟨hleft, hkind, -⟩ := (hf.shown x hx).of_id hn hid
    exact ⟨hkind, hleft⟩
  refine ⟨hgiven, ?_⟩
  rintro ⟨hkind, hleft⟩
  obtain ⟨kind', hhas⟩ := Tree.mem_ids_iff_has.mp (hf.live n hn hleft)
  obtain rfl : kind' = kind := Option.some.inj ((hgiven hhas).1.symm.trans hkind)
  exact hhas

theorem mem_ids_iff (hf : Follows supply first h s) (hn : (kind? h n).isSome) :
    identity supply first h (.added n) ∈ s.tree.ids ↔ left h n = false := by
  refine ⟨fun hmem => ?_, hf.live n hn⟩
  obtain ⟨kind, hhas⟩ := Tree.mem_ids_iff_has.mp hmem
  exact ((hf.has_iff hn).mp hhas).2

theorem mark_mem_ids_iff (hf : Follows supply first h s) (hm : Knows h m) :
    identity supply first h m ∈ s.tree.ids ↔ m ≠ .root ∧ gone h m = false := by
  cases m with
  | root => simpa using hf.rootId_not_mem
  | added n => simpa [gone] using hf.mem_ids_iff (hm n rfl)

theorem hasLeaf_iff (hf : Follows supply first h s) (hm : Knows h m) :
    s.tree.HasLeaf (identity supply first h m) ↔
      (∃ n, m = .added n ∧ kind? h n ≠ some .group) ∧ gone h m = false := by
  rw [Tree.hasLeaf_iff hf.distinct]
  cases m with
  | root =>
    have hnot : ¬s.tree.Has (identity supply first h .root) .leaf := fun hhas =>
      hf.rootId_not_mem (Tree.mem_ids_iff_has.mpr ⟨_, hhas⟩)
    simp [hnot]
  | added n =>
    have hkinds : Kind.group ≠ .leaf := by decide
    simp [hf.has_iff (hm n rfl), kind?_ne_iff (hm n rfl) hkinds, gone]

theorem hasGroup_iff (hf : Follows supply first h s) (hm : Knows h m) :
    s.tree.HasGroup (identity supply first h m) ↔
      (∀ n, m = .added n → kind? h n ≠ some .leaf) ∧ gone h m = false := by
  rw [Tree.hasGroup_iff hf.distinct, hf.rootId_eq]
  cases m with
  | root => simp [identity, gone]
  | added n =>
    have hroot : identity supply first h (.added n) ≠ supply.give first := identity_ne_root
    have hkinds : Kind.leaf ≠ .group := by decide
    simp [hroot, hf.has_iff (hm n rfl), kind?_ne_iff (hm n rfl) hkinds, gone]

/-- A node that is in the tree stands below what it was added to. -/
theorem isParent_iff (hf : Follows supply first h s) (hn : (kind? h n).isSome)
    (hmem : identity supply first h (.added n) ∈ s.tree.ids) (hparent : parent? h n = some m) :
    s.tree.IsParent i (identity supply first h (.added n)) ↔ i = identity supply first h m := by
  have hparents {x : Entry} (hx : x ∈ s.tree.entries)
      (hid : x.id = identity supply first h (.added n)) :
      x.parent = identity supply first h m := by
    obtain ⟨-, -, m', hm', hmid⟩ := (hf.shown x hx).of_id hn hid
    rw [hmid, Option.some.inj (hparent.symm.trans hm')]
  constructor
  · rintro ⟨x, hx, rfl, hid⟩
    exact hparents hx hid
  · rintro rfl
    rw [← Tree.map_id_entries, List.mem_map] at hmem
    obtain ⟨x, hx, hid⟩ := hmem
    exact ⟨x, hx, hparents hx hid, hid⟩

theorem not_reaches_root (hf : Follows supply first h s) :
    ¬s.tree.Reaches (identity supply first h (.added r)) (identity supply first h .root) := by
  intro hreaches
  rcases hreaches.cases_tail with heq | ⟨i, -, e, he, -, hid⟩
  · exact identity_ne_root heq.symm
  · exact hf.rootId_not_mem (hid ▸ Node.id_mem_of_mem_entries he)

/-- The descendants of a node in the tree are those that have it among their ancestors. -/
theorem reaches_iff (hf : Follows supply first h s) (hr : (kind? h r).isSome)
    (hn : (kind? h n).isSome) (hmem : identity supply first h (.added n) ∈ s.tree.ids) :
    s.tree.Reaches (identity supply first h (.added r)) (identity supply first h (.added n)) ↔
      r ∈ lineage h n := by
  induction n using Nat.strongRecOn with
  | _ n ih =>
    obtain ⟨x, hx, hid⟩ : ∃ x ∈ s.tree.entries, x.id = identity supply first h (.added n) := by
      rwa [← Tree.map_id_entries, List.mem_map] at hmem
    obtain ⟨-, -, m, hparent, hmid⟩ := (hf.shown x hx).of_id hn hid
    have hstep : s.tree.Reaches (identity supply first h (.added r))
        (identity supply first h (.added n)) ↔
        r = n ∨
          s.tree.Reaches (identity supply first h (.added r)) (identity supply first h m) := by
      rw [Tree.Reaches, Relation.ReflTransGen.cases_tail_iff]
      refine or_congr ⟨fun heq => (identity_inj hn hr heq).symm, fun heq => heq ▸ rfl⟩ ?_
      simp only [hf.isParent_iff hn hmem hparent, exists_eq_right]
    rw [hstep, lineage_eq (lt_of_kind? hn), hparent]
    cases m with
    | root => simp [hf.not_reaches_root]
    | added p =>
      obtain ⟨hlt, hp⟩ := parent?_added hparent
      have hpmem : identity supply first h (.added p) ∈ s.tree.ids := by
        have hor := Node.parent_mem_of_mem_entries hx
        rw [hmid] at hor
        refine (List.mem_cons.mp hor).resolve_left fun heq => ?_
        exact identity_ne_root (heq.trans hf.rootId_eq)
      rw [ih p hlt hp hpmem, List.mem_cons]

/-- An edit that adds nothing: what it takes out is gone, and all else stands as it stood. -/
theorem keep (hf : Follows supply first h s) (hadds : e.applied = true → e.step.adds? = none)
    (hissued : t'.Issued) (hsupply : t'.supply = s.tree.supply) (hnext : t'.next = s.tree.next)
    (hroot : t'.rootId = s.tree.rootId)
    (hentries : ∀ x ∈ t'.entries, ∃ y ∈ s.tree.entries, x.id = y.id ∧ x.parent = y.parent ∧
      x.content.kind = y.content.kind)
    (hids : ∀ n, (kind? h n).isSome → left h n = false →
      (identity supply first h (.added n) ∈ t'.ids ↔ takesOut h e n = false)) :
    Follows supply first (e :: h) ⟨t', s.refs⟩ where
  issued := hissued
  supply_eq := hsupply.trans hf.supply_eq
  next_eq := by
    have hnot : ¬(e.applied = true ∧ e.step.adds?.isSome = true) := by
      rintro ⟨happlied, hsome⟩
      simp [hadds happlied] at hsome
    rw [hnext, hf.next_eq, additions, if_neg hnot]
  rootId_eq := hroot.trans hf.rootId_eq
  refs ref := by
    have hnot : ¬(e.applied = true ∧ e.step.ref? = some ref) := by
      rintro ⟨happlied, hbinds⟩
      have hsome := Step.adds?_isSome_of_ref? hbinds
      simp [hadds happlied] at hsome
    rw [hf.refs ref, mark?, if_neg hnot, map_identity_cons]
  shown x hx := by
    obtain ⟨y, hy, hid, hparent, hkind⟩ := hentries x hx
    refine (hf.shown y hy).cons hid hparent hkind fun n hn hleft hnid => ?_
    have hmem : x.id ∈ t'.ids := Node.id_mem_of_mem_entries hx
    exact (hids n hn hleft).mp (hnid ▸ hmem)
  live n hn hleft := by
    have hne : n ≠ h.length := by
      rintro rfl
      rw [kind?_cons_length] at hn
      split at hn
      · rename_i happlied
        simp [hadds happlied] at hn
      · simp at hn
    rw [kind?_cons_of_ne hne] at hn
    rw [identity_added_cons hn]
    simp only [left, Bool.or_eq_false_iff, Bool.and_eq_false_imp, decide_eq_true_eq] at hleft
    exact (hids n hn hleft.1).mpr (hleft.2 (lt_of_kind? hn))

/-- An edit that was not made changes nothing. -/
theorem unchanged (hf : Follows supply first h s) (step : Step) :
    Follows supply first (⟨step, false⟩ :: h) s := by
  refine hf.keep nofun hf.issued rfl rfl rfl (fun x hx => ⟨x, hx, rfl, rfl, rfl⟩) ?_
  intro n hn hleft
  simp [hf.mem_ids_iff hn, hleft, takesOut]

/-- A node that was added is the one that its ref stands for from now on. -/
theorem added (hf : Follows supply first h s) {content : Content}
    (hadds : step.adds? = some content.kind) (hplace : place? h step = some m)
    (hissued : t'.Issued) (hsupply : t'.supply = s.tree.supply)
    (hnext : t'.next = s.tree.next + 1)
    (happended : Tree.Appended
      ⟨s.tree.supply.give s.tree.next, identity supply first h m, content⟩ s.tree t')
    {refs : Table NodeId} (hrefs : ∀ ref, refs.find? ref =
      if step.ref? = some ref then some (s.tree.supply.give s.tree.next) else s.refs.find? ref) :
    Follows supply first (⟨step, true⟩ :: h) ⟨t', refs⟩ := by
  obtain ⟨before, after, hold, hnew⟩ := happended.entries_eq
  have hid : s.tree.supply.give s.tree.next =
      identity supply first (⟨step, true⟩ :: h) (.added h.length) := by
    rw [identity, number_cons_length, hf.supply_eq, hf.next_eq]
  have hkept (n : Nat) : takesOut h ⟨step, true⟩ n = false := takesOut_of_adds? hadds n
  refine {
    issued := hissued
    supply_eq := hsupply.trans hf.supply_eq
    rootId_eq := happended.rootId_eq.trans hf.rootId_eq
    next_eq := ?next
    refs := fun ref => ?refs
    shown := fun x hx => ?shown
    live := fun n hn hleft => ?live }
  case next =>
    rw [hnext, hf.next_eq, additions, if_pos ⟨rfl, by simp [hadds]⟩]
    rfl
  case refs =>
    rw [hrefs ref, mark?]
    by_cases hbinds : step.ref? = some ref
    · rw [if_pos hbinds, if_pos ⟨rfl, hbinds⟩, Option.map_some, hid]
    · rw [if_neg hbinds, if_neg fun hand => hbinds hand.2, hf.refs ref, map_identity_cons]
  case shown =>
    have hcases : x = ⟨s.tree.supply.give s.tree.next, identity supply first h m, content⟩ ∨
        x ∈ s.tree.entries := by
      rw [hnew, List.mem_append, List.mem_cons] at hx
      rw [hold, List.mem_append]
      tauto
    rcases hcases with rfl | hx
    · refine ⟨h.length, m, left_cons_length, ?_, ?_, hid, ?_⟩
      · rw [kind?_cons_length, if_pos rfl, hadds]
      · rw [parent?_cons_length, hplace]
      · rw [identity_cons (knows_of_place? hplace)]
    · exact (hf.shown x hx).cons rfl rfl rfl fun n _ _ _ => hkept n
  case live =>
    rw [← Tree.map_id_entries, hnew, List.map_append, List.map_cons]
    by_cases hlast : n = h.length
    · rw [hlast, ← hid]
      exact List.mem_append_right _ List.mem_cons_self
    · rw [kind?_cons_of_ne hlast] at hn
      rw [left_cons_of_kept (hkept n)] at hleft
      have hmem := hf.live n hn hleft
      rw [← Tree.map_id_entries, hold, List.map_append, List.mem_append] at hmem
      rw [identity_added_cons hn]
      exact List.mem_append.mpr (hmem.imp_right (List.mem_cons_of_mem _))

end Follows

end RecordLogic.Filter
