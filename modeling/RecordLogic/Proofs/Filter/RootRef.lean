import RecordLogic.Proofs.Filter.Resolution

namespace RecordLogic.Filter

open History

variable {n m k : Nat} {steps later : List Step}

theorem Session.after_append_eq_ok_iff {s u : Session} :
    s.after n (steps ++ later) = .ok u ↔
      ∃ v, s.after n steps = .ok v ∧ v.after (n + steps.length) later = .ok u := by
  induction steps generalizing s n with
  | nil => simp [after]
  | cons step steps ih =>
    rw [List.cons_append, after_cons_eq_ok_iff]
    simp only [ih, after_cons_eq_ok_iff]
    have hlength : n + 1 + steps.length = n + (step :: steps).length := by
      rw [List.length_cons]
      omega
    rw [hlength]
    constructor
    · rintro ⟨r, happlies, v, hv, hu⟩
      exact ⟨v, ⟨r, happlies, hv⟩, hu⟩
    · rintro ⟨v, ⟨r, happlies, hv⟩, hu⟩
      exact ⟨r, happlies, v, hv, hu⟩

/-- `root` stands for the root until an addition that is made carries it. -/
theorem History.mark?_root_iff {h : History} : mark? h "root" = some .root ↔
    ¬∃ e ∈ h, e.applied ∧ e.step.ref? = some "root" := by
  induction h with
  | nil => simp [mark?]
  | cons e h ih =>
    rw [mark?, List.exists_mem_cons_iff, not_or, ← ih]
    by_cases hbinds : e.applied ∧ e.step.ref? = some "root"
    · simp [hbinds]
    · rw [if_neg hbinds]
      exact ⟨fun hroot => ⟨hbinds, hroot⟩, And.right⟩

namespace Script

variable {script : Script} {start u v : Session} {step : Step} {supply : Supply} {first : Nat}

/-- An edit before this one added a node under the ref `root`. -/
def RootTaken (script : Script) (start : Session) (n : Nat) : Prop :=
  ∃ k < n, ∃ step v s, script.steps[k]? = some step ∧ step.ref? = some "root" ∧
    start.after 0 (script.steps.take k) = .ok v ∧ v.apply k step = .ok (true, s)

theorem rootTaken_succ_of_none (h : script.steps[n]? = none) :
    script.RootTaken start (n + 1) ↔ script.RootTaken start n := by
  constructor
  · rintro ⟨k, hk, step, v, s, hstep, hrest⟩
    have hne : k ≠ n := by
      rintro rfl
      rw [h] at hstep
      cases hstep
    exact ⟨k, by omega, step, v, s, hstep, hrest⟩
  · rintro ⟨k, hk, hrest⟩
    exact ⟨k, Nat.lt_succ_of_lt hk, hrest⟩

theorem rootTaken_succ (hstep : script.steps[n]? = some step)
    (hv : start.after 0 (script.steps.take n) = .ok v) {r : Bool × Session}
    (happlies : v.Applies step r) : script.RootTaken start (n + 1) ↔
      r.1 ∧ step.ref? = some "root" ∨ script.RootTaken start n := by
  have happly : v.apply n step = .ok r := Session.apply_eq_ok_iff.mpr happlies
  constructor
  · rintro ⟨k, hk, step', v', s, hstep', href, hv', hmade⟩
    rcases Nat.lt_or_eq_of_le (Nat.le_of_lt_succ hk) with hlt | rfl
    · exact Or.inr ⟨k, hlt, step', v', s, hstep', href, hv', hmade⟩
    · cases hstep.symm.trans hstep'
      cases hv.symm.trans hv'
      cases happly.symm.trans hmade
      exact Or.inl ⟨rfl, href⟩
  · rintro (⟨hmade, href⟩ | ⟨k, hk, hrest⟩)
    · obtain ⟨made, s⟩ := r
      obtain rfl : made = true := hmade
      exact ⟨n, Nat.lt_succ_self n, step, v, s, hstep, href, hv, happly⟩
    · exact ⟨k, Nat.lt_succ_of_lt hk, hrest⟩

/-- By induction on the edits: those that were made are those of the history. -/
theorem rootTaken_iff (hstart : Follows supply first [] start)
    (hu : start.after 0 (script.steps.take n) = .ok u) : script.RootTaken start n ↔
      ∃ e ∈ script.before n, e.applied ∧ e.step.ref? = some "root" := by
  induction n generalizing u with
  | zero => simp [RootTaken, before, extend]
  | succ n ih =>
    rw [List.take_add_one] at hu
    cases hstep : script.steps[n]? with
    | none =>
      have hbefore : script.before (n + 1) = script.before n := by
        rw [before, List.take_add_one, hstep, Option.toList_none, List.append_nil, before]
      rw [hstep, Option.toList_none, List.append_nil] at hu
      rw [rootTaken_succ_of_none hstep, hbefore, ih hu]
    | some step =>
      rw [hstep, Option.toList_some, Session.after_append_eq_ok_iff] at hu
      obtain ⟨v, hv, hlast⟩ := hu
      obtain ⟨r, happlies, -⟩ := Session.after_cons_eq_ok_iff.mp hlast
      have hfollows : Follows supply first (script.before n) v := hstart.after hv
      obtain ⟨hmade, -⟩ := hfollows.applies happlies
      rw [rootTaken_succ hstep hv happlies, ih hv, before_succ hstep, record,
        List.exists_mem_cons_iff, hmade]

/-- The ref `root` names the root group, as a target and as a parent, at exactly the edits before
which no addition that was made carries it. From then on it names another node. -/
theorem root_ref_iff (script : Script) (default : GroupOperator) (first : Nat) (supply : Supply)
    (n : Nat) {u : Session}
    (hu : (Session.start (script.rootOperator.getD default) first supply).after 0
      (script.steps.take n) = .ok u) :
    let start := Session.start (script.rootOperator.getD default) first supply
    u.tree.rootId = start.tree.rootId ∧
    ∃ i, u.resolve n "root" = .ok i ∧ u.resolveParent n (some "root") = .ok (some i) ∧
      (i = u.tree.rootId ↔ ¬script.RootTaken start n) := by
  intro start
  have hstart : Follows supply first [] start := Session.start_follows _ first supply
  have hfollows : Follows supply first (script.before n) u := hstart.after hu
  refine ⟨hfollows.rootId_eq, ?_⟩
  rw [rootTaken_iff hstart hu, ← mark?_root_iff]
  cases hm : mark? (script.before n) "root" with
  | none => exact absurd rfl (mark?_eq_none_iff.mp hm).1
  | some m =>
    have hfound : u.refs.find? "root" = some (identity supply first (script.before n) m) := by
      rw [hfollows.refs, hm, Option.map_some]
    refine ⟨_, Session.resolve_eq_ok_iff.mpr hfound,
      Session.resolveParent_eq_ok_iff.mpr ⟨_, hfound, rfl⟩, ?_⟩
    rw [hfollows.rootId_eq, Option.some.injEq]
    cases m with
    | root => exact iff_of_true rfl rfl
    | added k => exact iff_of_false identity_ne_root (by simp)

/-- An addition under a condition fails and leaves `root` alone; the one after it binds `root` to a
group of its own. -/
theorem root_ref_iff_failed_addition :
    let c : Condition := ⟨.equal, "a", some (.integer 3), .constant⟩
    let script : Script := ⟨none, [.addGroup "g" none .or, .addCondition "c" "g" c,
      .addCondition "root" "c" c, .addGroup "root" "root" .not, .remove "root"]⟩
    let start := Session.start .and 0
    (∃ u, start.after 0 (script.steps.take 3) = .ok u ∧
      u.resolve 3 "root" = .ok u.tree.rootId ∧ ¬script.RootTaken start 3) ∧
    ∃ u, start.after 0 (script.steps.take 4) = .ok u ∧
      u.resolve 4 "root" ≠ .ok u.tree.rootId ∧ script.RootTaken start 4 := by
  intro c script start
  have hruns : (∃ u, start.after 0 (script.steps.take 3) = .ok u ∧
        u.resolve 3 "root" = .ok u.tree.rootId) ∧
      ∃ u, start.after 0 (script.steps.take 4) = .ok u ∧
        u.resolve 4 "root" ≠ .ok u.tree.rootId := by
    simp [start, script, c, Session.start, Session.after, Session.apply, Session.resolveParent,
      Session.resolve, Session.bound, Tree.new, Tree.addCondition, Tree.addGroup, Tree.add,
      Tree.attach?, Tree.groupPlace?, Node.groupPlace?, Group.push, Group.toNode, Place.within,
      Supply.counted, Table.find?_insert_self, Table.find?_insert_of_ne, bind, pure, Except.bind,
      Except.pure, Except.map]
  obtain ⟨⟨u, hu, hroot⟩, u', hu', hother⟩ := hruns
  constructor
  · obtain ⟨-, i, hi, -, hiff⟩ := root_ref_iff script .and 0 .counted 3 hu
    cases hi.symm.trans hroot
    exact ⟨u, hu, hroot, hiff.mp rfl⟩
  · obtain ⟨-, i, hi, -, hiff⟩ := root_ref_iff script .and 0 .counted 4 hu'
    refine ⟨u', hu', hother, ?_⟩
    by_contra hfree
    exact hother (hiff.mpr hfree ▸ hi)

/-- A condition takes the ref `root`: the operator of the root can no longer be set by that name. -/
theorem root_ref_rebound :
    let c : Condition := ⟨.equal, "a", some (.integer 3), .constant⟩
    let script : Script := ⟨none, [.addCondition "root" none c, .setGroupOperator "root" .or]⟩
    (∃ u, (Session.start .and 0).after 0 (script.steps.take 1) = .ok u ∧
      u.resolve 1 "root" = .ok ⟨1⟩ ∧ u.tree.rootId = ⟨0⟩) ∧
    script.replay .and = .ok ⟨⟨⟨0⟩, .and, [.leaf ⟨1⟩ c], .counted, 2⟩, [1]⟩ := by
  simp [replay, Session.start, Session.run, Session.after, Session.apply, Session.resolveParent,
    Session.resolve, Session.bound, Session.changed, Tree.new, Tree.addCondition, Tree.add,
    Tree.attach?, Tree.groupPlace?, Node.groupPlace?, Tree.updateGroup, Supply.counted,
    Table.find?_insert_self, bind, pure, Except.bind, Except.pure]

end Script

end RecordLogic.Filter
