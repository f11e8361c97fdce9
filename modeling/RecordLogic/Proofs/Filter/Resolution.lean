import RecordLogic.Proofs.Filter.FollowsEdit

namespace RecordLogic.Filter

open History

variable {step : Step} {steps : List Step} {n k : Nat} {e : UnknownRef}

theorem bind_eq_error {α β : Type} {x : Except UnknownRef α} {f : α → Except UnknownRef β} :
    x >>= f = .error e ↔ x = .error e ∨ ∃ a, x = .ok a ∧ f a = .error e := by
  cases x <;> simp [bind, Except.bind]

namespace Session

variable {s u : Session} {replay : Replay}

/-- The session after edits, of which the first has number `n`. -/
def after (s : Session) (n : Nat) : List Step → Except UnknownRef Session
  | [] => .ok s
  | step :: steps => do
    let (_, s) ← s.apply n step
    s.after (n + 1) steps

theorem resolve_eq_error_iff {ref : String} :
    s.resolve n ref = .error e ↔ s.refs.find? ref = none ∧ e = ⟨n, ref⟩ := by
  rw [resolve]
  cases s.refs.find? ref <;> simp [eq_comm]

theorem resolveParent_eq_error_iff {parent : Option String} : s.resolveParent n parent = .error e ↔
    ∃ ref, parent = some ref ∧ s.refs.find? ref = none ∧ e = ⟨n, ref⟩ := by
  cases parent with
  | none => simp [resolveParent]
  | some ref =>
    have hsame : s.resolveParent n (some ref) = .error e ↔ s.resolve n ref = .error e := by
      rw [resolveParent]
      cases s.resolve n ref <;> simp [Except.map]
    simp [hsame, resolve_eq_error_iff]

/-- An edit fails exactly if the ref that it names is not bound. -/
theorem apply_eq_error_iff : s.apply n step = .error e ↔
    ∃ ref, step.named? = some ref ∧ s.refs.find? ref = none ∧ e = ⟨n, ref⟩ := by
  cases step <;>
    simp [apply, bind_eq_error, resolve_eq_error_iff, resolveParent_eq_error_iff, Step.named?, pure,
      Except.pure]

theorem run_cons_eq_error_iff : s.run n (step :: steps) = .error e ↔
    s.apply n step = .error e ∨ ∃ r, s.Applies step r ∧ r.2.run (n + 1) steps = .error e := by
  rw [run, bind_eq_error]
  refine or_congr_right (exists_congr fun r => and_congr apply_eq_ok_iff ?_)
  rw [bind_eq_error]
  simp [pure, Except.pure]

theorem after_cons_eq_ok_iff : s.after n (step :: steps) = .ok u ↔
    ∃ r, s.Applies step r ∧ r.2.after (n + 1) steps = .ok u := by
  rw [after, Json.bind_eq_ok]
  exact exists_congr fun r => and_congr_left fun _ => apply_eq_ok_iff

/-- A run that ends goes through a session after each edit. -/
theorem exists_after_of_run (hrun : s.run n steps = .ok replay) (k : Nat) :
    ∃ u, s.after n (steps.take k) = .ok u := by
  induction steps generalizing s n k replay with
  | nil => exact ⟨s, by rw [List.take_nil]; rfl⟩
  | cons step steps ih =>
    obtain ⟨b, s', rest, happlies, hrest, -⟩ := run_cons_eq_ok_iff.mp hrun
    cases k with
    | zero => exact ⟨s, rfl⟩
    | succ k =>
      obtain ⟨u, hu⟩ := ih hrest k
      exact ⟨u, after_cons_eq_ok_iff.mpr ⟨(b, s'), happlies, hu⟩⟩

end Session

namespace History

variable {h : History} {ref : String}

/-- An edit names a ref that stands for nothing when its turn comes. -/
def Unknown (h : History) (steps : List Step) (k : Nat) (ref : String) : Prop :=
  ∃ step, steps[k]? = some step ∧ step.named? = some ref ∧
    mark? (h.extend (steps.take k)) ref = none

/-- An edit changes nothing when its turn comes. -/
def Idles (h : History) (steps : List Step) (k : Nat) : Prop :=
  ∃ step, steps[k]? = some step ∧ idle (h.extend (steps.take k)) step

theorem unknown_zero :
    Unknown h (step :: steps) 0 ref ↔ step.named? = some ref ∧ mark? h ref = none := by
  simp [Unknown, extend]

theorem unknown_succ :
    Unknown h (step :: steps) (k + 1) ref ↔ Unknown (record h step) steps k ref := by
  simp [Unknown, extend]

theorem idles_zero : Idles h (step :: steps) 0 ↔ idle h step := by
  simp [Idles, extend]

theorem idles_succ : Idles h (step :: steps) (k + 1) ↔ Idles (record h step) steps k := by
  simp [Idles, extend]

end History

namespace Follows

variable {supply : Supply} {first : Nat} {h : History} {s u : Session} {replay : Replay}

theorem find?_eq_none_iff (hf : Follows supply first h s) {ref : String} :
    s.refs.find? ref = none ↔ mark? h ref = none := by
  rw [hf.refs ref, Option.map_eq_none_iff]

theorem not_unknown_of_applies (hf : Follows supply first h s) {r : Bool × Session}
    (happlies : s.Applies step r) (ref : String) : ¬Unknown h (step :: steps) 0 ref := by
  intro hunknown
  obtain ⟨hnamed, hm⟩ := unknown_zero.mp hunknown
  have hfailed : s.apply h.length step = .error ⟨h.length, ref⟩ :=
    Session.apply_eq_error_iff.mpr ⟨ref, hnamed, hf.find?_eq_none_iff.mpr hm, rfl⟩
  rw [Session.apply_eq_ok_iff.mpr happlies] at hfailed
  cases hfailed

/-- A run that fails does so at the first edit that names an unknown ref. -/
theorem run_error (hf : Follows supply first h s) (hrun : s.run h.length steps = .error e) :
    ∃ k, e.step = h.length + k ∧ Unknown h steps k e.ref ∧
      ∀ l < k, ∀ ref, ¬Unknown h steps l ref := by
  induction steps generalizing s h with
  | nil => cases hrun
  | cons step steps ih =>
    rcases Session.run_cons_eq_error_iff.mp hrun with hfailed | ⟨r, happlies, hrest⟩
    · obtain ⟨ref, hnamed, hunbound, rfl⟩ := Session.apply_eq_error_iff.mp hfailed
      refine ⟨0, rfl, unknown_zero.mpr ⟨hnamed, hf.find?_eq_none_iff.mp hunbound⟩, ?_⟩
      exact fun l hl => absurd hl (Nat.not_lt_zero l)
    · obtain ⟨k, hstep, hunknown, hleast⟩ := ih (hf.applies happlies).2 hrest
      refine ⟨k + 1, by rw [hstep, length_record]; omega, unknown_succ.mpr hunknown, ?_⟩
      intro l hl ref
      cases l with
      | zero => exact hf.not_unknown_of_applies happlies ref
      | succ l => exact mt unknown_succ.mp (hleast l (Nat.lt_of_succ_lt_succ hl) ref)

/-- A run that ends names no unknown ref and skips the edits that are idle. -/
theorem run_ok (hf : Follows supply first h s) (hrun : s.run h.length steps = .ok replay) :
    (∀ k ref, ¬Unknown h steps k ref) ∧ replay.skipped.Pairwise (· < ·) ∧
      ∀ n, n ∈ replay.skipped ↔ ∃ k, n = h.length + k ∧ Idles h steps k := by
  induction steps generalizing s h replay with
  | nil =>
    cases hrun
    simp [Unknown, Idles]
  | cons step steps ih =>
    obtain ⟨b, s', rest, happlies, hrest, rfl⟩ := Session.run_cons_eq_ok_iff.mp hrun
    obtain ⟨hb, hnext⟩ := hf.applies happlies
    obtain ⟨hknown, hsorted, hskipped⟩ := ih hnext hrest
    have hlater := Session.le_of_mem_skipped hrest
    refine ⟨?_, ?_, ?_⟩
    · intro k ref
      cases k with
      | zero => exact hf.not_unknown_of_applies happlies ref
      | succ k => exact mt unknown_succ.mp (hknown k ref)
    · cases b with
      | true => exact hsorted
      | false => exact List.pairwise_cons.mpr ⟨hlater, hsorted⟩
    · intro n
      have hcases : (∃ k, n = h.length + k ∧ Idles h (step :: steps) k) ↔
          n = h.length ∧ idle h step ∨ n ∈ rest.skipped := by
        rw [hskipped, ← Nat.or_exists_add_one, idles_zero, Nat.add_zero]
        refine or_congr_right (exists_congr fun k => ?_)
        rw [idles_succ, length_record, Nat.add_assoc, Nat.add_comm 1 k]
      rw [hcases]
      cases hidle : idle h step with
      | true =>
        obtain rfl : b = false := by simpa [hidle] using hb
        simp
      | false =>
        obtain rfl : b = true := by simpa [hidle] using hb
        simp

theorem after (hf : Follows supply first h s) (hafter : s.after h.length steps = .ok u) :
    Follows supply first (h.extend steps) u := by
  induction steps generalizing s h with
  | nil =>
    cases hafter
    exact hf
  | cons step steps ih =>
    obtain ⟨r, happlies, hrest⟩ := Session.after_cons_eq_ok_iff.mp hafter
    exact ih (hf.applies happlies).2 hrest

/-- An identity comes into the tree exactly with the node that it was given to. -/
theorem comes_iff (hu : Follows supply first h u) {v : Session} {e : Event}
    (hv : Follows supply first (e :: h) v) {i : NodeId} :
    i ∉ u.tree.ids ∧ i ∈ v.tree.ids ↔
      (kind? (e :: h) h.length).isSome ∧ i = identity supply first (e :: h) (.added h.length) := by
  constructor
  · rintro ⟨hnot, hmem⟩
    rw [← Tree.map_id_entries, List.mem_map] at hmem
    obtain ⟨x, hx, rfl⟩ := hmem
    obtain ⟨n, m, hleft, hkind, -, hid, -⟩ := hv.shown x hx
    have hsome : (kind? (e :: h) n).isSome := Option.isSome_of_eq_some hkind
    by_cases hlast : n = h.length
    · subst hlast
      exact ⟨hsome, hid⟩
    · rw [kind?_cons_of_ne hlast] at hsome
      rw [left, Bool.or_eq_false_iff] at hleft
      rw [hid, identity_added_cons hsome] at hnot
      exact absurd (hu.live n hsome hleft.1) hnot
  · rintro ⟨hsome, rfl⟩
    refine ⟨?_, hv.live _ hsome left_cons_length⟩
    have hfresh := hu.issued.fresh
    rw [hu.supply_eq, hu.next_eq] at hfresh
    rw [identity, number_cons_length]
    exact fun hmem => hfresh (List.mem_cons_of_mem _ hmem)

end Follows

theorem Session.start_follows (op : GroupOperator) (first : Nat) (supply : Supply) :
    Follows supply first [] (start op first supply) where
  issued := Tree.Issued.of_new op first supply
  supply_eq := rfl
  next_eq := rfl
  rootId_eq := rfl
  refs ref := by
    rw [mark?]
    split
    · rename_i href
      subst href
      exact Table.find?_insert_self
    · rename_i href
      exact Table.find?_insert_of_ne (Ne.symm href)
  shown x hx := by simp [start, Tree.new, Tree.entries, Node.entries] at hx
  live n hn := by simp [kind?] at hn

namespace Script

variable {script : Script} {m : Mark} {i : NodeId}

/-- What was tried before the turn of an edit. -/
def before (script : Script) (n : Nat) : History :=
  History.extend [] (script.steps.take n)

/-- An edit names a parent or target that is neither `root` nor the ref of an earlier addition that
succeeded. -/
def NamesUnknown (script : Script) (n : Nat) (ref : String) : Prop :=
  ∃ step, script.steps[n]? = some step ∧ step.named? = some ref ∧ ref ≠ "root" ∧
    ∀ e ∈ script.before n, e.applied → e.step.ref? ≠ some ref

/-- An edit names a node of the wrong kind or one that has left the tree. -/
def NamesUnfit (script : Script) (n : Nat) : Prop :=
  ∃ step ref m, script.steps[n]? = some step ∧ step.named? = some ref ∧
    mark? (script.before n) ref = some m ∧
    (misfits (script.before n) step m ∨ gone (script.before n) m)

/-- The root, or the node that came into the tree with an edit. -/
def NodeIs (script : Script) (start : Session) (i : NodeId) : Mark → Prop
  | .root => i = start.tree.rootId
  | .added k => ∃ u v, start.after 0 (script.steps.take k) = .ok u ∧
      start.after 0 (script.steps.take (k + 1)) = .ok v ∧ i ∉ u.tree.ids ∧ i ∈ v.tree.ids

theorem length_before (hn : n ≤ script.steps.length) : (script.before n).length = n := by
  rw [before, length_extend, List.length_take, List.length_nil, Nat.zero_add, Nat.min_eq_left hn]

theorem before_succ (hstep : script.steps[n]? = some step) :
    script.before (n + 1) = record (script.before n) step := by
  rw [before, List.take_add_one, hstep, extend, List.foldl_append]
  rfl

theorem before_append (script : Script) (hkn : k ≤ n) :
    ∃ l, script.before n = l ++ script.before k := by
  obtain ⟨d, rfl⟩ := Nat.exists_eq_add_of_le hkn
  rw [before, List.take_add, extend, List.foldl_append]
  exact extend_append _ _

theorem unknown_iff {ref : String} :
    Unknown [] script.steps n ref ↔ script.NamesUnknown n ref := by
  refine exists_congr fun step => and_congr_right fun _ => and_congr_right fun _ => ?_
  exact mark?_eq_none_iff

theorem idles_iff (hknown : ∀ ref, ¬Unknown [] script.steps n ref) :
    Idles [] script.steps n ↔ script.NamesUnfit n := by
  refine exists_congr fun step => ?_
  rw [← before]
  constructor
  · rintro ⟨hstep, hidle⟩
    cases hnamed : step.named? with
    | none => simp [idle, hnamed] at hidle
    | some ref =>
      cases hm : mark? (script.before n) ref with
      | none => exact absurd ⟨step, hstep, hnamed, hm⟩ (hknown ref)
      | some m =>
        rw [idle_of_mark? hnamed hm, Bool.or_eq_true] at hidle
        exact ⟨ref, m, hstep, rfl, hm, hidle⟩
  · rintro ⟨ref, m, hstep, hnamed, hm, hunfit⟩
    refine ⟨hstep, ?_⟩
    simpa [idle_of_mark? hnamed hm] using hunfit

variable {default : GroupOperator} {first : Nat} {supply : Supply}

theorem nodeIs_iff {start : Session} (hstart : Follows supply first [] start)
    (hafter : ∀ k, ∃ u, start.after 0 (script.steps.take k) = .ok u)
    (hn : n ≤ script.steps.length) (hm : Knows (script.before n) m) :
    script.NodeIs start i m ↔ identity supply first (script.before n) m = i := by
  cases m with
  | root =>
    rw [NodeIs, hstart.rootId_eq]
    exact eq_comm
  | added k =>
    have hkind := hm k rfl
    have hk : k < n := length_before hn ▸ lt_of_kind? hkind
    obtain ⟨step, hstep⟩ : ∃ step, script.steps[k]? = some step :=
      ⟨_, List.getElem?_eq_getElem (Nat.lt_of_lt_of_le hk hn)⟩
    obtain ⟨u, hu⟩ := hafter k
    obtain ⟨v, hv⟩ := hafter (k + 1)
    have hfu : Follows supply first (script.before k) u := hstart.after hu
    have hfv : Follows supply first (script.before (k + 1)) v := hstart.after hv
    rw [before_succ hstep, record] at hfv
    obtain ⟨l, hl⟩ := script.before_append (Nat.succ_le_of_lt hk)
    rw [before_succ hstep, record] at hl
    have hlength : (script.before k).length = k := length_before (Nat.le_trans (Nat.le_of_lt hk) hn)
    have hadded : (kind? (⟨step, !idle (script.before k) step⟩ :: script.before k) k).isSome := by
      rw [hl, kind?_append l (by simp [hlength])] at hkind
      exact hkind
    have hcomes := hfu.comes_iff hfv (i := i)
    rw [hlength, and_iff_right hadded] at hcomes
    rw [hl, identity_append l fun _ hj => Mark.added.inj hj ▸ hadded, eq_comm, ← hcomes]
    constructor
    · rintro ⟨u', v', hu', hv', hcame⟩
      cases hu.symm.trans hu'
      cases hv.symm.trans hv'
      exact hcame
    · exact fun hcame => ⟨u, v, hu, hv, hcame⟩

/-- The first edit that names an unknown ref, and that ref. -/
def FirstUnknown (script : Script) (e : UnknownRef) : Prop :=
  script.NamesUnknown e.step e.ref ∧ ∀ n < e.step, ∀ ref, ¬script.NamesUnknown n ref

theorem FirstUnknown.unique {e e' : UnknownRef} (h : script.FirstUnknown e)
    (h' : script.FirstUnknown e') : e = e' := by
  obtain ⟨n, ref⟩ := e
  obtain ⟨n', ref'⟩ := e'
  obtain ⟨hunknown, hleast⟩ := h
  obtain ⟨hunknown', hleast'⟩ := h'
  obtain rfl : n = n' := by
    rcases Nat.lt_trichotomy n n' with hlt | heq | hlt
    · exact absurd hunknown (hleast' n hlt ref)
    · exact heq
    · exact absurd hunknown' (hleast n' hlt ref')
  obtain ⟨step, hstep, hnamed, -⟩ := hunknown
  obtain ⟨step', hstep', hnamed', -⟩ := hunknown'
  cases hstep.symm.trans hstep'
  cases hnamed.symm.trans hnamed'
  rfl

theorem firstUnknown_of_error {start : Session} (hstart : Follows supply first [] start)
    {e : UnknownRef} (hrun : start.run 0 script.steps = .error e) : script.FirstUnknown e := by
  obtain ⟨k, hstep, hunknown, hleast⟩ := hstart.run_error hrun
  obtain rfl : e.step = k := by simpa using hstep
  exact ⟨unknown_iff.mp hunknown, fun n hn ref => mt unknown_iff.mpr (hleast n hn ref)⟩

/-- A replay fails exactly at the first edit that names an unknown ref. Else it skips exactly the
edits that name a node of the wrong kind or one that has left the tree, and before each edit a ref
is bound to the node of the latest addition that succeeded and carried it. -/
theorem replay_by_history (script : Script) (default : GroupOperator) (first : Nat)
    (supply : Supply) :
    let start := Session.start (script.rootOperator.getD default) first supply
    ((∃ e, script.replay default first supply = .error e) ↔ ∃ n ref, script.NamesUnknown n ref) ∧
    (∀ e, script.replay default first supply = .error e ↔ script.FirstUnknown e) ∧
    ∀ replay, script.replay default first supply = .ok replay →
      replay.skipped.Pairwise (· < ·) ∧ (∀ n, n ∈ replay.skipped ↔ script.NamesUnfit n) ∧
      ∀ n ≤ script.steps.length, ∃ u, start.after 0 (script.steps.take n) = .ok u ∧
        ∀ ref i, u.resolve n ref = .ok i ↔
          ∃ m, mark? (script.before n) ref = some m ∧ script.NodeIs start i m := by
  intro start
  have hstart : Follows supply first [] start := Session.start_follows _ first supply
  refine ⟨?_, fun e => ⟨firstUnknown_of_error hstart, fun hfirst => ?_⟩, fun replay hrun => ?_⟩
  · constructor
    · rintro ⟨e, hrun⟩
      exact ⟨e.step, e.ref, (firstUnknown_of_error hstart hrun).1⟩
    · rintro ⟨n, ref, hunknown⟩
      cases hrun : script.replay default first supply with
      | ok replay => exact absurd hunknown (mt unknown_iff.mpr ((hstart.run_ok hrun).1 n ref))
      | error e => exact ⟨e, rfl⟩
  · cases hrun : script.replay default first supply with
    | ok replay => exact absurd hfirst.1 (mt unknown_iff.mpr ((hstart.run_ok hrun).1 _ _))
    | error e' => rw [(firstUnknown_of_error hstart hrun).unique hfirst]
  · obtain ⟨hknown, hsorted, hskipped⟩ := hstart.run_ok hrun
    have hafter := Session.exists_after_of_run hrun
    refine ⟨hsorted, fun n => ?_, fun n hn => ?_⟩
    · rw [hskipped n, ← idles_iff (hknown n)]
      simp
    · obtain ⟨u, hu⟩ := hafter n
      have hfu : Follows supply first (script.before n) u := hstart.after hu
      refine ⟨u, hu, fun ref i => ?_⟩
      rw [Session.resolve_eq_ok_iff, hfu.refs ref, Option.map_eq_some_iff]
      refine exists_congr fun m => and_congr_right fun hm => ?_
      exact (nodeIs_iff hstart hafter hn (knows_of_mark? hm)).symm

/-- A ref is bound again, an addition fails and leaves its ref bound, nodes leave with their parent
and when all is cleared. With one more edit the script names what only a failed addition carried. -/
theorem replay_by_history_nested :
    let c : Condition := ⟨.equal, "a", some (.integer 3), .constant⟩
    let steps : List Step := [.addGroup "g" none .or, .addCondition "c" "g" c,
      .addCondition "c" "c" c, .remove "root", .addGroup "h" "g" .not, .remove "g", .update "c" {},
      .addCondition "d" "h" c, .addCondition "root" none c, .setGroupOperator "root" .or, .clear,
      .update "root" {}]
    let script : Script := ⟨none, steps⟩
    script.replay .and 5 = .ok ⟨⟨⟨5⟩, .and, [], .counted, 10⟩, [2, 3, 6, 7, 9, 11]⟩ ∧
      (∀ n, n ∈ [2, 3, 6, 7, 9, 11] ↔ script.NamesUnfit n) ∧
      ∃ e, Script.replay ⟨none, steps ++ [.remove "d"]⟩ .and 5 = .error e := by
  intro c steps script
  have hrun : script.replay .and 5 =
      .ok ⟨⟨⟨5⟩, .and, [], .counted, 10⟩, [2, 3, 6, 7, 9, 11]⟩ := by
    simp [script, steps, c, replay, Session.start, Session.run, Session.apply,
      Session.resolveParent, Session.resolve, Session.bound, Session.changed, Tree.new, Tree.clear,
      Tree.addCondition, Tree.addGroup, Tree.add, Tree.attach?, Tree.groupPlace?, Node.groupPlace?,
      Tree.updateGroup, Tree.updateCondition, Tree.place?, Node.place?, Tree.remove, Node.remove?,
      Node.dropFirst?, Node.removeBelow?, Node.id, Group.push, Group.toNode, Place.within,
      Supply.counted, Table.find?_insert_self, Table.find?_insert_of_ne, bind, pure, Except.bind,
      Except.pure, Except.map]
  have hunknown : NamesUnknown ⟨none, steps ++ [.remove "d"]⟩ 12 "d" := by
    refine ⟨.remove "d", rfl, rfl, by decide, ?_⟩
    simp only [steps, c]
    decide
  obtain ⟨-, -, hends⟩ := replay_by_history script .and 5 .counted
  obtain ⟨hfails, -, -⟩ := replay_by_history ⟨none, steps ++ [.remove "d"]⟩ .and 5 .counted
  exact ⟨hrun, (hends _ hrun).2.1, hfails.mpr ⟨12, "d", hunknown⟩⟩

end Script

end RecordLogic.Filter
