import RecordLogic.Filter.Script
import RecordLogic.Proofs.Filter.Alike
import RecordLogic.Proofs.Json.Canonical
import RecordLogic.Proofs.Table

namespace RecordLogic.Filter

open Relator (BiUnique)

variable {R : NodeId → NodeId → Prop} {i : NodeId} {n m : Nat} {step : Step} {steps : List Step}

namespace Tree

variable {t : Tree}

theorem add_of_failed {parent : Option NodeId} {node : NodeId → Node}
    (h : (t.add parent node).1 = none) : (t.add parent node).2 = t := by
  rcases t.add_spliced parent node with hsame | ⟨q, t', hadded, -⟩
  · rw [hsame]
  · simp [hadded] at h

theorem updateCondition_of_failed {change : ConditionUpdate}
    (h : (t.updateCondition i change).1 = false) : (t.updateCondition i change).2 = t := by
  rcases t.updateCondition_spliced i change with hsame | ⟨q, c, t', hchanged, -⟩
  · rw [hsame]
  · simp [hchanged] at h

theorem updateGroup_of_failed {op : GroupOperator} (h : (t.updateGroup i op).1 = false) :
    (t.updateGroup i op).2 = t := by
  rcases t.updateGroup_spliced i op with hsame | ⟨t', hchanged, -⟩
  · rw [hsame]
  · simp [hchanged] at h

theorem remove_of_failed (h : (t.remove i).1 = false) : (t.remove i).2 = t := by
  rcases t.remove_spliced i with hsame | ⟨q, cut, t', hremoved, -⟩
  · rw [hsame]
  · simp [hremoved] at h

end Tree

namespace Session

variable {s s' u : Session} {b : Bool} {r : Bool × Session} {parent : Option String}

theorem resolve_eq_ok_iff {ref : String} : s.resolve n ref = .ok i ↔ s.refs.find? ref = some i := by
  rw [resolve]
  cases s.refs.find? ref <;> simp

/-- The ref of a parent, if there is one, is bound to the node. -/
def ParentIs (s : Session) (node : Option NodeId) : Option String → Prop
  | none => node = none
  | some ref => ∃ i, s.refs.find? ref = some i ∧ node = some i

theorem resolveParent_eq_ok_iff {node : Option NodeId} :
    s.resolveParent n parent = .ok node ↔ s.ParentIs node parent := by
  cases parent with
  | none => simp [resolveParent, ParentIs, eq_comm]
  | some ref =>
    rw [resolveParent, resolve, ParentIs]
    cases s.refs.find? ref <;> simp [Except.map, eq_comm]

/-- What an edit whose refs are all bound comes to. Its number does not matter. -/
inductive Applies (s : Session) : Step → Bool × Session → Prop where
  | addCondition (ref : Option String) {parent : Option String} (c : Condition)
      {node : Option NodeId} (h : s.ParentIs node parent) :
      Applies s (.addCondition ref parent c) (s.bound ref (s.tree.addCondition node c))
  | addGroup (ref : Option String) {parent : Option String} (op : GroupOperator)
      {node : Option NodeId} (h : s.ParentIs node parent) :
      Applies s (.addGroup ref parent op) (s.bound ref (s.tree.addGroup node op))
  | update {target : String} (change : ConditionUpdate) {i : NodeId}
      (h : s.refs.find? target = some i) :
      Applies s (.update target change) (s.changed (s.tree.updateCondition i change))
  | setGroupOperator {target : String} (op : GroupOperator) {i : NodeId}
      (h : s.refs.find? target = some i) :
      Applies s (.setGroupOperator target op) (s.changed (s.tree.updateGroup i op))
  | remove {target : String} {i : NodeId} (h : s.refs.find? target = some i) :
      Applies s (.remove target) (s.changed (s.tree.remove i))
  | setRootOperator (op : GroupOperator) :
      Applies s (.setRootOperator op) (s.changed (true, s.tree.withOperator op))
  | clear : Applies s .clear (s.changed (true, s.tree.clear))

theorem apply_eq_ok_iff : s.apply n step = .ok r ↔ s.Applies step r := by
  constructor
  · intro h
    cases step with
    | addCondition ref parent c =>
      obtain ⟨node, hnode, h⟩ := Json.bind_eq_ok.mp h
      cases h
      exact .addCondition ref c (resolveParent_eq_ok_iff.mp hnode)
    | addGroup ref parent op =>
      obtain ⟨node, hnode, h⟩ := Json.bind_eq_ok.mp h
      cases h
      exact .addGroup ref op (resolveParent_eq_ok_iff.mp hnode)
    | update target change =>
      obtain ⟨i, hi, h⟩ := Json.bind_eq_ok.mp h
      cases h
      exact .update change (resolve_eq_ok_iff.mp hi)
    | setGroupOperator target op =>
      obtain ⟨i, hi, h⟩ := Json.bind_eq_ok.mp h
      cases h
      exact .setGroupOperator op (resolve_eq_ok_iff.mp hi)
    | remove target =>
      obtain ⟨i, hi, h⟩ := Json.bind_eq_ok.mp h
      cases h
      exact .remove (resolve_eq_ok_iff.mp hi)
    | setRootOperator op =>
      cases h
      exact .setRootOperator op
    | clear =>
      cases h
      exact .clear
  · intro h
    cases h with
    | addCondition ref c h => exact Json.bind_eq_ok.mpr ⟨_, resolveParent_eq_ok_iff.mpr h, rfl⟩
    | addGroup ref op h => exact Json.bind_eq_ok.mpr ⟨_, resolveParent_eq_ok_iff.mpr h, rfl⟩
    | update change h => exact Json.bind_eq_ok.mpr ⟨_, resolve_eq_ok_iff.mpr h, rfl⟩
    | setGroupOperator op h => exact Json.bind_eq_ok.mpr ⟨_, resolve_eq_ok_iff.mpr h, rfl⟩
    | remove h => exact Json.bind_eq_ok.mpr ⟨_, resolve_eq_ok_iff.mpr h, rfl⟩
    | setRootOperator op => rfl
    | clear => rfl

theorem bound_of_failed {ref : Option String} {r : Option NodeId × Tree}
    (hr : r.1 = none → r.2 = s.tree) (h : (s.bound ref r).1 = false) : (s.bound ref r).2 = s := by
  obtain ⟨added, tree⟩ := r
  cases added with
  | none =>
    obtain rfl : tree = s.tree := hr rfl
    rfl
  | some i => cases ref <;> cases h

theorem changed_of_failed {r : Bool × Tree} (hr : r.1 = false → r.2 = s.tree)
    (h : (s.changed r).1 = false) : (s.changed r).2 = s := by
  rw [changed, hr h]

/-- An edit that changed nothing left tree and refs as they were. -/
theorem Applies.eq_of_failed (h : s.Applies step r) (hfailed : r.1 = false) : r.2 = s := by
  cases h with
  | addCondition ref c h => exact bound_of_failed Tree.add_of_failed hfailed
  | addGroup ref op h => exact bound_of_failed Tree.add_of_failed hfailed
  | update change h => exact changed_of_failed Tree.updateCondition_of_failed hfailed
  | setGroupOperator op h => exact changed_of_failed Tree.updateGroup_of_failed hfailed
  | remove h => exact changed_of_failed Tree.remove_of_failed hfailed
  | setRootOperator op => cases hfailed
  | clear => cases hfailed

/-- Trees and the nodes of all refs are alike. -/
structure InStep (R : NodeId → NodeId → Prop) (s u : Session) : Prop where
  tree : s.tree.InStep R u.tree
  refs : ∀ ref, Option.Rel R (s.refs.find? ref) (u.refs.find? ref)

namespace InStep

theorem exists_target (h : InStep R s u) {ref : String} (hi : s.refs.find? ref = some i) :
    ∃ j, u.refs.find? ref = some j ∧ R i j := by
  have hrefs := h.refs ref
  rw [hi] at hrefs
  generalize u.refs.find? ref = found at hrefs
  cases hrefs with
  | some hij => exact ⟨_, rfl, hij⟩

theorem exists_parent (h : InStep R s u) {node : Option NodeId} (hnode : s.ParentIs node parent) :
    ∃ node', u.ParentIs node' parent ∧ Option.Rel R node node' := by
  cases parent with
  | none =>
    obtain rfl : node = none := hnode
    exact ⟨none, rfl, .none⟩
  | some ref =>
    obtain ⟨i, hi, rfl⟩ := hnode
    obtain ⟨j, hj, hij⟩ := h.exists_target hi
    exact ⟨some j, ⟨j, hj, rfl⟩, .some hij⟩

theorem insert (h : InStep R s u) {t t' : Tree} (htree : t.InStep R t') (name : String)
    {j : NodeId} (hij : R i j) :
    InStep R ⟨t, s.refs.insert name i⟩ ⟨t', u.refs.insert name j⟩ := by
  refine ⟨htree, fun ref => ?_⟩
  by_cases href : name = ref
  · subst href
    rw [Table.find?_insert_self, Table.find?_insert_self]
    exact .some hij
  · rw [Table.find?_insert_of_ne href, Table.find?_insert_of_ne href]
    exact h.refs ref

theorem bound (h : InStep R s u) (ref : Option String) {r r' : Option NodeId × Tree}
    (hr : Option.Rel R r.1 r'.1 ∧ r.2.InStep R r'.2) :
    (u.bound ref r').1 = (s.bound ref r).1 ∧ InStep R (s.bound ref r).2 (u.bound ref r').2 := by
  obtain ⟨added, t⟩ := r
  obtain ⟨added', t'⟩ := r'
  obtain ⟨hadded, htree⟩ := hr
  cases hadded with
  | none => cases ref <;> exact ⟨rfl, htree, h.refs⟩
  | some hij =>
    cases ref with
    | none => exact ⟨rfl, htree, h.refs⟩
    | some name => exact ⟨rfl, h.insert htree name hij⟩

theorem changed (h : InStep R s u) {r r' : Bool × Tree} (hr : r'.1 = r.1 ∧ r.2.InStep R r'.2) :
    (u.changed r').1 = (s.changed r).1 ∧ InStep R (s.changed r).2 (u.changed r').2 :=
  ⟨hr.1, hr.2, h.refs⟩

/-- The same edit has the same effect. -/
theorem applies (h : InStep R s u) (hR : BiUnique R) (happlies : s.Applies step r) :
    ∃ r', u.Applies step r' ∧ r'.1 = r.1 ∧ InStep R r.2 r'.2 := by
  cases happlies with
  | addCondition ref c hnode =>
    obtain ⟨node', hnode', hnodes⟩ := h.exists_parent hnode
    exact ⟨_, .addCondition ref c hnode',
      h.bound ref (h.tree.add hR hnodes fun i j hij => .leaf hij c .nil)⟩
  | addGroup ref op hnode =>
    obtain ⟨node', hnode', hnodes⟩ := h.exists_parent hnode
    exact ⟨_, .addGroup ref op hnode',
      h.bound ref (h.tree.add hR hnodes fun i j hij => .group hij op .nil .nil)⟩
  | update change hi =>
    obtain ⟨j, hj, hij⟩ := h.exists_target hi
    exact ⟨_, .update change hj, h.changed (h.tree.updateCondition hR hij change)⟩
  | setGroupOperator op hi =>
    obtain ⟨j, hj, hij⟩ := h.exists_target hi
    exact ⟨_, .setGroupOperator op hj, h.changed (h.tree.updateGroup hR hij op)⟩
  | remove hi =>
    obtain ⟨j, hj, hij⟩ := h.exists_target hi
    exact ⟨_, .remove hj, h.changed (h.tree.remove hR hij)⟩
  | setRootOperator op =>
    exact ⟨_, .setRootOperator op, h.changed ⟨rfl, h.tree.withOperator op⟩⟩
  | clear => exact ⟨_, .clear, h.changed ⟨rfl, h.tree.withChildren .nil⟩⟩

end InStep

theorem run_cons_eq_ok_iff {replay : Replay} : s.run n (step :: steps) = .ok replay ↔
    ∃ b s' rest, s.Applies step (b, s') ∧ s'.run (n + 1) steps = .ok rest ∧
      replay = if b then rest else { rest with skipped := n :: rest.skipped } := by
  rw [run]
  constructor
  · intro h
    obtain ⟨⟨b, s'⟩, happly, h⟩ := Json.bind_eq_ok.mp h
    obtain ⟨rest, hrest, h⟩ := Json.bind_eq_ok.mp h
    cases h
    exact ⟨b, s', rest, apply_eq_ok_iff.mp happly, hrest, rfl⟩
  · rintro ⟨b, s', rest, happlies, hrest, rfl⟩
    refine Json.bind_eq_ok.mpr ⟨(b, s'), apply_eq_ok_iff.mpr happlies, ?_⟩
    exact Json.bind_eq_ok.mpr ⟨rest, hrest, rfl⟩

/-- Sessions in step end with trees alike and skip the same edits. -/
theorem run_inStep (hR : BiUnique R) (h : InStep R s u) {replay : Replay}
    (hrun : s.run n steps = .ok replay) : ∃ replay', u.run n steps = .ok replay' ∧
      replay'.skipped = replay.skipped ∧ replay.tree.Alike R replay'.tree := by
  induction steps generalizing s u n replay with
  | nil =>
    cases hrun
    exact ⟨⟨u.tree, []⟩, rfl, rfl, h.tree.toAlike⟩
  | cons step steps ih =>
    obtain ⟨b, s', rest, happlies, hrest, rfl⟩ := run_cons_eq_ok_iff.mp hrun
    obtain ⟨⟨b', u'⟩, happlies', hb, hnext⟩ := h.applies hR happlies
    obtain rfl : b' = b := hb
    obtain ⟨rest', hrest', hskipped, halike⟩ := ih hnext hrest
    refine ⟨_, run_cons_eq_ok_iff.mpr ⟨_, u', rest', happlies', hrest', rfl⟩, ?_⟩
    cases b' with
    | true => exact ⟨hskipped, halike⟩
    | false => exact ⟨congrArg (n :: ·) hskipped, halike⟩

end Session

namespace Step

variable {numbers : List Nat}

/-- The edits but those with the given numbers; the first has number `n`. -/
def without (numbers : List Nat) (n : Nat) (steps : List Step) : List Step :=
  ((steps.zipIdx n).filter (·.2 ∉ numbers)).map Prod.fst

theorem without_cons_of_mem (step : Step) (steps : List Step) (h : n ∈ numbers) :
    without numbers n (step :: steps) = without numbers (n + 1) steps := by
  simp [without, h]

theorem without_cons_of_notMem (step : Step) (steps : List Step) (h : n ∉ numbers) :
    without numbers n (step :: steps) = step :: without numbers (n + 1) steps := by
  simp [without, h]

/-- No later edit has an earlier number. -/
theorem without_of_lt (numbers : List Nat) (steps : List Step) (h : n < m) :
    without (n :: numbers) m steps = without numbers m steps := by
  rw [without, without]
  congr 1
  refine List.filter_congr fun x hx => ?_
  have hle : m ≤ x.2 := List.le_snd_of_mem_zipIdx hx
  have hne : x.2 ≠ n := by omega
  simp [hne]

end Step

namespace Session

variable {s : Session} {replay : Replay}

theorem le_of_mem_skipped (hrun : s.run n steps = .ok replay) : ∀ k ∈ replay.skipped, n ≤ k := by
  induction steps generalizing s n replay with
  | nil =>
    cases hrun
    simp
  | cons step steps ih =>
    obtain ⟨b, s', rest, -, hrest, rfl⟩ := run_cons_eq_ok_iff.mp hrun
    have hlater : ∀ k ∈ rest.skipped, n ≤ k := fun k hk => Nat.le_of_succ_le (ih hrest k hk)
    cases b with
    | true => exact hlater
    | false => simpa using hlater

/-- Without the edits that were skipped, whatever number the first one has, the run ends at the same
tree and skips nothing. -/
theorem run_without_skipped (hrun : s.run n steps = .ok replay) (m : Nat) :
    s.run m (Step.without replay.skipped n steps) = .ok ⟨replay.tree, []⟩ := by
  induction steps generalizing s n m replay with
  | nil =>
    cases hrun
    rfl
  | cons step steps ih =>
    obtain ⟨b, s', rest, happlies, hrest, rfl⟩ := run_cons_eq_ok_iff.mp hrun
    cases b with
    | true =>
      have hkept : n ∉ rest.skipped := by
        intro hn
        exact Nat.not_succ_le_self n (le_of_mem_skipped hrest n hn)
      simp only [if_true]
      rw [Step.without_cons_of_notMem step steps hkept]
      exact run_cons_eq_ok_iff.mpr ⟨true, s', _, happlies, ih hrest (m + 1), rfl⟩
    | false =>
      obtain rfl : s' = s := happlies.eq_of_failed rfl
      simp only [Bool.false_eq_true, if_false]
      rw [Step.without_cons_of_mem step steps List.mem_cons_self,
        Step.without_of_lt _ _ (Nat.lt_succ_self n)]
      exact ih hrest m

end Session

namespace Supply

variable {supply supply' : Supply} {first first' : Nat}

/-- The identities that come at the same place from both supplies. -/
def Paired (supply : Supply) (first : Nat) (supply' : Supply) (first' : Nat) (i j : NodeId) :
    Prop :=
  ∃ k, i = supply.give (first + k) ∧ j = supply'.give (first' + k)

theorem biUnique_paired (supply : Supply) (first : Nat) (supply' : Supply) (first' : Nat) :
    BiUnique (Paired supply first supply' first') := by
  constructor
  · rintro _ _ _ ⟨k, rfl, hk⟩ ⟨l, rfl, hl⟩
    have hkl := supply'.give_injective (hk.symm.trans hl)
    rw [Nat.add_left_cancel hkl]
  · rintro _ _ _ ⟨k, hk, rfl⟩ ⟨l, hl, rfl⟩
    have hkl := supply.give_injective (hk.symm.trans hl)
    rw [Nat.add_left_cancel hkl]

end Supply

theorem Session.start_inStep (op : GroupOperator) (first first' : Nat) (supply supply' : Supply) :
    InStep (supply.Paired first supply' first') (start op first supply)
      (start op first' supply') := by
  have htree : (Tree.new op first supply).InStep (supply.Paired first supply' first')
      (Tree.new op first' supply') := {
    rootId := ⟨0, rfl, rfl⟩
    operator_eq := rfl
    children := .nil
    next := fun k => ⟨1 + k, by simp [Tree.new, Nat.add_assoc], by simp [Tree.new, Nat.add_assoc]⟩ }
  have hunbound : InStep (supply.Paired first supply' first')
      ⟨Tree.new op first supply, Table.empty⟩ ⟨Tree.new op first' supply', Table.empty⟩ :=
    ⟨htree, fun _ => .none⟩
  exact hunbound.insert htree "root" htree.rootId

namespace Script

variable {script : Script} {default : GroupOperator} {first : Nat} {supply : Supply}
  {replay : Replay}

/-- The script without the edits of the given numbers. -/
def without (script : Script) (numbers : List Nat) : Script :=
  { script with steps := Step.without numbers 0 script.steps }

/-- Without the edits that were skipped a script skips nothing. Its tree is the same, whatever
identities the nodes are given this time, and so is what it sends and what is wrong with it. -/
theorem replay_without_skipped (h : script.replay default first supply = .ok replay)
    (first' : Nat) (supply' : Supply) :
    ∃ replay', (script.without replay.skipped).replay default first' supply' = .ok replay' ∧
      replay'.skipped = [] ∧ replay.tree.SameButIds replay'.tree ∧
      replay'.tree.payload? = replay.tree.payload? ∧ replay'.tree.size = replay.tree.size ∧
      replay'.tree.issues.map Issue.kind = replay.tree.issues.map Issue.kind := by
  have hshort := Session.run_without_skipped h 0
  have hR := supply.biUnique_paired first supply' first'
  obtain ⟨replay', hrun, hskipped, halike⟩ :=
    Session.run_inStep hR (Session.start_inStep _ first first' supply supply') hshort
  exact ⟨replay', hrun, hskipped, ⟨_, hR, halike⟩, halike.payload?_eq, halike.size_eq,
    halike.kinds_eq⟩

theorem replay_without_skipped_nested :
    let c : Condition := ⟨.equal, "a", some (.integer 3), .constant⟩
    let script : Script := ⟨none, [.addGroup "g" none .or, .addCondition "c" "g" c,
      .setGroupOperator "c" .not, .remove "g", .addCondition "d" "c" c, .addGroup "g" "root" .not,
      .addCondition none "g" c]⟩
    let t : Tree := ⟨⟨5⟩, .and, [.group ⟨8⟩ .not [.leaf ⟨9⟩ c]], .counted, 10⟩
    script.replay .and 5 = .ok ⟨t, [2, 4]⟩ ∧
      ∃ replay, (script.without [2, 4]).replay .and 0 = .ok replay ∧ replay.skipped = [] ∧
        t.SameButIds replay.tree ∧ replay.tree.payload? = t.payload? := by
  intro c script t
  have hrun : script.replay .and 5 = .ok ⟨t, [2, 4]⟩ := by
    simp [script, c, t, replay, Session.start, Session.run, Session.apply, Session.resolveParent,
      Session.resolve, Session.bound, Session.changed, Tree.new, Tree.addCondition, Tree.addGroup,
      Tree.add, Tree.attach?, Tree.groupPlace?, Node.groupPlace?, Tree.updateGroup, Tree.remove,
      Node.remove?, Node.dropFirst?, Node.removeBelow?, Node.id, Group.push, Group.toNode,
      Place.within, Supply.counted, Table.find?_insert_self, Table.find?_insert_of_ne, bind, pure,
      Except.bind, Except.pure, Except.map]
  obtain ⟨replay, hshort, hskipped, halike, hsent, -⟩ := replay_without_skipped hrun 0 .counted
  exact ⟨hrun, replay, hshort, hskipped, halike, hsent⟩

end Script

end RecordLogic.Filter
