import RecordLogic.Proofs.Filter.Defects

namespace RecordLogic.Filter

/-- Issues of one kind, at the same place in two orders of nodes. -/
def SamePlace (order order' : List NodeId) (x y : Issue) : Prop :=
  y.kind = x.kind ∧ ∃ n : Nat, order[n]? = some x.node ∧ order'[n]? = some y.node

theorem SamePlace.cons {order order' : List NodeId} {x y : Issue} (h : SamePlace order order' x y)
    (i j : NodeId) : SamePlace (i :: order) (j :: order') x y := by
  obtain ⟨hkind, n, hx, hy⟩ := h
  exact ⟨hkind, n + 1, by simpa using hx, by simpa using hy⟩

theorem kinds_eq_of_samePlace {order order' : List NodeId} {xs ys : List Issue}
    (h : List.Forall₂ (SamePlace order order') xs ys) :
    ys.map Issue.kind = xs.map Issue.kind := by
  induction h with
  | nil => rfl
  | cons hxy _ ih => rw [List.map_cons, List.map_cons, hxy.1, ih]

/-- Where the sites have the same defects one by one, the same is reported of them. -/
theorem Reported.samePlace {xs ys : List Issue} {sites sites' : List Site}
    (h : Reported xs sites) (h' : Reported ys sites')
    (hsame : sites'.map Site.Defect = sites.map Site.Defect) :
    List.Forall₂ (SamePlace (sites.map Site.node) (sites'.map Site.node)) xs ys := by
  induction h generalizing ys sites' with
  | nil =>
    cases h' with
    | nil => exact .nil
    | cons => simp at hsame
  | @cons i Defect kinds xs sites hown hrest ih =>
    cases h' with
    | nil => simp at hsame
    | @cons j Defect' kinds' ys sites' hown' hrest' =>
      simp only [List.map_cons, List.cons.injEq] at hsame
      obtain ⟨rfl, hsame⟩ := hsame
      obtain rfl := hown.unique hown'
      refine List.rel_append ?_ ?_
      · rw [List.forall₂_map_left_iff, List.forall₂_map_right_iff, List.forall₂_same]
        exact fun k _ => ⟨rfl, 0, rfl, rfl⟩
      · exact (ih hrest' hsame).imp fun _ _ hxy => hxy.cons i j

/-- No value is looked at that is not sent. -/
theorem Condition.defect_withoutIdleValue (c : Condition) :
    c.withoutIdleValue.Defect = c.Defect := by
  rw [withoutIdleValue]
  split
  case isTrue hidle =>
    funext k
    obtain hop | hop := hidle
    all_goals cases k <;> simp [Defect, hop]
  case isFalse => rfl

namespace Clause

/-- What is wrong with a clause by itself. -/
def Defect : Clause → IssueKind → Prop
  | leaf c => c.Defect
  | group op inner => op.Defect inner.length

theorem map_defect_withoutIdleValue (cs : List Clause) :
    (all (mapLeaves Condition.withoutIdleValue cs)).map Defect = (all cs).map Defect := by
  fun_induction mapLeaves Condition.withoutIdleValue cs with
  | case1 => rfl
  | case2 c cs ih => simp [all, Defect, Condition.defect_withoutIdleValue, ih]
  | case3 op inner cs ihi ihc => simp [all, Defect, ihi, ihc]

end Clause

namespace Node

theorem map_defect_shape (ns : List Node) :
    (Clause.all (shape ns)).map Clause.Defect = (all ns).map Node.Defect := by
  fun_induction shape ns with
  | case1 => simp [Clause.all, all]
  | case2 i c ns ih => simp [Clause.all, all, Clause.Defect, Defect, ih]
  | case3 i op cs ns ihc ihn => simp [Clause.all, all, Clause.Defect, Defect, ihc, ihn]

theorem filled_shape {ns : List Node} (h : ∀ i op cs, group i op cs ∈ all ns → cs ≠ []) :
    Clause.filled (shape ns) := by
  fun_induction shape ns with
  | case1 => simp [Clause.filled]
  | case2 i c ns ih =>
    have hrest := ih fun j op cs hmem => h j op cs (by simp [all, hmem])
    simpa [Clause.filled] using hrest
  | case3 i op cs ns ihc ihn =>
    have hcs : cs ≠ [] := h i op cs (by simp [all])
    have hinner := ihc fun j op' ds hmem => h j op' ds (by simp [all, hmem])
    have hrest := ihn fun j op' ds hmem => h j op' ds (by simp [all, hmem])
    simp [Clause.filled, hcs, hinner, hrest]

end Node

namespace Tree

variable {t u : Tree}

theorem map_defect_sites (hoperator : u.operator = t.operator)
    (hshape : Node.shape u.children =
      Clause.mapLeaves Condition.withoutIdleValue (Node.shape t.children)) :
    u.sites.map Site.Defect = t.sites.map Site.Defect := by
  have hlength : u.children.length = t.children.length := by
    rw [← Node.length_shape, hshape, Clause.length_mapLeaves, Node.length_shape]
  have hroot : u.RootDefect = t.RootDefect := by
    funext k
    simp only [RootDefect, ne_eq, ← List.length_eq_zero_iff, hlength, hoperator]
  have hnodes : (Node.all u.children).map Node.Defect = (Node.all t.children).map Node.Defect := by
    rw [← Node.map_defect_shape, hshape, Clause.map_defect_withoutIdleValue, Node.map_defect_shape]
  simpa [sites, hroot, Function.comp_def] using hnodes

theorem payload?_of_no_childless (hne : t.children ≠ [])
    (hgroups : ∀ i op cs, Node.group i op cs ∈ Node.all t.children → cs ≠ []) :
    t.payload? = some (Payload.withoutIdleValues ⟨t.operator, Node.shape t.children⟩) := by
  rw [payload?_eq]
  refine Payload.normal?_of_filled ?_
  simp [Payload.toClause, Clause.filled, hne, Node.filled_shape hgroups]

/-- A tree that has children and no childless group, restored from what it sends, has the issues
that it had, at the same places in depth-first order. -/
theorem restored_same_issues (hne : t.children ≠ [])
    (hgroups : ∀ i op cs, Node.group i op cs ∈ Node.all t.children → cs ≠ []) :
    ∃ f, t.payload? = some f ∧ ∀ start supply, let u := ofPayload f start supply
      u.issues.map Issue.kind = t.issues.map Issue.kind ∧
        List.Forall₂ (SamePlace (t.rootId :: t.ids) (u.rootId :: u.ids)) t.issues u.issues := by
  refine ⟨_, payload?_of_no_childless hne hgroups, fun start supply => ?_⟩
  intro u
  obtain ⟨hoperator, hshape⟩ := shape_ofPayload
    (Payload.withoutIdleValues ⟨t.operator, Node.shape t.children⟩) start supply
  have hplaces := t.reported.samePlace u.reported (map_defect_sites hoperator hshape)
  rw [map_node_sites, map_node_sites] at hplaces
  exact ⟨kinds_eq_of_samePlace hplaces, hplaces⟩

theorem restored_same_issues_nested :
    let c : Condition := ⟨.isNotEmpty, " ", some (.integer 3), .constant⟩
    let d : Condition := ⟨.between, "a", some (.array [.integer 1]), .constant⟩
    let t : Tree := ⟨⟨0⟩, .not, [.group ⟨5⟩ .not [.leaf ⟨4⟩ c, .leaf ⟨3⟩ d],
      .leaf ⟨2⟩ ⟨.equal, "b", none, .constant⟩], .counted, 6⟩
    let f : Payload := ⟨.not, [.group .not [.leaf { c with value := none }, .leaf d],
      .leaf ⟨.equal, "b", none, .constant⟩]⟩
    t.children ≠ [] ∧ (∀ i op cs, Node.group i op cs ∈ Node.all t.children → cs ≠ []) ∧
      t.payload? = some f ∧
      (ofPayload f 9).issues.map Issue.kind =
        [.notGroupArity 2, .notGroupArity 2, .missingField, .invalidRange, .missingValue] := by
  intro c d t f
  have hne : t.children ≠ [] := List.cons_ne_nil _ _
  have hgroups : ∀ i op cs, Node.group i op cs ∈ Node.all t.children → cs ≠ [] := by
    intro i op cs hmem
    obtain ⟨-, -, rfl⟩ : i = ⟨5⟩ ∧ op = .not ∧ cs = [.leaf ⟨4⟩ c, .leaf ⟨3⟩ d] := by
      simpa [t, Node.all] using hmem
    exact List.cons_ne_nil _ _
  have hsent : t.payload? = some f := by
    cbv
  obtain ⟨f', hf', hsame⟩ := restored_same_issues hne hgroups
  obtain rfl : f' = f := Option.some.inj (hf'.symm.trans hsent)
  refine ⟨hne, hgroups, hsent, (hsame 9 .counted).1.trans ?_⟩
  cbv

end Tree

end RecordLogic.Filter
