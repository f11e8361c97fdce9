import Mathlib.Logic.Relator
import RecordLogic.Filter.Issue
import RecordLogic.Proofs.Filter.Clauses
import RecordLogic.Proofs.Filter.Splice

namespace RecordLogic.Filter

open Relator (BiUnique)

section Relation

variable {σ α β : Type} {P : σ → σ → Prop} {V : α → α → Prop} {W : β → β → Prop} {f g : α → β}

theorem rel_map {x y : Option α} (h : Option.Rel V x y) (hfg : ∀ a b, V a b → W (f a) (g b)) :
    Option.Rel W (x.map f) (y.map g) := by
  cases h with
  | none => exact .none
  | some hab => exact .some (hfg _ _ hab)

theorem rel_or {x y x' y' : Option α} (h : Option.Rel V x y) (h' : Option.Rel V x' y') :
    Option.Rel V (x.or x') (y.or y') := by
  cases h with
  | none => exact h'
  | some hab => exact .some hab

theorem rel_ite {R : NodeId → NodeId → Prop} (hR : BiUnique R) {i j k l : NodeId} (hkl : R k l)
    (hij : R i j) {x y x' y' : Option α} (hx : Option.Rel V x x') (hy : Option.Rel V y y') :
    Option.Rel V (if k = i then x else y) (if l = j then x' else y') := by
  have hiff : k = i ↔ l = j := Relator.rel_eq hR hkl hij
  by_cases hhere : k = i
  · rwa [if_pos hhere, if_pos (hiff.mp hhere)]
  · rwa [if_neg hhere, if_neg (mt hiff.mpr hhere)]

/-- Two places with related parts; to put related parts there makes related wholes. -/
structure Place.Alike (P : σ → σ → Prop) (V : α → α → Prop) (p q : Place σ α) : Prop where
  part : P p.part q.part
  put : ∀ s s', P s s' → V (p.put s) (q.put s')

theorem Place.Alike.within {p q : Place σ α} (h : Alike P V p q)
    (hfg : ∀ a b, V a b → W (f a) (g b)) : Alike P W (p.within f) (q.within g) :=
  ⟨h.part, fun s s' hs => hfg _ _ (h.put s s' hs)⟩

end Relation

variable {R : NodeId → NodeId → Prop} {i j : NodeId}

namespace Node

/-- Nodes that differ in nothing but their identities, which are paired by `R`. -/
inductive Alike (R : NodeId → NodeId → Prop) : List Node → List Node → Prop where
  | nil : Alike R [] []
  | leaf {i j : NodeId} {ns ms : List Node} (hid : R i j) (c : Condition) (hrest : Alike R ns ms) :
      Alike R (leaf i c :: ns) (leaf j c :: ms)
  | group {i j : NodeId} {cs ds ns ms : List Node} (hid : R i j) (op : GroupOperator)
      (hinner : Alike R cs ds) (hrest : Alike R ns ms) :
      Alike R (group i op cs :: ns) (group j op ds :: ms)

variable {n m : Node} {cs ds ns ms : List Node}

namespace Alike

theorem shape_eq (h : Alike R ns ms) : shape ms = shape ns := by
  induction h with
  | nil => rfl
  | leaf hid c hrest ih => simp [shape, ih]
  | group hid op hinner hrest ihi ihr => simp [shape, ihi, ihr]

theorem length_eq (h : Alike R ns ms) : ms.length = ns.length := by
  rw [← length_shape, h.shape_eq, length_shape]

theorem kinds_eq (h : Alike R ns ms) :
    (issues ms).map Issue.kind = (issues ns).map Issue.kind := by
  induction h with
  | nil => rfl
  | leaf hid c hrest ih => simp [issues, ih, Function.comp_def]
  | group hid op hinner hrest ihi ihr =>
    simp [issues, hinner.length_eq, ihi, ihr, Function.comp_def]

theorem cons (h : Alike R [n] [m]) (hrest : Alike R ns ms) : Alike R (n :: ns) (m :: ms) := by
  cases h with
  | leaf hid c _ => exact .leaf hid c hrest
  | group hid op hinner _ => exact .group hid op hinner hrest

theorem append (h : Alike R cs ds) (hrest : Alike R ns ms) : Alike R (cs ++ ns) (ds ++ ms) := by
  induction h with
  | nil => exact hrest
  | leaf hid c _ ih => exact .leaf hid c ih
  | group hid op hinner _ _ ih => exact .group hid op hinner ih

end Alike

end Node

/-- Groups alike, each by itself. -/
structure Group.Alike (R : NodeId → NodeId → Prop) (g g' : Group) : Prop where
  id : R g.id g'.id
  operator_eq : g'.operator = g.operator
  children : Node.Alike R g.children g'.children

namespace Group.Alike

variable {g g' : Group} {n m : Node}

theorem toNode (h : Alike R g g') : Node.Alike R [g.toNode] [g'.toNode] := by
  rw [Group.toNode, Group.toNode, h.operator_eq]
  exact .group h.id _ h.children .nil

theorem push (h : Alike R g g') (hn : Node.Alike R [n] [m]) : Alike R (g.push n) (g'.push m) :=
  { h with children := h.children.append hn }

end Group.Alike

namespace Node

variable {ns ms : List Node}

/-- The same search ends at places alike. -/
theorem place?_alike (hR : BiUnique R) (hij : R i j) (h : Alike R ns ms) :
    Option.Rel (Place.Alike (fun n m => Alike R [n] [m]) (Alike R)) (place? i ns)
      (place? j ms) := by
  induction h with
  | nil =>
    rw [place?, place?]
    exact .none
  | leaf hid c hrest ih =>
    rw [place?, place?]
    refine rel_ite hR hid hij (.some ⟨.leaf hid c .nil, fun _ _ hs => hs.cons hrest⟩) ?_
    exact rel_map ih fun _ _ hp => hp.within fun _ _ hs => .leaf hid c hs
  | @group k l cs ds ns ms hid op hinner hrest ihi ihr =>
    rw [place?, place?]
    refine rel_ite hR hid hij (.some ⟨.group hid op hinner .nil, fun _ _ hs => hs.cons hrest⟩) ?_
    generalize place? i cs = inner, place? j ds = inner' at ihi
    cases ihi with
    | some hp => exact .some (hp.within fun _ _ hs => .group hid op hs hrest)
    | none => exact rel_map ihr fun _ _ hp => hp.within fun _ _ hs => .group hid op hinner hs

theorem groupPlace?_alike (hR : BiUnique R) (hij : R i j) (h : Alike R ns ms) :
    Option.Rel (Place.Alike (Group.Alike R) (Alike R)) (groupPlace? i ns) (groupPlace? j ms) := by
  induction h with
  | nil =>
    rw [groupPlace?, groupPlace?]
    exact .none
  | leaf hid c hrest ih =>
    rw [groupPlace?, groupPlace?]
    exact rel_map ih fun _ _ hp => hp.within fun _ _ hs => .leaf hid c hs
  | @group k l cs ds ns ms hid op hinner hrest ihi ihr =>
    rw [groupPlace?, groupPlace?]
    refine rel_ite hR hid hij (.some ⟨⟨hid, rfl, hinner⟩, fun _ _ hs => hs.toNode.cons hrest⟩) ?_
    generalize groupPlace? i cs = inner, groupPlace? j ds = inner' at ihi
    cases ihi with
    | some hp => exact .some (hp.within fun _ _ hs => .group hid op hs hrest)
    | none => exact rel_map ihr fun _ _ hp => hp.within fun _ _ hs => .group hid op hinner hs

theorem dropFirst?_alike (hR : BiUnique R) (hij : R i j) (h : Alike R ns ms) :
    Option.Rel (Alike R) (dropFirst? i ns) (dropFirst? j ms) := by
  induction h with
  | nil =>
    rw [dropFirst?, dropFirst?]
    exact .none
  | leaf hid c hrest ih =>
    rw [dropFirst?, dropFirst?]
    exact rel_ite hR hid hij (.some hrest) (rel_map ih fun _ _ hs => .leaf hid c hs)
  | group hid op hinner hrest ihi ihr =>
    rw [dropFirst?, dropFirst?]
    exact rel_ite hR hid hij (.some hrest) (rel_map ihr fun _ _ hs => .group hid op hinner hs)

theorem removeBelow?_alike (hR : BiUnique R) (hij : R i j) (h : Alike R ns ms) :
    Option.Rel (Alike R) (removeBelow? i ns) (removeBelow? j ms) := by
  induction h with
  | nil =>
    rw [removeBelow?, removeBelow?]
    exact .none
  | leaf hid c hrest ih =>
    rw [removeBelow?, removeBelow?]
    exact rel_map ih fun _ _ hs => .leaf hid c hs
  | @group k l cs ds ns ms hid op hinner hrest ihi ihr =>
    rw [removeBelow?, removeBelow?]
    have hbelow := rel_or (dropFirst?_alike hR hij hinner) ihi
    generalize (dropFirst? i cs).or (removeBelow? i cs) = inner,
      (dropFirst? j ds).or (removeBelow? j ds) = inner' at hbelow
    cases hbelow with
    | some hs => exact .some (.group hid op hs hrest)
    | none => exact rel_map ihr fun _ _ hs => .group hid op hinner hs

theorem remove?_alike (hR : BiUnique R) (hij : R i j) (h : Alike R ns ms) :
    Option.Rel (Alike R) (remove? i ns) (remove? j ms) :=
  rel_or (dropFirst?_alike hR hij h) (removeBelow?_alike hR hij h)

end Node

namespace Tree

variable {t u : Tree} {parent parent' : Option NodeId}

/-- Trees that differ in nothing but the identities of their nodes. -/
structure Alike (R : NodeId → NodeId → Prop) (t u : Tree) : Prop where
  rootId : R t.rootId u.rootId
  operator_eq : u.operator = t.operator
  children : Node.Alike R t.children u.children

/-- Trees alike whose next identities, too, are paired one by one. -/
structure InStep (R : NodeId → NodeId → Prop) (t u : Tree) : Prop extends Alike R t u where
  next : ∀ k, R (t.supply.give (t.next + k)) (u.supply.give (u.next + k))

/-- There is a one-to-one pairing of identities by which the trees are alike. -/
def SameButIds (t u : Tree) : Prop :=
  ∃ R, BiUnique R ∧ Alike R t u

namespace Alike

theorem payload?_eq (h : Alike R t u) : u.payload? = t.payload? := by
  rw [Tree.payload?_eq, Tree.payload?_eq, h.operator_eq, h.children.shape_eq]

theorem size_eq (h : Alike R t u) : u.size = t.size := by
  rw [size, size, ← Node.sizes_shape, h.children.shape_eq, Node.sizes_shape]

theorem kinds_eq (h : Alike R t u) : u.issues.map Issue.kind = t.issues.map Issue.kind := by
  simp [issues, h.operator_eq, h.children.length_eq, h.children.kinds_eq, Function.comp_def]

end Alike

namespace InStep

theorem withChildren (h : InStep R t u) {ns ms : List Node} (hnodes : Node.Alike R ns ms) :
    InStep R { t with children := ns } { u with children := ms } :=
  { h with children := hnodes }

theorem withOperator (h : InStep R t u) (op : GroupOperator) :
    InStep R (t.withOperator op) (u.withOperator op) :=
  { h with operator_eq := rfl }

theorem place? (h : InStep R t u) (hR : BiUnique R) (hij : R i j) :
    Option.Rel (Place.Alike (fun n m => Node.Alike R [n] [m]) (InStep R)) (t.place? i)
      (u.place? j) :=
  rel_map (Node.place?_alike hR hij h.children) fun _ _ hp => hp.within fun _ _ => h.withChildren

theorem groupPlace? (h : InStep R t u) (hR : BiUnique R) (hij : R i j) :
    Option.Rel (Place.Alike (Group.Alike R) (InStep R)) (t.groupPlace? i) (u.groupPlace? j) := by
  have hroot : Place.Alike (Group.Alike R) (InStep R)
      ⟨⟨t.rootId, t.operator, t.children⟩,
        fun g => { t with rootId := g.id, operator := g.operator, children := g.children }⟩
      ⟨⟨u.rootId, u.operator, u.children⟩,
        fun g => { u with rootId := g.id, operator := g.operator, children := g.children }⟩ :=
    ⟨⟨h.rootId, h.operator_eq, h.children⟩,
      fun _ _ hs => ⟨⟨hs.id, hs.operator_eq, hs.children⟩, h.next⟩⟩
  refine rel_ite hR h.rootId hij (.some hroot) ?_
  exact rel_map (Node.groupPlace?_alike hR hij h.children)
    fun _ _ hp => hp.within fun _ _ => h.withChildren

theorem attach? (h : InStep R t u) (hR : BiUnique R) (hparent : Option.Rel R parent parent')
    {n m : Node} (hn : Node.Alike R [n] [m]) :
    Option.Rel (InStep R) (t.attach? parent n) (u.attach? parent' m) := by
  cases hparent with
  | none => exact .some (h.withChildren (h.children.append hn))
  | some hij => exact rel_map (h.groupPlace? hR hij) fun _ _ hp => hp.put _ _ (hp.part.push hn)

theorem add (h : InStep R t u) (hR : BiUnique R) (hparent : Option.Rel R parent parent')
    {node : NodeId → Node} (hnode : ∀ i j, R i j → Node.Alike R [node i] [node j]) :
    Option.Rel R (t.add parent node).1 (u.add parent' node).1 ∧
      InStep R (t.add parent node).2 (u.add parent' node).2 := by
  have hnext : R (t.supply.give t.next) (u.supply.give u.next) := h.next 0
  have hattach := h.attach? hR hparent (hnode _ _ hnext)
  rw [Tree.add, Tree.add]
  generalize hx : t.attach? parent _ = x, hy : u.attach? parent' _ = y at hattach
  cases hattach with
  | none => exact ⟨.none, h⟩
  | @some t' u' h' =>
    have ht : t'.next = t.next := (attach?_spliced hx).1
    have hu : u'.next = u.next := (attach?_spliced hy).1
    have hlater : ∀ k, R (t'.supply.give (t.next + 1 + k)) (u'.supply.give (u.next + 1 + k)) := by
      intro k
      have hk := h'.next (1 + k)
      rwa [ht, hu, ← Nat.add_assoc, ← Nat.add_assoc] at hk
    exact ⟨.some hnext, { h' with next := hlater }⟩

theorem updateCondition (h : InStep R t u) (hR : BiUnique R) (hij : R i j) (c : ConditionUpdate) :
    (u.updateCondition j c).1 = (t.updateCondition i c).1 ∧
      InStep R (t.updateCondition i c).2 (u.updateCondition j c).2 := by
  have hplace := h.place? hR hij
  rw [Tree.updateCondition, Tree.updateCondition]
  generalize t.place? i = x, u.place? j = y at hplace
  cases hplace with
  | none => exact ⟨rfl, h⟩
  | @some p q hp =>
    obtain ⟨n, put⟩ := p
    obtain ⟨m, put'⟩ := q
    cases hp.part with
    | leaf hid d _ => exact ⟨rfl, hp.put _ _ (.leaf hid _ .nil)⟩
    | group hid op _ _ => exact ⟨rfl, h⟩

theorem updateGroup (h : InStep R t u) (hR : BiUnique R) (hij : R i j) (op : GroupOperator) :
    (u.updateGroup j op).1 = (t.updateGroup i op).1 ∧
      InStep R (t.updateGroup i op).2 (u.updateGroup j op).2 := by
  have hplace := h.groupPlace? hR hij
  rw [Tree.updateGroup, Tree.updateGroup]
  generalize t.groupPlace? i = x, u.groupPlace? j = y at hplace
  cases hplace with
  | none => exact ⟨rfl, h⟩
  | some hp => exact ⟨rfl, hp.put _ _ { hp.part with operator_eq := rfl }⟩

theorem remove (h : InStep R t u) (hR : BiUnique R) (hij : R i j) :
    (u.remove j).1 = (t.remove i).1 ∧ InStep R (t.remove i).2 (u.remove j).2 := by
  have hremove := Node.remove?_alike hR hij h.children
  rw [Tree.remove, Tree.remove]
  generalize Node.remove? i t.children = x, Node.remove? j u.children = y at hremove
  cases hremove with
  | none => exact ⟨rfl, h⟩
  | some hnodes => exact ⟨rfl, h.withChildren hnodes⟩

end InStep

end Tree

end RecordLogic.Filter
