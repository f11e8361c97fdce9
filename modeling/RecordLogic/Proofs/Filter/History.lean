import RecordLogic.Filter.Script

namespace RecordLogic.Filter

/-- What a ref can stand for: the root, or the node that was added by the edit with this number. -/
inductive Mark where
  | root
  | added (n : Nat)
deriving DecidableEq

inductive Kind where
  | leaf
  | group
deriving DecidableEq

namespace Step

/-- The kind of node that an edit adds. -/
def adds? : Step → Option Kind
  | addCondition .. => some .leaf
  | addGroup .. => some .group
  | _ => none

/-- The ref that an edit binds to the node that it adds. -/
def ref? : Step → Option String
  | addCondition ref _ _ => ref
  | addGroup ref _ _ => ref
  | _ => none

/-- The parent or target that an edit names. -/
def named? : Step → Option String
  | addCondition _ parent _ => parent
  | addGroup _ parent _ => parent
  | update target _ => some target
  | setGroupOperator target _ => some target
  | remove target => some target
  | setRootOperator _ => none
  | clear => none

theorem adds?_isSome_of_ref? {step : Step} {ref : String} (h : step.ref? = some ref) :
    step.adds?.isSome := by
  cases step <;> simp_all [ref?, adds?]

end Step

/-- An edit that was tried, and whether it was made. -/
structure Event where
  step : Step
  applied : Bool

/-- The edits that were tried, the latest first. Their numbers count from the first one on. What
follows looks at these edits alone, at no tree and at no table of refs. -/
abbrev History := List Event

namespace History

/-- What a ref stands for: the node of the latest edit that bound it. As long as there is none,
`root` stands for the root. -/
def mark? : History → String → Option Mark
  | [], ref => if ref = "root" then some .root else none
  | e :: h, ref =>
    if e.applied ∧ e.step.ref? = some ref then some (.added h.length) else mark? h ref

/-- The kind of the node that an edit added. -/
def kind? : History → Nat → Option Kind
  | [], _ => none
  | e :: h, n => if n = h.length then (if e.applied then e.step.adds? else none) else kind? h n

/-- What the parent or target of an edit stands for; without a name it is the root. -/
def place? (h : History) (step : Step) : Option Mark :=
  match step.named? with
  | none => some .root
  | some ref => mark? h ref

/-- What the node of an edit was added to. -/
def parent? : History → Nat → Option Mark
  | [], _ => none
  | e :: h, n => if n = h.length then place? h e.step else parent? h n

/-- The node of an edit and its ancestors, but for the root. -/
def lineage : History → Nat → List Nat
  | [], _ => []
  | e :: h, n =>
    if n = h.length then
      match place? h e.step with
      | some (.added p) => n :: lineage h p
      | _ => [n]
    else lineage h n

/-- An edit takes a node out of the tree: it removes the node or one of its ancestors, or all. -/
def takesOut (h : History) (e : Event) (n : Nat) : Bool :=
  e.applied && match e.step with
    | .remove target => (mark? h target).any fun m => (lineage h n).any (m = .added ·)
    | .clear => true
    | _ => false

/-- The node of an edit has left the tree. -/
def left : History → Nat → Bool
  | [], _ => false
  | e :: h, n => left h n || (n < h.length && takesOut h e n)

def gone (h : History) : Mark → Bool
  | .root => false
  | .added n => left h n

/-- The node is of the wrong kind for an edit that names it. -/
def misfits (h : History) : Step → Mark → Bool
  | .addCondition .., .added n => kind? h n = some .leaf
  | .addGroup .., .added n => kind? h n = some .leaf
  | .setGroupOperator .., .added n => kind? h n = some .leaf
  | .update .., .added n => kind? h n = some .group
  | .update .., .root => true
  | .remove .., .root => true
  | _, _ => false

/-- An edit changes nothing. -/
def idle (h : History) (step : Step) : Bool :=
  step.named?.any fun ref => (mark? h ref).all fun m => misfits h step m || gone h m

def record (h : History) (step : Step) : History :=
  ⟨step, !idle h step⟩ :: h

/-- The history after further edits were tried. -/
def extend (h : History) (steps : List Step) : History :=
  steps.foldl record h

variable {h : History} {e : Event} {step : Step} {ref : String} {m : Mark} {n k : Nat}
  {kind : Kind}

theorem mark?_eq_none_iff :
    mark? h ref = none ↔ ref ≠ "root" ∧ ∀ e ∈ h, e.applied → e.step.ref? ≠ some ref := by
  induction h with
  | nil => simp [mark?]
  | cons e h ih =>
    rw [mark?]
    split
    · rename_i hbinds
      simp [hbinds]
    · rename_i hbinds
      rw [ih, List.forall_mem_cons]
      grind

theorem kind?_cons_length :
    kind? (e :: h) h.length = if e.applied then e.step.adds? else none := by
  simp [kind?]

theorem kind?_cons_of_ne (hn : n ≠ h.length) : kind? (e :: h) n = kind? h n := by
  simp [kind?, hn]

theorem lt_of_kind? (hn : (kind? h n).isSome) : n < h.length := by
  induction h with
  | nil => simp [kind?] at hn
  | cons e h ih =>
    rw [List.length_cons]
    by_cases hlast : n = h.length
    · omega
    · rw [kind?_cons_of_ne hlast] at hn
      have hlt := ih hn
      omega

theorem kind?_ne_iff {a b : Kind} (hn : (kind? h n).isSome) (hab : a ≠ b) :
    kind? h n ≠ some a ↔ kind? h n = some b := by
  obtain ⟨kind, hkind⟩ := Option.isSome_iff_exists.mp hn
  cases kind <;> cases a <;> cases b <;> simp_all

theorem kind?_append (l : History) (hn : n < h.length) : kind? (l ++ h) n = kind? h n := by
  induction l with
  | nil => rfl
  | cons e l ih =>
    have hne : n ≠ (l ++ h).length := by
      rw [List.length_append]
      omega
    rw [List.cons_append, kind?_cons_of_ne hne, ih]

/-- A ref stands for a node that was added. -/
theorem kind?_of_mark? (hm : mark? h ref = some (.added n)) : (kind? h n).isSome := by
  induction h with
  | nil =>
    rw [mark?] at hm
    split at hm <;> cases hm
  | cons e h ih =>
    rw [mark?] at hm
    split at hm
    · rename_i hbinds
      cases hm
      rw [kind?_cons_length, if_pos hbinds.1]
      exact Step.adds?_isSome_of_ref? hbinds.2
    · have hn := ih hm
      rwa [kind?_cons_of_ne (Nat.ne_of_lt (lt_of_kind? hn))]

theorem kind?_of_place? (hm : place? h step = some (.added n)) : (kind? h n).isSome := by
  rw [place?] at hm
  split at hm
  · cases hm
  · exact kind?_of_mark? hm

theorem parent?_cons_length : parent? (e :: h) h.length = place? h e.step := by
  simp [parent?]

theorem parent?_cons_of_ne (hn : n ≠ h.length) : parent? (e :: h) n = parent? h n := by
  simp [parent?, hn]

/-- The parent of a node was added before it. -/
theorem parent?_added (hp : parent? h n = some (.added k)) : k < n ∧ (kind? h k).isSome := by
  induction h with
  | nil => cases hp
  | cons e h ih =>
    have hcons (hk : (kind? h k).isSome) : (kind? (e :: h) k).isSome := by
      rwa [kind?_cons_of_ne (Nat.ne_of_lt (lt_of_kind? hk))]
    by_cases hn : n = h.length
    · subst hn
      rw [parent?_cons_length] at hp
      have hk := kind?_of_place? hp
      exact ⟨lt_of_kind? hk, hcons hk⟩
    · rw [parent?_cons_of_ne hn] at hp
      obtain ⟨hlt, hk⟩ := ih hp
      exact ⟨hlt, hcons hk⟩

theorem lineage_cons_of_ne (hn : n ≠ h.length) : lineage (e :: h) n = lineage h n := by
  simp [lineage, hn]

theorem lineage_eq (hn : n < h.length) : lineage h n =
    match parent? h n with
    | some (.added p) => n :: lineage h p
    | _ => [n] := by
  induction h with
  | nil => simp at hn
  | cons e h ih =>
    by_cases hlast : n = h.length
    · subst hlast
      rw [parent?_cons_length, lineage, if_pos rfl]
      split
      · rename_i p hp
        rw [lineage_cons_of_ne (Nat.ne_of_lt (lt_of_kind? (kind?_of_place? hp)))]
      · rfl
    · have hlt : n < h.length := by
        rw [List.length_cons] at hn
        omega
      rw [parent?_cons_of_ne hlast, lineage_cons_of_ne hlast, ih hlt]
      split
      · rename_i p hp
        have hne : p ≠ h.length := by
          have hpn := (parent?_added hp).1
          omega
        rw [lineage_cons_of_ne hne]
      · rfl

theorem lt_of_left (hn : left h n = true) : n < h.length := by
  induction h with
  | nil => simp [left] at hn
  | cons e h ih =>
    simp only [left, Bool.or_eq_true, Bool.and_eq_true, decide_eq_true_eq] at hn
    rw [List.length_cons]
    rcases hn with hbefore | ⟨hlt, -⟩
    · exact Nat.lt_succ_of_lt (ih hbefore)
    · exact Nat.lt_succ_of_lt hlt

theorem left_cons_length : left (e :: h) h.length = false := by
  have hbefore : left h h.length = false := by
    rw [← Bool.not_eq_true]
    intro hleft
    exact Nat.lt_irrefl _ (lt_of_left hleft)
  simp [left, hbefore]

theorem left_cons_of_kept (htakes : takesOut h e n = false) : left (e :: h) n = left h n := by
  simp [left, htakes]

theorem takesOut_of_adds? (hadds : step.adds? = some kind) (n : Nat) :
    takesOut h ⟨step, true⟩ n = false := by
  cases step <;> simp_all [Step.adds?, takesOut]

theorem idle_of_mark? (hnamed : step.named? = some ref)
    (hm : mark? h ref = some m) : idle h step = (misfits h step m || gone h m) := by
  simp [idle, hnamed, hm]

theorem extend_cons (h : History) (step : Step) (steps : List Step) :
    extend h (step :: steps) = extend (record h step) steps :=
  rfl

theorem length_record : (record h step).length = h.length + 1 :=
  rfl

theorem extend_append (h : History) (steps : List Step) : ∃ l, extend h steps = l ++ h := by
  induction steps generalizing h with
  | nil => exact ⟨[], rfl⟩
  | cons step steps ih =>
    obtain ⟨l, hl⟩ := ih (record h step)
    refine ⟨l ++ [⟨step, !idle h step⟩], ?_⟩
    rw [extend_cons, hl, record, List.append_assoc]
    rfl

theorem length_extend (h : History) (steps : List Step) :
    (extend h steps).length = h.length + steps.length := by
  induction steps generalizing h with
  | nil => rfl
  | cons step steps ih =>
    rw [extend_cons, ih, length_record, List.length_cons]
    omega

end History

end RecordLogic.Filter
