import RecordLogic.Proofs.Filter.Attempt
import RecordLogic.Proofs.Filter.History
import RecordLogic.Proofs.Filter.Identity

namespace RecordLogic.Filter

def Content.kind : Content → Kind
  | .leaf _ => .leaf
  | .group _ => .group

def Node.kind : Node → Kind
  | .leaf .. => .leaf
  | .group .. => .group

variable {i j : NodeId} {kind : Kind} {step : Step}

/-- Nodes and entries in depth-first order have the same identities and kinds. -/
theorem Node.map_entries_eq_map_all (r : NodeId) (ns : List Node) :
    (entries r ns).map (fun e => (e.id, e.content.kind)) =
      (all ns).map fun n => (n.id, n.kind) := by
  fun_induction entries r ns with
  | case1 => simp [all]
  | case2 r i c ns ih =>
    rw [List.map_cons, ih, all, List.map_cons]
    rfl
  | case3 r i op cs ns ihc ihn =>
    rw [List.map_cons, List.map_append, ihc, ihn, all, List.map_cons, List.map_append]
    rfl

namespace Tree

variable {t t' : Tree}

/-- A node below the root has this identity and is of this kind. -/
def Has (t : Tree) (i : NodeId) (kind : Kind) : Prop :=
  ∃ e ∈ t.entries, e.id = i ∧ e.content.kind = kind

theorem has_iff (h : t.Distinct) : t.Has i kind ↔ ∃ n, t.find? i = some n ∧ n.kind = kind := by
  have hids := (List.nodup_cons.mp h).2
  have hpairs := Node.map_entries_eq_map_all t.rootId t.children
  constructor
  · rintro ⟨e, he, rfl, rfl⟩
    have hmem : (e.id, e.content.kind) ∈ (Node.all t.children).map fun n => (n.id, n.kind) := by
      rw [← hpairs]
      exact List.mem_map_of_mem (f := fun e : Entry => (e.id, e.content.kind)) he
    obtain ⟨n, hn, heq⟩ := List.mem_map.mp hmem
    obtain ⟨hid, hkind⟩ := Prod.mk.inj heq
    exact ⟨n, (Node.find?_eq_some_iff hids).mpr ⟨hn, hid⟩, hkind⟩
  · rintro ⟨n, hfound, rfl⟩
    obtain ⟨hn, rfl⟩ := Node.mem_all_of_find? hfound
    have hmem : (n.id, n.kind) ∈ t.entries.map fun e => (e.id, e.content.kind) := by
      rw [entries, hpairs]
      exact List.mem_map_of_mem (f := fun n : Node => (n.id, n.kind)) hn
    obtain ⟨e, he, heq⟩ := List.mem_map.mp hmem
    obtain ⟨hid, hkind⟩ := Prod.mk.inj heq
    exact ⟨e, he, hid, hkind⟩

theorem hasLeaf_iff (h : t.Distinct) : t.HasLeaf i ↔ t.Has i .leaf := by
  rw [HasLeaf, has_iff h]
  constructor
  · rintro ⟨c, hfound⟩
    exact ⟨_, hfound, rfl⟩
  · rintro ⟨n, hfound, hkind⟩
    have hid := (Node.mem_all_of_find? hfound).2
    cases n with
    | leaf j c => exact ⟨c, hid ▸ hfound⟩
    | group j op cs => cases hkind

theorem hasGroup_iff (h : t.Distinct) : t.HasGroup i ↔ i = t.rootId ∨ t.Has i .group := by
  rw [HasGroup, has_iff h]
  refine or_congr_right ⟨?_, ?_⟩
  · rintro ⟨op, cs, hfound⟩
    exact ⟨_, hfound, rfl⟩
  · rintro ⟨n, hfound, hkind⟩
    have hid := (Node.mem_all_of_find? hfound).2
    cases n with
    | leaf j c => cases hkind
    | group j op cs => exact ⟨op, cs, hid ▸ hfound⟩

theorem mem_ids_iff_has : i ∈ t.ids ↔ ∃ kind, t.Has i kind := by
  rw [← map_id_entries, List.mem_map]
  constructor
  · rintro ⟨e, he, hid⟩
    exact ⟨_, e, he, hid, rfl⟩
  · rintro ⟨kind, e, he, hid, -⟩
    exact ⟨e, he, hid⟩

end Tree

namespace History

variable {h : History} {e : Event} {m : Mark} {n k : Nat} {supply : Supply} {first : Nat}

/-- How many nodes were added. -/
def additions : History → Nat
  | [] => 0
  | e :: h => if e.applied ∧ e.step.adds?.isSome then additions h + 1 else additions h

/-- How many nodes were added before an edit. -/
def number : History → Nat → Nat
  | [], _ => 0
  | _ :: h, n => if n = h.length then additions h else number h n

/-- The identity of a node. They are given out in order, the first one to the root. -/
def identity (supply : Supply) (first : Nat) (h : History) : Mark → NodeId
  | .root => supply.give first
  | .added n => supply.give (first + 1 + number h n)

theorem number_cons_of_ne (hn : n ≠ h.length) : number (e :: h) n = number h n := by
  simp [number, hn]

theorem number_cons_length : number (e :: h) h.length = additions h := by
  simp [number]

theorem additions_le_cons : additions h ≤ additions (e :: h) := by
  rw [additions]
  split <;> omega

theorem number_lt (hn : (kind? h n).isSome) : number h n < additions h := by
  induction h with
  | nil => simp [kind?] at hn
  | cons e h ih =>
    by_cases hlast : n = h.length
    · subst hlast
      rw [kind?_cons_length] at hn
      split at hn
      · rename_i happlied
        rw [number_cons_length, additions, if_pos ⟨happlied, hn⟩]
        exact Nat.lt_succ_self _
      · simp at hn
    · rw [kind?_cons_of_ne hlast] at hn
      rw [number_cons_of_ne hlast]
      exact Nat.lt_of_lt_of_le (ih hn) additions_le_cons

theorem number_inj (hn : (kind? h n).isSome) (hk : (kind? h k).isSome)
    (heq : number h n = number h k) : n = k := by
  induction h with
  | nil => simp [kind?] at hn
  | cons e h ih =>
    by_cases hnlast : n = h.length
    · by_cases hklast : k = h.length
      · rw [hnlast, hklast]
      · rw [kind?_cons_of_ne hklast] at hk
        rw [hnlast, number_cons_length, number_cons_of_ne hklast] at heq
        have hlt := number_lt hk
        omega
    · rw [kind?_cons_of_ne hnlast] at hn
      rw [number_cons_of_ne hnlast] at heq
      by_cases hklast : k = h.length
      · rw [hklast, number_cons_length] at heq
        have hlt := number_lt hn
        omega
      · rw [kind?_cons_of_ne hklast] at hk
        rw [number_cons_of_ne hklast] at heq
        exact ih hn hk heq

/-- The mark is the root or a node that was added. -/
def Knows (h : History) (m : Mark) : Prop :=
  ∀ n, m = .added n → (kind? h n).isSome

theorem knows_of_mark? {ref : String} (hm : mark? h ref = some m) : Knows h m := by
  rintro n rfl
  exact kind?_of_mark? hm

theorem knows_of_place? (hm : place? h step = some m) : Knows h m := by
  rintro n rfl
  exact kind?_of_place? hm

theorem knows_of_parent? (hm : parent? h n = some m) : Knows h m := by
  rintro k rfl
  exact (parent?_added hm).2

theorem identity_cons (hm : Knows h m) :
    identity supply first (e :: h) m = identity supply first h m := by
  cases m with
  | root => rfl
  | added n =>
    have hne : n ≠ h.length := Nat.ne_of_lt (lt_of_kind? (hm n rfl))
    rw [identity, identity, number_cons_of_ne hne]

theorem identity_append (l : History) (hm : Knows h m) :
    identity supply first (l ++ h) m = identity supply first h m := by
  induction l with
  | nil => rfl
  | cons e l ih =>
    have hlater : Knows (l ++ h) m := by
      intro n hn
      rw [kind?_append l (lt_of_kind? (hm n hn))]
      exact hm n hn
    rw [List.cons_append, identity_cons hlater, ih]

theorem identity_inj (hn : (kind? h n).isSome) (hk : (kind? h k).isSome)
    (heq : identity supply first h (.added n) = identity supply first h (.added k)) : n = k := by
  have hnumbers := supply.give_injective heq
  exact number_inj hn hk (by omega)

theorem identity_ne_root :
    identity supply first h (.added n) ≠ identity supply first h .root := by
  intro heq
  have hnumbers := supply.give_injective heq
  omega

/-- The entry of a node that was added and has not left. -/
def Shows (supply : Supply) (first : Nat) (h : History) (x : Entry) : Prop :=
  ∃ n m, left h n = false ∧ kind? h n = some x.content.kind ∧ parent? h n = some m ∧
    x.id = identity supply first h (.added n) ∧ x.parent = identity supply first h m

theorem identity_added_cons (hn : (kind? h n).isSome) :
    identity supply first (e :: h) (.added n) = identity supply first h (.added n) :=
  identity_cons fun _ hk => Mark.added.inj hk ▸ hn

theorem map_identity_cons (e : Event) (h : History) (ref : String) :
    (mark? h ref).map (identity supply first (e :: h)) =
      (mark? h ref).map (identity supply first h) :=
  Option.map_congr fun _ hm => identity_cons (knows_of_mark? hm)

/-- An entry with the identity of a node is the entry of that node. -/
theorem Shows.of_id {x : Entry} (hx : Shows supply first h x) (hn : (kind? h n).isSome)
    (hid : x.id = identity supply first h (.added n)) :
    left h n = false ∧ kind? h n = some x.content.kind ∧
      ∃ m, parent? h n = some m ∧ x.parent = identity supply first h m := by
  obtain ⟨k, m, hleft, hkind, hparent, hk, hmid⟩ := hx
  obtain rfl : n = k := identity_inj hn (Option.isSome_of_eq_some hkind) (hid.symm.trans hk)
  exact ⟨hleft, hkind, m, hparent, hmid⟩

/-- The entry of a node stays as it is when another edit takes neither the node nor its place. -/
theorem Shows.cons {x y : Entry} (hx : Shows supply first h x) (hid : y.id = x.id)
    (hparent : y.parent = x.parent) (hkind : y.content.kind = x.content.kind)
    (hkept : ∀ n, (kind? h n).isSome → left h n = false →
      y.id = identity supply first h (.added n) → takesOut h e n = false) :
    Shows supply first (e :: h) y := by
  obtain ⟨n, m, hleft, hn, hm, hnid, hmid⟩ := hx
  have hsome : (kind? h n).isSome := Option.isSome_of_eq_some hn
  have hne : n ≠ h.length := Nat.ne_of_lt (lt_of_kind? hsome)
  refine ⟨n, m, ?_, ?_, ?_, ?_, ?_⟩
  · rw [left_cons_of_kept (hkept n hsome hleft (hid.trans hnid)), hleft]
  · rw [kind?_cons_of_ne hne, hn, hkind]
  · rw [parent?_cons_of_ne hne, hm]
  · rw [identity_added_cons hsome, hid, hnid]
  · rw [identity_cons (knows_of_parent? hm), hparent, hmid]

end History

end RecordLogic.Filter
