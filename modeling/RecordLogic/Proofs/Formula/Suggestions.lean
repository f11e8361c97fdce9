import Mathlib.Data.Set.Insert
import RecordLogic.Formula.Registry
import RecordLogic.Proofs.Table
import RecordLogic.Proofs.Text.Distance

namespace RecordLogic

namespace Entries

variable {α : Type} {es : Entries α} {key : String}

theorem find?_isSome_iff : (es.find? key).isSome ↔ key ∈ es.keys := by
  induction es with
  | nil => simp [find?, keys]
  | cons e es ih =>
    obtain ⟨k, a⟩ := e
    have hkeys : keys ((k, a) :: es) = k :: keys es := rfl
    rw [find?, hkeys, List.mem_cons, ← ih]
    split
    · simp_all
    · rename_i hne
      simp [Ne.symm hne]

end Entries

namespace Formula.Registry

variable {r : Registry} {wanted k l : String} {d : Nat} {ks : List String} {s : Set String}

/-- A change of what is registered. -/
inductive Change where
  | register (name : String) (f : Function)
  | unregister (name : String)

def change (r : Registry) : Change → Registry
  | .register name f => r.register name f
  | .unregister name => (r.unregister name).2

/-- The registry after changes made one after the other. -/
def after (r : Registry) (changes : List Change) : Registry :=
  changes.foldl change r

def names (r : Registry) : Set String := {name | r.contains name}

/-- The set of names after a change. -/
def Change.namesAfter (s : Set String) : Change → Set String
  | .register name _ => insert name s
  | .unregister name => s \ {name}

theorem mem_names_iff : k ∈ r.names ↔ k ∈ r.keys :=
  Entries.find?_isSome_iff

theorem names_change (r : Registry) (c : Change) :
    (r.change c).names = c.namesAfter r.names := by
  ext name
  cases c with
  | register other f =>
    by_cases hname : other = name
    · subst hname
      simp [names, change, register, contains, Change.namesAfter]
    · simp [names, change, register, contains, Change.namesAfter,
        Table.find?_insert_of_ne hname, Ne.symm hname]
  | unregister other =>
    by_cases hname : other = name
    · subst hname
      simp [names, change, unregister, contains, Change.namesAfter, Table.find?_erase_self]
    · simp [names, change, unregister, contains, Change.namesAfter,
        Table.find?_erase_of_ne hname, Ne.symm hname]

/-- By induction on the changes: the functions that are registered do not matter for the names. -/
theorem names_after (r : Registry) (changes : List Change) :
    (r.after changes).names = changes.foldl Change.namesAfter r.names := by
  induction changes generalizing r with
  | nil => rfl
  | cons c changes ih =>
    rw [List.foldl_cons, ← names_change]
    exact ih (r.change c)

/-- None of the names is nearer, and of those equally near it comes first in the alphabet. -/
structure Nearest (wanted : String) (s : Set String) (k : String) : Prop where
  mem : k ∈ s
  first : ∀ l ∈ s, nameDistance wanted k < nameDistance wanted l ∨
    nameDistance wanted k = nameDistance wanted l ∧ k ≤ l

theorem Nearest.unique (hk : Nearest wanted s k) (hl : Nearest wanted s l) : k = l := by
  have hkl := hk.first l hl.mem
  have hlk := hl.first k hk.mem
  have heq : nameDistance wanted k = nameDistance wanted l := by omega
  rw [heq] at hkl hlk
  simp only [Nat.lt_irrefl, false_or, true_and] at hkl hlk
  exact String.le_antisymm hkl hlk

theorem nearest?_eq_none_iff : nearest? wanted ks = none ↔ ks = [] := by
  cases ks with
  | nil => simp [nearest?]
  | cons k ks =>
    rw [nearest?]
    cases nearest? wanted ks with
    | none => simp
    | some e => dsimp only; split <;> simp

/-- By induction on names in alphabetical order: the first name gives way to a later one only if
that is nearer. -/
theorem nearest_of_nearest? (hsorted : ks.Pairwise (· < ·))
    (h : nearest? wanted ks = some (k, d)) :
    d = nameDistance wanted k ∧ Nearest wanted {l | l ∈ ks} k := by
  induction ks generalizing k d with
  | nil => cases h
  | cons j ks ih =>
    obtain ⟨hfirst, hrest⟩ := List.pairwise_cons.mp hsorted
    rw [nearest?] at h
    cases hnext : nearest? wanted ks with
    | none =>
      obtain rfl := nearest?_eq_none_iff.mp hnext
      rw [hnext] at h
      obtain ⟨rfl, rfl⟩ := Prod.mk.inj (Option.some.inj h)
      refine ⟨rfl, List.mem_singleton.mpr rfl, ?_⟩
      intro l hl
      obtain rfl := List.mem_singleton.mp hl
      exact Or.inr ⟨rfl, String.le_refl _⟩
    | some e =>
      obtain ⟨i, di⟩ := e
      obtain ⟨rfl, hi⟩ := ih hrest hnext
      rw [hnext] at h
      dsimp only at h
      split at h
      · rename_i hnearer
        obtain ⟨rfl, rfl⟩ := Prod.mk.inj (Option.some.inj h)
        refine ⟨rfl, List.mem_cons_of_mem _ hi.mem, ?_⟩
        intro l hl
        rcases List.mem_cons.mp hl with rfl | hl
        · exact Or.inl hnearer
        · exact hi.first l hl
      · rename_i hnot
        obtain ⟨rfl, rfl⟩ := Prod.mk.inj (Option.some.inj h)
        refine ⟨rfl, List.mem_cons_self, ?_⟩
        intro l hl
        rcases List.mem_cons.mp hl with rfl | hl
        · exact Or.inr ⟨rfl, String.le_refl _⟩
        · have hbefore : j ≤ l := Std.le_of_lt (hfirst l hl)
          have hle : nameDistance wanted i ≤ nameDistance wanted l := by
            rcases hi.first l hl with hlt | ⟨heq, -⟩ <;> omega
          rcases Nat.lt_or_eq_of_le (Nat.le_trans (Nat.le_of_not_lt hnot) hle) with hlt | heq
          · exact Or.inl hlt
          · exact Or.inr ⟨heq, hbefore⟩

theorem nearest?_keys_eq_some_iff : nearest? wanted r.keys = some (k, d) ↔
    d = nameDistance wanted k ∧ Nearest wanted r.names k := by
  have hsorted : r.keys.Pairwise (· < ·) := (Entries.sorted_iff r.entries).mp r.sorted
  have hnames : {l | l ∈ r.keys} = r.names := Set.ext fun l => mem_names_iff.symm
  rw [← hnames]
  refine ⟨nearest_of_nearest? hsorted, ?_⟩
  rintro ⟨rfl, hk⟩
  cases hfound : nearest? wanted r.keys with
  | none =>
    have hmem : k ∈ r.keys := hk.mem
    rw [nearest?_eq_none_iff.mp hfound] at hmem
    cases hmem
  | some e =>
    obtain ⟨l, d⟩ := e
    obtain ⟨rfl, hl⟩ := nearest_of_nearest? hsorted hfound
    rw [hk.unique hl]

theorem exists_nearest (wanted : String) (h : k ∈ r.names) : ∃ l, Nearest wanted r.names l := by
  cases hfound : nearest? wanted r.keys with
  | none =>
    rw [mem_names_iff, nearest?_eq_none_iff.mp hfound] at h
    cases h
  | some e => exact ⟨e.1, (nearest?_keys_eq_some_iff.mp hfound).2⟩

theorem suggest_eq_some_iff : r.suggest wanted = some k ↔
    Nearest wanted r.names k ∧ nameDistance wanted k ≤ 3 := by
  have hfound : r.suggest wanted = some k ↔
      ∃ d, nearest? wanted r.keys = some (k, d) ∧ d ≤ 3 := by
    simp only [suggest, Option.map_eq_some_iff, Option.filter_eq_some_iff, decide_eq_true_eq]
    constructor
    · rintro ⟨e, ⟨hfound, hnear⟩, rfl⟩
      exact ⟨e.2, hfound, hnear⟩
    · rintro ⟨d, hfound, hnear⟩
      exact ⟨(k, d), ⟨hfound, hnear⟩, rfl⟩
  rw [hfound]
  simp only [nearest?_keys_eq_some_iff]
  constructor
  · rintro ⟨d, ⟨rfl, hk⟩, hnear⟩
    exact ⟨hk, hnear⟩
  · rintro ⟨hk, hnear⟩
    exact ⟨_, ⟨rfl, hk⟩, hnear⟩

theorem suggest_eq_none_iff :
    r.suggest wanted = none ↔ ∀ k ∈ r.names, 3 < nameDistance wanted k := by
  constructor
  · intro hnone k hk
    obtain ⟨l, hl⟩ := exists_nearest wanted hk
    have hfar : 3 < nameDistance wanted l := by
      by_contra hnear
      rw [suggest_eq_some_iff.mpr ⟨hl, Nat.le_of_not_lt hnear⟩] at hnone
      cases hnone
    have hfirst := hl.first k hk
    omega
  · intro hfar
    cases hsome : r.suggest wanted with
    | none => rfl
    | some k =>
      obtain ⟨hk, hnear⟩ := suggest_eq_some_iff.mp hsome
      exact absurd (hfar k hk.mem) (Nat.not_lt.mpr hnear)

/-- After any changes the answer is the first in the alphabet of the registered names that take the
fewest edits from the wanted one, all in capitals; there is none exactly if each of them takes more
than three. It hangs on the set of names alone, however they came to be registered. -/
theorem suggest_nearest (start : Registry) (changes : List Change) (wanted : String) :
    let r := start.after changes
    r.names = changes.foldl Change.namesAfter start.names ∧
    (∀ k, IsLeast {n | Text.Edits n (Text.upper wanted).toList (Text.upper k).toList}
      (nameDistance wanted k)) ∧
    (r.suggest wanted = none ↔ ∀ k ∈ r.names, 3 < nameDistance wanted k) ∧
    (∀ k, r.suggest wanted = some k ↔
      Nearest wanted r.names k ∧ nameDistance wanted k ≤ 3) ∧
    ∀ start' changes', (after start' changes').names = r.names →
      (after start' changes').suggest wanted = r.suggest wanted := by
  intro r
  refine ⟨names_after start changes, fun k => Text.isLeast_distance _ _, suggest_eq_none_iff,
    fun k => suggest_eq_some_iff, ?_⟩
  intro start' changes' hnames
  apply Option.ext
  intro k
  rw [suggest_eq_some_iff, suggest_eq_some_iff, hnames]

/-- Three names are one edit away; they are registered in two orders, one of them twice, and a
fourth one is taken out again. -/
theorem suggest_nearest_ties :
    let f : Function := fun _ => .ok .null
    let r := after Table.empty [.register "Sun" f, .register "SUM" f, .register "SUB" f]
    let r' := after Table.empty [.register "SUB" f, .register "SUX" f, .register "SUM" f,
      .register "SUB" f, .unregister "SUX", .register "Sun" f]
    r'.names = r.names ∧ r'.suggest "sux" = r.suggest "sux" ∧ r.suggest "sux" = some "SUB" := by
  intro f r r'
  obtain ⟨hnames, -, -, -, hsame⟩ := suggest_nearest Table.empty
    [.register "Sun" f, .register "SUM" f, .register "SUB" f] "sux"
  have hempty : names Table.empty = ∅ := by
    ext k
    simp [mem_names_iff, Table.keys, Table.empty, Entries.keys]
  have heq : r'.names = r.names := by
    rw [names_after, hnames, hempty]
    ext k
    simp only [List.foldl_cons, List.foldl_nil, Change.namesAfter, Set.mem_insert_iff,
      Set.mem_sdiff, Set.mem_singleton_iff, Set.mem_empty_iff_false]
    grind
  exact ⟨heq, hsame _ _ heq, by decide⟩

end Formula.Registry

end RecordLogic
