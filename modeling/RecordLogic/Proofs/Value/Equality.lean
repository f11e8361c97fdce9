import RecordLogic.Proofs.Json.Record
import RecordLogic.Proofs.Number.Order
import RecordLogic.Proofs.Value.Parts
import RecordLogic.Value.Equality

namespace RecordLogic.Value

variable {zone : Time.Zone} {v w : Value} {items : List Value} {entries as bs : Entries Value}
  {key : String} {i : Nat}

theorem flatEq_comm (zone : Time.Zone) (a b : Value) : flatEq zone a b = flatEq zone b a := by
  unfold flatEq
  rw [Bool.or_comm b.isNullish, Bool.and_comm b.isNullish, Bool.or_comm b.isNumeric,
    BEq.comm (a := b.toNumber)]
  split
  · rfl
  · split
    · rfl
    · cases a <;> cases b <;> simp [Bool.beq_comm]

theorem looseEqItems_comm {as : List Value} (h : ∀ a ∈ as, ∀ b, looseEq zone a b = looseEq zone b a)
    (bs : List Value) : looseEqItems zone as bs = looseEqItems zone bs as := by
  induction as generalizing bs with
  | nil => cases bs <;> simp [looseEqItems]
  | cons a as ih =>
    obtain ⟨ha, has⟩ := List.forall_mem_cons.mp h
    cases bs with
    | nil => simp [looseEqItems]
    | cons b bs => rw [looseEqItems, looseEqItems, ha b, ih has bs]

theorem looseEqEntries_comm (h : ∀ e ∈ as, ∀ b, looseEq zone e.2 b = looseEq zone b e.2)
    (bs : Entries Value) : looseEqEntries zone as bs = looseEqEntries zone bs as := by
  induction as generalizing bs with
  | nil => cases bs <;> simp [looseEqEntries]
  | cons e as ih =>
    obtain ⟨he, has⟩ := List.forall_mem_cons.mp h
    cases bs with
    | nil => simp [looseEqEntries]
    | cons d bs => rw [looseEqEntries, looseEqEntries, he d.2, ih has bs, Bool.beq_comm (a := e.1)]

/-- Loose equality does not depend on the order of its two sides. -/
theorem looseEq_comm (zone : Time.Zone) (a b : Value) : looseEq zone a b = looseEq zone b a := by
  induction a using partsInduction generalizing b with
  | array as ih =>
    cases b with
    | array bs => rw [looseEq, looseEq, looseEqItems_comm ih bs]
    | _ => simp only [looseEq, flatEq_comm zone (array as)]
  | object as ih =>
    cases b with
    | object bs => rw [looseEq, looseEq, looseEqEntries_comm ih bs]
    | _ => simp only [looseEq, flatEq_comm zone (object as)]
  | _ => simp only [looseEq]; exact flatEq_comm zone _ b

theorem keys_eq_of_looseEqEntries (h : looseEqEntries zone as bs = true) : as.keys = bs.keys := by
  induction as generalizing bs with
  | nil =>
    cases bs with
    | nil => rfl
    | cons d bs => simp [looseEqEntries] at h
  | cons e as ih =>
    cases bs with
    | nil => simp [looseEqEntries] at h
    | cons d bs =>
      simp only [looseEqEntries, Bool.and_eq_true, beq_iff_eq] at h
      have hkeys := ih h.2
      simp only [Entries.keys, List.map_cons] at hkeys ⊢
      rw [h.1.1, hkeys]

theorem looseEqEntries_iff_of_keys_eq (hkeys : as.keys = bs.keys) (hsorted : as.Sorted) :
    looseEqEntries zone as bs = true ↔
      ∀ e ∈ as, ∃ w, bs.find? e.1 = some w ∧ looseEq zone e.2 w = true := by
  induction as generalizing bs with
  | nil =>
    cases bs with
    | nil => simp [looseEqEntries]
    | cons d bs => simp [Entries.keys] at hkeys
  | cons e as ih =>
    cases bs with
    | nil => simp [Entries.keys] at hkeys
    | cons d bs =>
      simp only [Entries.keys, List.map_cons, List.cons.injEq] at hkeys
      obtain ⟨hkey, hrest⟩ := hkeys
      obtain ⟨hfirst, hsorted⟩ := List.pairwise_cons.mp hsorted
      have hne : ∀ c ∈ as, d.1 ≠ c.1 := fun c hc => hkey ▸ Std.ne_of_lt (hfirst c hc)
      rw [looseEqEntries, hkey, beq_self_eq_true, Bool.true_and, Bool.and_eq_true,
        ih hrest hsorted, List.forall_mem_cons]
      refine and_congr (by simp [Entries.find?, hkey]) (forall₂_congr fun c hc => ?_)
      rw [Entries.find?, if_neg (hne c hc)]

/-- Two objects are loosely equal exactly if they have equally many entries and each entry of the
first has one under its key in the second that is loosely equal to it. -/
theorem looseEq_object_iff (has : as.Sorted) (hbs : bs.Sorted) :
    looseEq zone (object as) (object bs) = true ↔ as.length = bs.length ∧
      ∀ e ∈ as, ∃ w, bs.find? e.1 = some w ∧ looseEq zone e.2 w = true := by
  rw [looseEq]
  constructor
  · intro h
    have hkeys := keys_eq_of_looseEqEntries h
    have hlength := congrArg List.length hkeys
    simp only [Entries.keys, List.length_map] at hlength
    exact ⟨hlength, (looseEqEntries_iff_of_keys_eq hkeys has).mp h⟩
  · rintro ⟨hlength, hfound⟩
    have hsubset : as.keys ⊆ bs.keys := by
      intro k hk
      obtain ⟨e, he, rfl⟩ := List.mem_map.mp hk
      obtain ⟨w, hw, -⟩ := hfound e he
      exact List.mem_map.mpr ⟨(e.1, w), Entries.mem_of_find? hw, rfl⟩
    have hperm : as.keys.Perm bs.keys := by
      apply ((Entries.nodup_keys has).subperm hsubset).perm_of_length_le
      simp [Entries.keys, hlength]
    have hkeys : as.keys = bs.keys :=
      List.Perm.eq_of_pairwise (fun k l _ _ hkl hlk => absurd hlk (String.lt_asymm hkl))
        ((Entries.sorted_iff as).mp has) ((Entries.sorted_iff bs).mp hbs) hperm
    exact (looseEqEntries_iff_of_keys_eq hkeys has).mpr hfound

theorem looseEqItems_self_iff (items : List Value) :
    looseEqItems zone items items = true ↔ ∀ v ∈ items, looseEq zone v v = true := by
  induction items with
  | nil => simp [looseEqItems]
  | cons v vs ih => rw [looseEqItems, Bool.and_eq_true, ih, List.forall_mem_cons]

theorem looseEqEntries_self_iff (entries : Entries Value) :
    looseEqEntries zone entries entries = true ↔ ∀ e ∈ entries, looseEq zone e.2 e.2 = true := by
  induction entries with
  | nil => simp [looseEqEntries]
  | cons e es ih =>
    rw [looseEqEntries, beq_self_eq_true, Bool.true_and, Bool.and_eq_true, ih,
      List.forall_mem_cons]

theorem looseEq_self_iff (zone : Time.Zone) (v : Value) :
    looseEq zone v v = true ↔ ∀ x ∈ v.numbers, x.isNaN = false := by
  induction v using partsInduction with
  | array items ih =>
    rw [looseEq, looseEqItems_self_iff, forall_numbers_array]
    exact forall₂_congr ih
  | object entries ih =>
    rw [looseEq, looseEqEntries_self_iff, forall_numbers_object]
    exact forall₂_congr ih
  | bool b =>
    cases b <;> simp [looseEq, flatEq, isNullish, isNumeric, toNumber, numbers] <;> decide
  | _ => simp [looseEq, flatEq, isNullish, isNumeric, toNumber, numbers]

/-- The second value is the first with one part of it, at any depth, replaced by a value that is
loosely equal to that part. -/
inductive Replaced (zone : Time.Zone) : Value → Value → Prop where
  | here {v w : Value} : v.looseEq zone w = true → Replaced zone v w
  | item {items : List Value} {i : Nat} {v w : Value} : items[i]? = some v → Replaced zone v w →
    Replaced zone (array items) (array (items.set i w))
  | entry {entries : Entries Value} {key : String} {v w : Value} : entries.find? key = some v →
    Replaced zone v w → Replaced zone (object entries) (object (entries.insert key w))

theorem looseEqItems_set (hself : ∀ u ∈ items, looseEq zone u u = true) (hi : items[i]? = some v)
    (h : looseEq zone v w = true) : looseEqItems zone items (items.set i w) = true := by
  induction items generalizing i with
  | nil => simp at hi
  | cons u us ih =>
    obtain ⟨hu, hus⟩ := List.forall_mem_cons.mp hself
    cases i with
    | zero =>
      obtain rfl : u = v := by simpa using hi
      rw [List.set_cons_zero, looseEqItems, h, (looseEqItems_self_iff us).mpr hus]
      rfl
    | succ i =>
      rw [List.set_cons_succ, looseEqItems, hu, ih hus (by simpa using hi)]
      rfl

theorem looseEq_object_insert (hsorted : entries.Sorted)
    (hself : ∀ e ∈ entries, looseEq zone e.2 e.2 = true) (hfind : entries.find? key = some v)
    (h : looseEq zone v w = true) :
    looseEq zone (object entries) (object (entries.insert key w)) = true := by
  have hlength := Entries.length_insert (a := w) hsorted (Entries.mem_of_find? hfind)
  refine (looseEq_object_iff hsorted (Entries.sorted_insert hsorted)).mpr
    ⟨hlength.symm, fun e he => ?_⟩
  have hentry := Entries.find?_of_mem hsorted he
  by_cases hkey : key = e.1
  · subst hkey
    obtain rfl : e.2 = v := Option.some.inj (hentry.symm.trans hfind)
    exact ⟨w, Entries.find?_insert_self, h⟩
  · rw [Entries.find?_insert_of_ne hkey, hentry]
    exact ⟨e.2, rfl, hself e he⟩

theorem looseEq_of_replaced (h : Replaced zone v w) (hkeyed : v.WellKeyed)
    (hnan : ∀ x ∈ v.numbers, x.isNaN = false) : looseEq zone v w = true := by
  induction h with
  | here h => exact h
  | item hi _ ih =>
    rw [WellKeyed, wellKeyedItems_iff] at hkeyed
    rw [forall_numbers_array] at hnan
    have hmem := List.mem_of_getElem? hi
    rw [looseEq]
    apply looseEqItems_set _ hi (ih (hkeyed _ hmem) (hnan _ hmem))
    exact fun u hu => (looseEq_self_iff zone u).mpr (hnan u hu)
  | entry hfind _ ih =>
    rw [WellKeyed, wellKeyedEntries_iff] at hkeyed
    rw [forall_numbers_object] at hnan
    have hmem := Entries.mem_of_find? hfind
    apply looseEq_object_insert hkeyed.1 _ hfind (ih (hkeyed.2 _ hmem) (hnan _ hmem))
    exact fun e he => (looseEq_self_iff zone e.2).mpr (hnan e he)

/-- A value is loosely equal to itself exactly if it holds no NaN at any depth, and then it is
loosely equal to every value that it becomes when a loosely equal part is put for one of its own. -/
theorem looseEq_self_and_replaced (zone : Time.Zone) (v : Value) :
    (v.looseEq zone v = true ↔ ∀ x ∈ v.numbers, x.isNaN = false) ∧
      (v.WellKeyed → (∀ x ∈ v.numbers, x.isNaN = false) → ∀ w, Replaced zone v w →
        v.looseEq zone w = true) :=
  ⟨looseEq_self_iff zone v, fun hkeyed hnan _ h => looseEq_of_replaced h hkeyed hnan⟩

theorem looseEq_self_and_replaced_nested :
    let v : Value := object [("a", array [number 1, text "x"]), ("b", number (-0))]
    let w : Value := object [("a", array [text " 1 ", text "x"]), ("b", number (-0))]
    v.WellKeyed ∧ (∀ x ∈ v.numbers, x.isNaN = false) ∧ Replaced .utc v w ∧
      v.looseEq .utc w = true ∧
      (array [number 1, number Number.nan]).looseEq .utc (array [number 1, number Number.nan]) ≠
        true := by
  intro v w
  have hkeyed : v.WellKeyed := by
    have hkeys : List.Pairwise (· < ·) ["a", "b"] := by decide
    simp only [v, WellKeyed]
    exact ⟨(Entries.sorted_iff _).mpr hkeys, by simp [WellKeyedEntries, WellKeyed, WellKeyedItems]⟩
  have hnan : ∀ x ∈ v.numbers, x.isNaN = false := by decide
  have hreplaced : Replaced .utc v w := by
    have hequal : (number 1).looseEq .utc (text " 1 ") = true := by decide +kernel
    have hitem : Replaced .utc (array [number 1, text "x"]) (array [text " 1 ", text "x"]) :=
      .item (i := 0) rfl (.here hequal)
    have hfind : Entries.find? "a" [("a", array [number 1, text "x"]), ("b", number (-0))] =
        some (array [number 1, text "x"]) := by simp [Entries.find?]
    exact .entry hfind hitem
  refine ⟨hkeyed, hnan, hreplaced, (looseEq_self_and_replaced .utc v).2 hkeyed hnan w hreplaced, ?_⟩
  intro h
  have hmem : Number.nan ∈ (array [number 1, number Number.nan]).numbers := by
    simp [numbers, numbersOfItems]
  have hnot := (looseEq_self_and_replaced .utc _).1.mp h Number.nan hmem
  cases hnot

end RecordLogic.Value
