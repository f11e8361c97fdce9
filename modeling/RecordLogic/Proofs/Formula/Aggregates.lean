import Mathlib.Logic.Relation
import RecordLogic.Proofs.Formula.Calls

namespace RecordLogic

def Value.isArray : Value → Bool
  | array _ => true
  | _ => false

/-- The value is a number for the aggregates: it is not nullish and its number is not NaN. -/
def Value.Counts (v : Value) : Prop :=
  v.isNullish = false ∧ v.toNumber.isNaN = false

namespace Formula

variable {zone : Time.Zone} {args args' vs ws : Arguments} {v : Value}

/-- The first list becomes the second by one more value that does not count, on its own or in an
array among the arguments, or by one array in place of arguments that stand in a row. -/
inductive Regrouped : Arguments → Arguments → Prop
  | insert (before after : Arguments) (v : Value) (hv : v.isArray = false) (hnot : ¬v.Counts) :
      Regrouped (before ++ after) (before ++ v :: after)
  | insertItem (before after : Arguments) (items more : List Value) (v : Value)
      (hnot : ¬v.Counts) :
      Regrouped (before ++ .array (items ++ more) :: after)
        (before ++ .array (items ++ v :: more) :: after)
  | gather (before run after : Arguments) (hrun : ∀ v ∈ run, v.isArray = false) :
      Regrouped (before ++ run ++ after) (before ++ .array run :: after)

namespace Arguments

/-- The value is an argument that is no array, or an item of one that is. -/
def Offers (args : Arguments) (v : Value) : Prop :=
  (v ∈ args ∧ v.isArray = false) ∨ ∃ items, .array items ∈ args ∧ v ∈ items

/-- The numbers of values that are not opened any more. -/
def counted (vs : List Value) : List Float :=
  ((vs.filter (!·.isNullish)).map Value.toNumber).filter (!·.isNaN)

theorem numbers_eq (args : Arguments) : args.numbers = counted (args.flatMap spread) :=
  rfl

theorem counted_append (vs ws : List Value) : counted (vs ++ ws) = counted vs ++ counted ws := by
  simp only [counted, List.filter_append, List.map_append]

theorem counted_eq_nil_iff (vs : List Value) : counted vs = [] ↔ ∀ v ∈ vs, ¬v.Counts := by
  rw [counted, List.filter_eq_nil_iff, List.forall_mem_map]
  simp [Value.Counts]

theorem counted_insert (hnot : ¬v.Counts) (vs ws : List Value) :
    counted (vs ++ v :: ws) = counted (vs ++ ws) := by
  have hnone : counted [v] = [] := by
    rw [counted_eq_nil_iff]
    simpa using hnot
  rw [List.append_cons, counted_append, counted_append, hnone, List.append_nil, counted_append]

theorem spread_of_isArray (h : v.isArray = false) : spread v = [v] := by
  cases v with
  | array items => cases h
  | _ => rfl

theorem flatMap_spread (h : ∀ v ∈ vs, v.isArray = false) : vs.flatMap spread = vs := by
  induction vs with
  | nil => rfl
  | cons v vs ih =>
    obtain ⟨hv, hvs⟩ := List.forall_mem_cons.mp h
    rw [List.flatMap_cons, spread_of_isArray hv, ih hvs, List.singleton_append]

theorem mem_flatMap_spread_iff : v ∈ args.flatMap spread ↔ args.Offers v := by
  rw [List.mem_flatMap]
  constructor
  · rintro ⟨a, ha, hv⟩
    cases a with
    | array items => exact Or.inr ⟨items, ha, hv⟩
    | _ =>
      obtain rfl := List.mem_singleton.mp hv
      exact Or.inl ⟨ha, rfl⟩
  · rintro (⟨hv, harray⟩ | ⟨items, hitems, hv⟩)
    · refine ⟨v, hv, ?_⟩
      rw [spread_of_isArray harray]
      exact List.mem_singleton_self v
    · exact ⟨.array items, hitems, hv⟩

theorem numbers_eq_nil_iff : args.numbers = [] ↔ ∀ v, args.Offers v → ¬v.Counts := by
  simp only [numbers_eq, counted_eq_nil_iff, mem_flatMap_spread_iff]

end Arguments

open Arguments

/-- One regrouping leaves the numbers as they are. -/
theorem Regrouped.numbers_eq (h : Regrouped args args') : args.numbers = args'.numbers := by
  cases h with
  | insert before after v hv hnot =>
    simp only [Arguments.numbers_eq, List.flatMap_append, List.flatMap_cons, spread_of_isArray hv,
      List.singleton_append, counted_insert hnot]
  | insertItem before after items more v hnot =>
    simp only [Arguments.numbers_eq, List.flatMap_append, List.flatMap_cons, spread, counted_append,
      counted_insert hnot]
  | gather before run after hrun =>
    simp only [Arguments.numbers_eq, List.flatMap_append, List.flatMap_cons, flatMap_spread hrun,
      spread, List.append_assoc]

/-- Any number of regroupings, forth and back, leave them so too. -/
theorem numbers_eq_of_eqvGen (h : Relation.EqvGen Regrouped args args') :
    args.numbers = args'.numbers := by
  induction h with
  | rel args args' hstep => exact hstep.numbers_eq
  | refl args => rfl
  | symm args args' _ ih => exact ih.symm
  | trans args args' args'' _ _ ih ih' => exact ih.trans ih'

/-- The functions that take all their arguments as numbers. -/
def aggregates : List Builtin := [.sum, .avg, .min, .max]

theorem apply_aggregate {b : Builtin} (hb : b ∈ aggregates) (h : args.numbers = args'.numbers) :
    b.apply zone args = b.apply zone args' := by
  simp only [aggregates, List.mem_cons, List.not_mem_nil, or_false] at hb
  rcases hb with rfl | rfl | rfl | rfl <;>
    simp only [Builtin.apply, Formula.sum, average, best, h]

theorem apply_eq_undefined_iff {b : Builtin} (hb : b ∈ [Builtin.avg, .min, .max]) :
    b.apply zone args = .ok .undefined ↔ args.numbers = [] := by
  simp only [List.mem_cons, List.not_mem_nil, or_false] at hb
  cases hnumbers : args.numbers with
  | nil => rcases hb with rfl | rfl | rfl <;> simp [Builtin.apply, average, best, hnumbers]
  | cons x xs => rcases hb with rfl | rfl | rfl <;> simp [Builtin.apply, average, best, hnumbers]

/-- Values that are no numbers in the end may come and go among the arguments or in an array among
them, and arguments in a row may be put into one array or taken out of it: the aggregates do not see
it. All but the sum are undefined exactly if no number is left. -/
theorem aggregates_see_numbers (zone : Time.Zone) (args : Arguments) :
    let call := (Registry.builtin zone).call
    (∀ args', Relation.EqvGen Regrouped args args' →
      ∀ name ∈ ["SUM", "AVG", "MIN", "MAX"], call name args = call name args') ∧
    ∀ name ∈ ["AVG", "MIN", "MAX"],
      (call name args = .ok .undefined ↔ ¬∃ v, args.Offers v ∧ v.Counts) := by
  intro call
  have hcall : ∀ (b : Builtin) args, call b.name args = b.apply zone args :=
    Registry.call_builtin zone
  constructor
  · intro args' hregrouped name hname
    have hnumbers := numbers_eq_of_eqvGen hregrouped
    obtain ⟨b, hb, rfl⟩ : ∃ b ∈ aggregates, b.name = name := by
      simpa [aggregates, Builtin.name, eq_comm] using hname
    rw [hcall, hcall, apply_aggregate hb hnumbers]
  · intro name hname
    obtain ⟨b, hb, rfl⟩ : ∃ b ∈ [Builtin.avg, .min, .max], b.name = name := by
      simpa [Builtin.name, eq_comm] using hname
    rw [hcall, apply_eq_undefined_iff hb, numbers_eq_nil_iff]
    simp only [not_exists, not_and]

/-- A text that is no number and a null go, an array is opened and a number is put into one. -/
theorem aggregates_see_numbers_mixed :
    let call := (Registry.builtin .utc).call
    let args : Arguments := [.number 1, .text "x", .array [.number 9, .text "4"], .null]
    let args' : Arguments := [.array [.number 1], .number 9, .text "4"]
    Relation.EqvGen Regrouped args args' ∧ call "MAX" args = call "MAX" args' ∧
      call "AVG" args = call "AVG" args' ∧
      call "AVG" [.null, .array [.text "x"]] = .ok .undefined := by
  intro call args args'
  have htext : ¬(Value.text "x").Counts := by
    have hnan : (Number.ofText "x").isNaN = true := by decide +kernel
    intro hcounts
    have hnumber := hcounts.2
    rw [Value.toNumber, hnan] at hnumber
    cases hnumber
  have hnull : ¬Value.null.Counts := by
    intro hcounts
    cases hcounts.1
  let one : Value := .number 1
  let items : List Value := [.number 9, .text "4"]
  have hwithText : Regrouped [one, .array items, .null] args :=
    .insert [one] [.array items, .null] (.text "x") rfl htext
  have hwithNull : Regrouped [one, .array items] [one, .array items, .null] :=
    .insert [one, .array items] [] .null rfl hnull
  have hitems : Regrouped (one :: items) [one, .array items] :=
    .gather [one] items [] (by simp [items, Value.isArray])
  have hone : Regrouped (one :: items) args' :=
    .gather [] [one] items (by simp [one, Value.isArray])
  have hregrouped : Relation.EqvGen Regrouped args args' := by
    apply Relation.EqvGen.trans _ _ _ (.symm _ _ (.rel _ _ hwithText))
    apply Relation.EqvGen.trans _ _ _ (.symm _ _ (.rel _ _ hwithNull))
    exact .trans _ _ _ (.symm _ _ (.rel _ _ hitems)) (.rel _ _ hone)
  obtain ⟨hsame, -⟩ := aggregates_see_numbers .utc args
  obtain ⟨-, hundefined⟩ := aggregates_see_numbers .utc [.null, .array [.text "x"]]
  refine ⟨hregrouped, hsame args' hregrouped "MAX" (by simp),
    hsame args' hregrouped "AVG" (by simp), (hundefined "AVG" (by simp)).mpr ?_⟩
  rintro ⟨v, ⟨hv, harray⟩ | ⟨more, hmore, hv⟩, hcounts⟩
  · simp only [List.mem_cons, List.not_mem_nil, or_false] at hv
    rcases hv with rfl | rfl
    · exact hnull hcounts
    · cases harray
  · obtain rfl : more = [.text "x"] := by simpa using hmore
    obtain rfl := List.mem_singleton.mp hv
    exact htext hcounts

end Formula

end RecordLogic
