import RecordLogic.Value.Basic

namespace RecordLogic.Value

/-- What holds of all values without parts, and of an array or an object as soon as it holds of its
items or of the values of its entries, holds of every value. -/
@[elab_as_elim]
theorem partsInduction {motive : Value → Prop} (undefined : motive undefined) (null : motive null)
    (bool : ∀ b, motive (bool b)) (number : ∀ x, motive (number x)) (text : ∀ s, motive (text s))
    (date : ∀ t, motive (date t)) (array : ∀ items, (∀ v ∈ items, motive v) → motive (array items))
    (object : ∀ entries, (∀ e ∈ entries, motive e.2) → motive (object entries)) (v : Value) :
    motive v := by
  match v with
  | .undefined => exact undefined
  | .null => exact null
  | .bool b => exact bool b
  | .number x => exact number x
  | .text s => exact text s
  | .date t => exact date t
  | .array items =>
    refine array items fun v hv => ?_
    have hsize : sizeOf v < sizeOf items := List.sizeOf_lt_of_mem hv
    exact partsInduction undefined null bool number text date array object v
  | .object entries =>
    refine object entries fun e he => ?_
    have hsize : sizeOf e < sizeOf entries := List.sizeOf_lt_of_mem he
    have hvalue : sizeOf e.2 < sizeOf e := by
      obtain ⟨k, v⟩ := e
      simp only [Prod.mk.sizeOf_spec]
      omega
    exact partsInduction undefined null bool number text date array object e.2
termination_by sizeOf v

theorem wellKeyedItems_iff (vs : List Value) : WellKeyedItems vs ↔ ∀ v ∈ vs, v.WellKeyed := by
  induction vs with
  | nil => simp [WellKeyedItems]
  | cons v vs ih => simp [WellKeyedItems, ih]

theorem wellKeyedEntries_iff (es : List (String × Value)) :
    WellKeyedEntries es ↔ ∀ e ∈ es, e.2.WellKeyed := by
  induction es with
  | nil => simp [WellKeyedEntries]
  | cons e es ih => simp [WellKeyedEntries, ih]

mutual

/-- The numbers inside a value, at every depth. -/
def numbers : Value → List Float
  | number x => [x]
  | array items => numbersOfItems items
  | object entries => numbersOfEntries entries
  | undefined | null | bool _ | text _ | date _ => []

def numbersOfItems : List Value → List Float
  | [] => []
  | v :: vs => numbers v ++ numbersOfItems vs

def numbersOfEntries : List (String × Value) → List Float
  | [] => []
  | (_, v) :: es => numbers v ++ numbersOfEntries es

end

theorem numbers_array (items : List Value) : (array items).numbers = items.flatMap numbers := by
  rw [numbers]
  induction items with
  | nil => rw [numbersOfItems, List.flatMap_nil]
  | cons v vs ih => rw [numbersOfItems, ih, List.flatMap_cons]

theorem numbers_object (entries : Entries Value) :
    (object entries).numbers = entries.flatMap (·.2.numbers) := by
  rw [numbers]
  induction entries with
  | nil => rw [numbersOfEntries, List.flatMap_nil]
  | cons e es ih => rw [numbersOfEntries, ih, List.flatMap_cons]

/-- All numbers inside an array have a property exactly if those inside its items have it. -/
theorem forall_numbers_array {p : Float → Prop} (items : List Value) :
    (∀ x ∈ (array items).numbers, p x) ↔ ∀ v ∈ items, ∀ x ∈ v.numbers, p x := by
  simp only [numbers_array, List.forall_mem_flatMap]

theorem forall_numbers_object {p : Float → Prop} (entries : Entries Value) :
    (∀ x ∈ (object entries).numbers, p x) ↔ ∀ e ∈ entries, ∀ x ∈ e.2.numbers, p x := by
  simp only [numbers_object, List.forall_mem_flatMap]

end RecordLogic.Value
