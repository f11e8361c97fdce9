import RecordLogic.Proofs.Number.RoundTrip
import RecordLogic.Proofs.Value.Equality

namespace RecordLogic.Value

open Number (Unordered ofText)

variable {zone : Time.Zone} {a b v : Value} {items as bs : List Value}

/-- Texts, and the values that loose equality compares with a text by their own text. -/
def isTextual : Value → Bool
  | text _ | array _ | object _ => true
  | _ => false

/-- Why two values are loosely equal: both are nullish, or they are equal as numbers, denote
instants of one millisecond or have one text; arrays and objects are compared by their parts. -/
inductive Equated (zone : Time.Zone) : Value → Value → Prop where
  | nullish {a b : Value} : a.isNullish = true → b.isNullish = true → Equated zone a b
  | numbers {a b : Value} : (a.isNullish || b.isNullish) = false →
    (a.isNumeric || b.isNumeric) = true → (a.toNumber == b.toNumber) = true → Equated zone a b
  | instants {a b : Value} {s t : Time.Instant} : a.asDate? zone = some s →
    b.asDate? zone = some t → s.millis = t.millis → a = date s ∨ b = date t → Equated zone a b
  | texts {a b : Value} : a.isTextual = true → b.isTextual = true → a.toText = b.toText →
    Equated zone a b
  | arrays {as bs : List Value} : looseEqItems zone as bs = true →
    Equated zone (array as) (array bs)
  | objects {as bs : Entries Value} : Equated zone (object as) (object bs)

theorem equated_of_flatEq (h : flatEq zone a b = true) : Equated zone a b := by
  rw [flatEq.eq_def] at h
  split at h
  · rw [Bool.and_eq_true] at h
    exact .nullish h.1 h.2
  rename_i hnullish
  rw [Bool.not_eq_true] at hnullish
  split at h
  · rename_i hnumeric
    exact .numbers hnullish hnumeric h
  split at h
  case h_1 s t => exact .instants rfl rfl (beq_iff_eq.mp h) (Or.inl rfl)
  case h_2 t s =>
    obtain ⟨u, hu, hmillis⟩ := (Option.any_eq_true ..).mp h
    exact .instants rfl hu (beq_iff_eq.mp hmillis).symm (Or.inl rfl)
  case h_3 s t =>
    obtain ⟨u, hu, hmillis⟩ := (Option.any_eq_true ..).mp h
    exact .instants hu rfl (beq_iff_eq.mp hmillis) (Or.inr rfl)
  case h_4 s t => exact .texts rfl rfl (by simpa [toText] using h)
  case h_5 s as => exact .texts rfl rfl (by simpa [toText] using h)
  case h_6 s as => exact .texts rfl rfl (by simpa [toText] using h)
  case h_7 as s => exact .texts rfl rfl (by simpa [toText] using h)
  case h_8 as s => exact .texts rfl rfl (by simpa [toText] using h)
  case h_9 => cases h

theorem equated_of_looseEq (h : looseEq zone a b = true) : Equated zone a b := by
  rw [looseEq.eq_def] at h
  split at h
  · exact .arrays h
  · exact .objects
  · exact equated_of_flatEq h

/-- The text that stands for a value in the text of an array. -/
def itemText (v : Value) : String :=
  if v.isNullish then "" else v.toText

theorem itemTexts_eq (items : List Value) : itemTexts items = items.map itemText := by
  induction items with
  | nil => rw [itemTexts, List.map_nil]
  | cons v vs ih => rw [itemTexts, ih, List.map_cons, itemText]

theorem toText_array_single (v : Value) : (array [v]).toText = v.itemText := by
  rw [toText, itemTexts_eq, List.map_singleton, String.intercalate_singleton]

/-- The comma between two items stands in no numeral. -/
theorem isNaN_ofText_array (v w : Value) (vs : List Value) :
    (ofText (array (v :: w :: vs)).toText).isNaN = true := by
  have hcomma : ',' ∈ (array (v :: w :: vs)).toText.toList := by
    rw [toText, itemTexts_eq, List.map_cons, List.map_cons, String.intercalate_cons_cons]
    simp
  exact Number.isNaN_ofText_of_mem hcomma (by decide) (by decide)

theorem isNaN_ofText_bool (b : Bool) : (ofText (bool b).itemText).isNaN = true := by
  cases b <;> decide

theorem isNaN_ofText_object (entries : Entries Value) :
    (ofText (object entries).itemText).isNaN = true := by
  have htext : (object entries).itemText = "[object Object]" := by
    simp [itemText, isNullish, toText]
  rw [htext]
  decide

theorem isNaN_ofText_date (t : Time.Instant) : (ofText (date t).itemText).isNaN = true := by
  have hmark : 'T' ∈ (date t).itemText.toList := by
    simp [itemText, isNullish, toText, Time.Instant.text]
  exact Number.isNaN_ofText_of_mem hmark (by decide) (by decide)

/-- Numbers, texts and arrays are read from their texts as the numbers that they are. The texts of
the other values that are not nullish are no numerals. -/
theorem ofText_itemText (hnullish : v.isNullish = false) :
    ofText v.itemText = v.toNumber ∨ (ofText v.itemText).isNaN = true := by
  cases v with
  | undefined => cases hnullish
  | null => cases hnullish
  | bool b => exact Or.inr (isNaN_ofText_bool b)
  | date t => exact Or.inr (isNaN_ofText_date t)
  | object entries => exact Or.inr (isNaN_ofText_object entries)
  | number x =>
    left
    rw [itemText, if_neg (by simp [isNullish]), toText, toNumber, Number.ofText_text]
  | text s =>
    left
    rw [itemText, if_neg (by simp [isNullish]), toText, toNumber]
  | array items =>
    left
    rw [itemText, if_neg (by simp [isNullish]), toNumber]

theorem unordered_of_beq_toNumber (hnullish : (a.isNullish || b.isNullish) = false)
    (h : (a.toNumber == b.toNumber) = true) :
    Unordered (ofText a.itemText) (ofText b.itemText) := by
  rw [Bool.or_eq_false_iff] at hnullish
  rcases ofText_itemText hnullish.1 with hleft | hleft
  · rcases ofText_itemText hnullish.2 with hright | hright
    · rw [hleft, hright]
      exact Number.unordered_of_beq h
    · exact (Number.unordered_of_isNaN hright _).symm
  · exact Number.unordered_of_isNaN hleft _

/-- Loosely equal arrays of one item each have texts that are not ordered as soon as this holds of
the texts of the items. -/
theorem unordered_array
    (ih : ∀ v ∈ as, ∀ w, looseEq zone v w = true →
      Unordered (ofText v.itemText) (ofText w.itemText))
    (h : looseEqItems zone as bs = true) :
    Unordered (ofText (array as).toText) (ofText (array bs).toText) := by
  rcases as with _ | ⟨v, _ | ⟨v', vs⟩⟩
  · cases bs with
    | nil => exact Number.unordered_self _
    | cons w ws => simp [looseEqItems] at h
  · rcases bs with _ | ⟨w, _ | ⟨w', ws⟩⟩
    · simp [looseEqItems] at h
    · rw [toText_array_single, toText_array_single]
      simp only [looseEqItems, Bool.and_true] at h
      exact ih v List.mem_cons_self w h
    · simp [looseEqItems] at h
  · exact Number.unordered_of_isNaN (isNaN_ofText_array v v' vs) _

theorem itemText_eq_of_textual (h : v.isTextual = true) : v.itemText = v.toText := by
  cases v <;> simp_all [isTextual, itemText, isNullish]

theorem Equated.unordered_itemText (h : Equated zone a b)
    (ih : ∀ items, a = array items → ∀ v ∈ items, ∀ w, looseEq zone v w = true →
      Unordered (ofText v.itemText) (ofText w.itemText)) :
    Unordered (ofText a.itemText) (ofText b.itemText) := by
  cases h with
  | nullish hleft hright =>
    rw [itemText, itemText, if_pos hleft, if_pos hright]
    exact Number.unordered_self _
  | numbers hnullish _ h => exact unordered_of_beq_toNumber hnullish h
  | instants _ _ _ hdate =>
    rcases hdate with rfl | rfl
    · exact Number.unordered_of_isNaN (isNaN_ofText_date _) _
    · exact (Number.unordered_of_isNaN (isNaN_ofText_date _) _).symm
  | texts hleft hright h =>
    rw [itemText_eq_of_textual hleft, itemText_eq_of_textual hright, h]
    exact Number.unordered_self _
  | arrays h =>
    rw [itemText_eq_of_textual rfl, itemText_eq_of_textual rfl]
    exact unordered_array (ih _ rfl) h
  | objects => exact Number.unordered_of_isNaN (isNaN_ofText_object _) _

/-- The texts of loosely equal values stand for no numbers that are ordered. By induction on the
first value: only arrays of one item go on to their items. -/
theorem unordered_itemText (h : looseEq zone a b = true) :
    Unordered (ofText a.itemText) (ofText b.itemText) := by
  induction a using partsInduction generalizing b with
  | array as ih =>
    refine (equated_of_looseEq h).unordered_itemText fun items heq v hv w h => ?_
    cases heq
    exact ih v hv h
  | _ => exact (equated_of_looseEq h).unordered_itemText fun items heq => by cases heq

end RecordLogic.Value
