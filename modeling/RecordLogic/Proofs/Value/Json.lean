import RecordLogic.Proofs.Number.Whole
import RecordLogic.Proofs.Table
import RecordLogic.Proofs.Value.Parts
import RecordLogic.Value.Json

namespace RecordLogic

namespace Json

mutual

/-- Every number of the document is a finite double. -/
def Finite : Json → Prop
  | integer n => (Float.ofInt n).isFinite = true
  | float x => x.isFinite = true
  | array items => FiniteItems items
  | object entries => FiniteEntries entries
  | null | bool _ | text _ => True

def FiniteItems : List Json → Prop
  | [] => True
  | j :: js => Finite j ∧ FiniteItems js

def FiniteEntries : List (String × Json) → Prop
  | [] => True
  | (_, j) :: es => Finite j ∧ FiniteEntries es

end

theorem finiteItems_iff (js : List Json) : FiniteItems js ↔ ∀ j ∈ js, j.Finite := by
  induction js with
  | nil => simp [FiniteItems]
  | cons j js ih => simp [FiniteItems, ih]

theorem finiteEntries_iff (es : List (String × Json)) :
    FiniteEntries es ↔ ∀ e ∈ es, e.2.Finite := by
  induction es with
  | nil => simp [FiniteEntries]
  | cons e es ih => simp [FiniteEntries, ih]

end Json

namespace Value

open Number (unsignedZero)

mutual

/-- The value that a document can hold in place of this one: undefined and numbers that are not
finite become null, a date its text with milliseconds, and zeros lose their sign. -/
def normal : Value → Value
  | undefined => null
  | number x => if x.isFinite then number (unsignedZero x) else null
  | date t => text (t.text 3)
  | array items => array (normalItems items)
  | object entries => object (normalEntries entries)
  | null => null
  | bool b => bool b
  | text s => text s

def normalItems : List Value → List Value
  | [] => []
  | v :: vs => normal v :: normalItems vs

def normalEntries : List (String × Value) → List (String × Value)
  | [] => []
  | (k, v) :: es => (k, normal v) :: normalEntries es

end

mutual

/-- Neither undefined nor a date occurs in the value, and all its numbers meet `p`. -/
def IsData (p : Float → Prop) : Value → Prop
  | undefined | date _ => False
  | number x => p x
  | array items => IsDataItems p items
  | object entries => IsDataEntries p entries
  | null | bool _ | text _ => True

def IsDataItems (p : Float → Prop) : List Value → Prop
  | [] => True
  | v :: vs => IsData p v ∧ IsDataItems p vs

def IsDataEntries (p : Float → Prop) : List (String × Value) → Prop
  | [] => True
  | (_, v) :: es => IsData p v ∧ IsDataEntries p es

end

/-- The value holds neither undefined nor dates, and only finite numbers other than minus zero. -/
def Plain : Value → Prop :=
  IsData fun x => x.isFinite = true ∧ x ≠ -0

theorem ofJson_numberJson (x : Float) :
    ofJson (numberJson x) = if x.isFinite then number (unsignedZero x) else null := by
  rw [numberJson]
  cases hwhole : Number.whole? x with
  | some n =>
    simp only [Number.isFinite_of_whole? hwhole, if_true]
    split
    · rename_i hsafe
      have hlt : n.natAbs < 2 ^ 53 := by
        rw [maxSafe] at hsafe
        omega
      rw [ofJson, Number.ofInt_of_whole? hwhole hlt]
    · rename_i hlarge
      have hne : ¬(x == 0) = true := by
        intro hzero
        rw [Number.whole?_of_beq_zero hzero] at hwhole
        obtain rfl := Option.some.inj hwhole
        exact hlarge (Nat.zero_le _)
      rw [ofJson, unsignedZero, if_neg hne]
  | none =>
    have hne : ¬(x == 0) = true := by
      intro hzero
      rw [Number.whole?_of_beq_zero hzero] at hwhole
      cases hwhole
    simp only [unsignedZero, if_neg hne]
    split <;> simp [ofJson]

theorem keys_normalEntries (es : Entries Value) : Entries.keys (normalEntries es) = es.keys := by
  induction es with
  | nil => simp [normalEntries]
  | cons e es ih =>
    obtain ⟨k, v⟩ := e
    rw [normalEntries, Entries.keys, List.map_cons]
    exact congrArg (k :: ·) ih

mutual

theorem ofJson_toJson (v : Value) (h : v.WellKeyed) : ofJson v.toJson = v.normal := by
  cases v with
  | undefined => simp [toJson, ofJson, normal]
  | null => simp [toJson, ofJson, normal]
  | bool b => simp [toJson, ofJson, normal]
  | number x => rw [toJson, ofJson_numberJson, normal]
  | text s => simp [toJson, ofJson, normal]
  | date t => simp [toJson, ofJson, normal]
  | array items =>
    rw [WellKeyed] at h
    rw [toJson, ofJson, normal, ofJsonItems_toJsonItems items h]
  | object entries =>
    rw [WellKeyed] at h
    have hsorted : Entries.Sorted (normalEntries entries) :=
      h.1.of_keys_eq (keys_normalEntries entries)
    rw [toJson, ofJson, normal, ofJsonEntries_toJsonEntries entries h.2,
      Entries.ofList_of_sorted hsorted]

theorem ofJsonItems_toJsonItems (vs : List Value) (h : WellKeyedItems vs) :
    ofJsonItems (toJsonItems vs) = normalItems vs := by
  cases vs with
  | nil => simp [toJsonItems, ofJsonItems, normalItems]
  | cons v vs =>
    rw [WellKeyedItems] at h
    rw [toJsonItems, ofJsonItems, normalItems, ofJson_toJson v h.1,
      ofJsonItems_toJsonItems vs h.2]

theorem ofJsonEntries_toJsonEntries (es : List (String × Value)) (h : WellKeyedEntries es) :
    ofJsonEntries (toJsonEntries es) = normalEntries es := by
  match es with
  | [] => simp [toJsonEntries, ofJsonEntries, normalEntries]
  | (k, v) :: es =>
    rw [WellKeyedEntries] at h
    rw [toJsonEntries, ofJsonEntries, normalEntries, ofJson_toJson v h.1,
      ofJsonEntries_toJsonEntries es h.2]

end

end Value

end RecordLogic
