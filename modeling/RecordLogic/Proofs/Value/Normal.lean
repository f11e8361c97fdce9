import RecordLogic.Proofs.Value.Json

namespace RecordLogic

namespace Value

open Number (unsignedZero)

mutual

theorem wellKeyed_normal (v : Value) (h : v.WellKeyed) : v.normal.WellKeyed := by
  cases v with
  | number x =>
    rw [normal]
    split <;> simp [WellKeyed]
  | array items =>
    rw [WellKeyed] at h
    rw [normal, WellKeyed]
    exact wellKeyedItems_normal items h
  | object entries =>
    rw [WellKeyed] at h
    rw [normal, WellKeyed]
    exact ⟨h.1.of_keys_eq (keys_normalEntries entries), wellKeyedEntries_normal entries h.2⟩
  | undefined | null | bool b | text s | date t => simp [normal, WellKeyed]

theorem wellKeyedItems_normal (vs : List Value) (h : WellKeyedItems vs) :
    WellKeyedItems (normalItems vs) := by
  cases vs with
  | nil => simp [normalItems, WellKeyedItems]
  | cons v vs =>
    rw [WellKeyedItems] at h
    rw [normalItems, WellKeyedItems]
    exact ⟨wellKeyed_normal v h.1, wellKeyedItems_normal vs h.2⟩

theorem wellKeyedEntries_normal (es : List (String × Value)) (h : WellKeyedEntries es) :
    WellKeyedEntries (normalEntries es) := by
  match es with
  | [] => simp [normalEntries, WellKeyedEntries]
  | (k, v) :: es =>
    rw [WellKeyedEntries] at h
    rw [normalEntries, WellKeyedEntries]
    exact ⟨wellKeyed_normal v h.1, wellKeyedEntries_normal es h.2⟩

end

mutual

theorem normal_eq_self_iff (v : Value) : v.normal = v ↔ v.Plain := by
  cases v with
  | number x =>
    rw [normal, Plain, IsData]
    split
    · rename_i hfinite
      rw [number.injEq, Number.unsignedZero_eq_self_iff]
      simp [hfinite]
    · rename_i hfinite
      simp [hfinite]
  | array items =>
    rw [normal, array.injEq, normalItems_eq_self_iff items, Plain, IsData]
  | object entries =>
    rw [normal, object.injEq, normalEntries_eq_self_iff entries, Plain, IsData]
  | undefined | null | bool b | text s | date t => simp [normal, Plain, IsData]

theorem normalItems_eq_self_iff (vs : List Value) :
    normalItems vs = vs ↔ IsDataItems (fun x => x.isFinite = true ∧ x ≠ -0) vs := by
  cases vs with
  | nil => simp [normalItems, IsDataItems]
  | cons v vs =>
    rw [normalItems, List.cons.injEq, normal_eq_self_iff v, normalItems_eq_self_iff vs,
      IsDataItems, Plain]

theorem normalEntries_eq_self_iff (es : List (String × Value)) :
    normalEntries es = es ↔ IsDataEntries (fun x => x.isFinite = true ∧ x ≠ -0) es := by
  match es with
  | [] => simp [normalEntries, IsDataEntries]
  | (k, v) :: es =>
    rw [normalEntries, List.cons.injEq, Prod.mk.injEq, normal_eq_self_iff v,
      normalEntries_eq_self_iff es, IsDataEntries, Plain]
    simp

end

mutual

theorem plain_normal (v : Value) : v.normal.Plain := by
  cases v with
  | number x =>
    rw [normal]
    split
    · rename_i hfinite
      rw [Plain, IsData]
      exact ⟨Number.isFinite_unsignedZero hfinite, Number.unsignedZero_ne x⟩
    · simp [Plain, IsData]
  | array items =>
    rw [normal, Plain, IsData]
    exact plainItems_normal items
  | object entries =>
    rw [normal, Plain, IsData]
    exact plainEntries_normal entries
  | undefined | null | bool b | text s | date t => simp [normal, Plain, IsData]

theorem plainItems_normal (vs : List Value) :
    IsDataItems (fun x => x.isFinite = true ∧ x ≠ -0) (normalItems vs) := by
  cases vs with
  | nil => simp [normalItems, IsDataItems]
  | cons v vs =>
    rw [normalItems, IsDataItems]
    exact ⟨plain_normal v, plainItems_normal vs⟩

theorem plainEntries_normal (es : List (String × Value)) :
    IsDataEntries (fun x => x.isFinite = true ∧ x ≠ -0) (normalEntries es) := by
  match es with
  | [] => simp [normalEntries, IsDataEntries]
  | (k, v) :: es =>
    rw [normalEntries, IsDataEntries]
    exact ⟨plain_normal v, plainEntries_normal es⟩

end

theorem normal_normal (v : Value) : v.normal.normal = v.normal :=
  (normal_eq_self_iff v.normal).mpr (plain_normal v)

theorem isDataEntries_iff {p : Float → Prop} (es : List (String × Value)) :
    IsDataEntries p es ↔ ∀ e ∈ es, e.2.IsData p := by
  induction es with
  | nil => simp [IsDataEntries]
  | cons e es ih => simp [IsDataEntries, ih]

mutual

theorem wellKeyed_ofJson (j : Json) : (ofJson j).WellKeyed := by
  cases j with
  | array js =>
    rw [ofJson, WellKeyed]
    exact wellKeyed_ofJsonItems js
  | object es =>
    rw [ofJson, WellKeyed, wellKeyedEntries_iff]
    have hes := (wellKeyedEntries_iff _).mp (wellKeyed_ofJsonEntries es)
    exact ⟨Entries.sorted_ofList _, fun e he => hes e (Entries.mem_of_mem_ofList he)⟩
  | null | bool b | integer n | float x | text s => simp [ofJson, WellKeyed]

theorem wellKeyed_ofJsonItems (js : List Json) : WellKeyedItems (ofJsonItems js) := by
  cases js with
  | nil => simp [ofJsonItems, WellKeyedItems]
  | cons j js =>
    rw [ofJsonItems, WellKeyedItems]
    exact ⟨wellKeyed_ofJson j, wellKeyed_ofJsonItems js⟩

theorem wellKeyed_ofJsonEntries (es : List (String × Json)) :
    WellKeyedEntries (ofJsonEntries es) := by
  match es with
  | [] => simp [ofJsonEntries, WellKeyedEntries]
  | (k, j) :: es =>
    rw [ofJsonEntries, WellKeyedEntries]
    exact ⟨wellKeyed_ofJson j, wellKeyed_ofJsonEntries es⟩

end

mutual

theorem isData_ofJson (j : Json) (h : j.Finite) :
    (ofJson j).IsData (·.isFinite = true) := by
  cases j with
  | integer n =>
    rw [Json.Finite] at h
    rw [ofJson, IsData]
    exact h
  | float x =>
    rw [Json.Finite] at h
    rw [ofJson, IsData]
    exact h
  | array js =>
    rw [Json.Finite] at h
    rw [ofJson, IsData]
    exact isData_ofJsonItems js h
  | object es =>
    rw [Json.Finite] at h
    rw [ofJson, IsData, isDataEntries_iff]
    have hes := (isDataEntries_iff _).mp (isData_ofJsonEntries es h)
    exact fun e he => hes e (Entries.mem_of_mem_ofList he)
  | null | bool b | text s => simp [ofJson, IsData]

theorem isData_ofJsonItems (js : List Json) (h : Json.FiniteItems js) :
    IsDataItems (·.isFinite = true) (ofJsonItems js) := by
  cases js with
  | nil => simp [ofJsonItems, IsDataItems]
  | cons j js =>
    rw [Json.FiniteItems] at h
    rw [ofJsonItems, IsDataItems]
    exact ⟨isData_ofJson j h.1, isData_ofJsonItems js h.2⟩

theorem isData_ofJsonEntries (es : List (String × Json)) (h : Json.FiniteEntries es) :
    IsDataEntries (·.isFinite = true) (ofJsonEntries es) := by
  match es with
  | [] => simp [ofJsonEntries, IsDataEntries]
  | (k, j) :: es =>
    rw [Json.FiniteEntries] at h
    rw [ofJsonEntries, IsDataEntries]
    exact ⟨isData_ofJson j h.1, isData_ofJsonEntries es h.2⟩

end

mutual

/-- Only the sign of zeros is lost of a value that a document gave. -/
theorem same_normal (v : Value) (h : v.IsData (·.isFinite = true)) : v.same v.normal = true := by
  cases v with
  | undefined => simp [IsData] at h
  | date t => simp [IsData] at h
  | number x =>
    rw [IsData] at h
    rw [normal, if_pos h, same]
    exact Number.beq_unsignedZero h
  | array items =>
    rw [IsData] at h
    rw [normal, same]
    exact sameItems_normal items h
  | object entries =>
    rw [IsData] at h
    rw [normal, same]
    exact sameEntries_normal entries h
  | null | bool b | text s => simp [normal, same]

theorem sameItems_normal (vs : List Value) (h : IsDataItems (·.isFinite = true) vs) :
    sameItems vs (normalItems vs) = true := by
  cases vs with
  | nil => simp [normalItems, sameItems]
  | cons v vs =>
    rw [IsDataItems] at h
    rw [normalItems, sameItems, same_normal v h.1, sameItems_normal vs h.2]
    rfl

theorem sameEntries_normal (es : List (String × Value))
    (h : IsDataEntries (·.isFinite = true) es) : sameEntries es (normalEntries es) = true := by
  match es with
  | [] => simp [normalEntries, sameEntries]
  | (k, v) :: es =>
    rw [IsDataEntries] at h
    rw [normalEntries, sameEntries, same_normal v h.1, sameEntries_normal es h.2]
    simp

end

/-- A value that was made a document and read again is its normal form. That is the same value
exactly if the value is plain, and to do it once more changes nothing. -/
theorem json_normalises (v : Value) (h : v.WellKeyed) :
    ofJson v.toJson = v.normal ∧ (ofJson v.toJson = v ↔ v.Plain) ∧
      ofJson (ofJson v.toJson).toJson = ofJson v.toJson := by
  have hnormal := ofJson_toJson v h
  have hagain := ofJson_toJson v.normal (wellKeyed_normal v h)
  refine ⟨hnormal, ?_, ?_⟩
  · rw [hnormal, normal_eq_self_iff]
  · rw [hnormal, hagain, normal_normal]

theorem json_normalises_nested :
    let v : Value := object [("at", date (Time.Instant.ofMillis 1_704_067_200_123)),
      ("list", array [undefined, number (0 / 0), number (-0), number 2.5, number (1 / 0)])]
    let w : Value := object [("at", text "2024-01-01T00:00:00.123Z"),
      ("list", array [null, null, number 0, number 2.5, null])]
    v.WellKeyed ∧ ofJson v.toJson = w ∧ ofJson v.toJson ≠ v ∧
      ofJson (ofJson v.toJson).toJson = w := by
  intro v w
  have hkeyed : v.WellKeyed := by
    have hkeys : List.Pairwise (· < ·) ["at", "list"] := by decide
    simp only [v, WellKeyed]
    exact ⟨(Entries.sorted_iff _).mpr hkeys, by simp [WellKeyedEntries, WellKeyed, WellKeyedItems]⟩
  have hnormal : v.normal = w := by
    have htext : (Time.Instant.ofMillis 1_704_067_200_123).text 3 = "2024-01-01T00:00:00.123Z" := by
      decide
    have hnan : (0 / 0 : Float).isFinite = false := by decide
    have hinfinite : (1 / 0 : Float).isFinite = false := by decide
    have hzero : Number.unsignedZero (-0) = 0 := by decide
    have hhalf : Number.unsignedZero 2.5 = 2.5 := by decide
    simp only [v, w, normal, normalEntries, normalItems, htext, hnan, hinfinite, hzero, hhalf]
    rfl
  have hplain : ¬v.Plain := by simp [v, Plain, IsData, IsDataEntries]
  obtain ⟨hread, hself, hagain⟩ := json_normalises v hkeyed
  rw [hnormal] at hread
  exact ⟨hkeyed, hread, fun h => hplain (hself.mp h), hagain.trans hread⟩

end Value

end RecordLogic
