import RecordLogic.Filter.Wire
import RecordLogic.Proofs.Filter.Clauses

namespace RecordLogic.Filter

open Json (Record)

theorem GroupOperator.ofName?_conditionOperator (op : ConditionOperator) :
    GroupOperator.ofName? op.name = none := by
  cases op <;> decide

namespace Condition

variable {c : Condition}

/-- The fields of a condition that is sent, in the order of their names. -/
def wireFields (c : Condition) : Record :=
  [("LHSField", .text c.field), ("Operator", .text c.operator.name),
    ("RHSType", .text c.source.name)] ++ (c.value.map ("RHSValue", ·)).toList

theorem encode_wireNames (c : Condition) : c.encode wireNames = .object c.wireFields := by
  cases hvalue : c.value <;>
    simp only [encode, wireNames, wireFields, hvalue, Json.ofFields, Entries.ofList,
      Entries.insert, List.filterMap_cons, List.filterMap_nil, Option.map_some, Option.map_none,
      List.foldl_cons, List.foldl_nil, Option.toList, List.append_nil, List.cons_append,
      List.nil_append, String.reduceLT, String.reduceEq, ↓reduceIte]

theorem record_wireFields (c : Condition) :
    Json.record (wireNames.toFields 2) (.object c.wireFields) = .ok c.wireFields := by
  cases hvalue : c.value <;>
    simp [Json.record, wireFields, hvalue, FieldNames.toFields, wireNames, Json.firstDuplicate?]

theorem lookup_wireFields (c : Condition) : c.wireFields.lookup "RHSValue" = c.value := by
  cases hvalue : c.value <;> simp [wireFields, hvalue, List.lookup_cons]

/-- A null is read as if there were no value. -/
theorem optional_wireFields (hc : c.Canonical) :
    c.wireFields.optional "RHSValue" Json.Decode.document = .ok c.withoutNull.value := by
  rw [Record.optional, lookup_wireFields]
  split
  · rename_i hnone
    rw [withoutNull_of_ne (by simp [hnone]), hnone]
  · rename_i hnull
    rw [withoutNull_of_null hnull]
  · rename_i v hnot hvalue
    have hne : c.value ≠ some .null := by
      rw [hvalue]
      exact fun h => hnot (Option.some.inj h)
    rw [withoutNull_of_ne hne, hvalue, Json.Decode.document, hc v hvalue]
    rfl

/-- A condition that is sent comes back from its document, but not an explicit null. -/
theorem decode_encode (hc : c.Canonical) :
    decode wireNames (c.encode wireNames) = .ok c.withoutNull := by
  have hoperator : c.wireFields.required "Operator" (Json.Decode.name ConditionOperator.ofName?) =
      .ok c.operator := by
    simp [wireFields, Record.required, List.lookup_cons, Json.Decode.name,
      ConditionOperator.ofName?_name]
  have hfield : c.wireFields.required "LHSField" Json.Decode.text = .ok c.field := by
    simp [wireFields, Record.required, Json.Decode.text]
  have hsource : c.wireFields.defaulted "RHSType" .constant (Json.Decode.name ValueSource.ofName?) =
      .ok c.source := by
    simp [wireFields, Record.defaulted, List.lookup_cons, Json.Decode.name,
      ValueSource.ofName?_name]
  rw [encode_wireNames, decode, record_wireFields]
  simp only [FieldNames.decodeName_wireNames]
  simp only [wireNames, bind, Except.bind, hoperator, hfield, hsource, optional_wireFields hc]
  have hfields : c.withoutNull = ⟨c.operator, c.field, c.withoutNull.value, c.source⟩ := by
    by_cases hnull : c.value = some .null
    · rw [withoutNull_of_null hnull]
    · rw [withoutNull_of_ne hnull]
  rw [hfields]
  rfl

/-- A condition is not taken for a group: its operator is none of a group. -/
theorem ofRecord_wireFields (c : Condition) (clauses : Except Json.DecodeError (List Clause)) :
    Payload.ofRecord (Json.record Payload.fields (.object c.wireFields)) clauses =
      .error (.unknownName c.operator.name) := by
  have hrecord : Json.record Payload.fields (.object c.wireFields) =
      .ok [("Operator", .text c.operator.name)] := by
    cases hvalue : c.value <;>
      simp [Json.record, wireFields, hvalue, Payload.fields, Json.firstDuplicate?]
  rw [hrecord]
  simp [Payload.ofRecord, Record.required, Json.Decode.name,
    GroupOperator.ofName?_conditionOperator, bind, Except.bind]

end Condition

namespace Clause

variable {op : GroupOperator} {cs : List Clause}

theorem groupJson_eq (op : GroupOperator) (js : List Json) :
    groupJson op js = .object [("Condition", .array js), ("Operator", .text op.name)] := by
  simp only [groupJson, Json.ofFields, Entries.ofList, Entries.insert, List.filterMap_cons,
    List.filterMap_nil, Option.map_some, List.foldl_cons, List.foldl_nil, String.reduceLT,
    ↓reduceIte]

/-- The document of a group is read as a group of what its clauses are read as. -/
theorem ofRecord_groupJson (op : GroupOperator) {js : List Json} (h : decodeAll js = .ok cs) :
    Payload.ofRecord (Json.record Payload.fields (groupJson op js))
      (decodeUnder [("Condition", .array js), ("Operator", .text op.name)]) = .ok ⟨op, cs⟩ := by
  have hrecord : Json.record Payload.fields (groupJson op js) =
      .ok [("Condition", .array js), ("Operator", .text op.name)] := by
    rw [groupJson_eq]
    simp [Json.record, Payload.fields, Json.firstDuplicate?]
  have hunder : decodeUnder [("Condition", .array js), ("Operator", .text op.name)] = .ok cs := by
    rw [decodeUnder, if_pos rfl, decodeList, h]
  rw [hrecord, hunder]
  simp [Payload.ofRecord, Record.required, Json.Decode.name, List.lookup_cons,
    GroupOperator.ofName?_name, bind, Except.bind, pure, Except.pure]

theorem decode_leaf {c : Condition} (hc : c.Canonical) :
    decode (c.encode Condition.wireNames) = .ok (.leaf c.withoutNull) := by
  have hleaf := Condition.decode_encode hc
  rw [Condition.encode_wireNames] at hleaf ⊢
  rw [decode, Condition.ofRecord_wireFields, ofGroup, hleaf]
  rfl

theorem decode_group {js : List Json} (h : decodeAll js = .ok cs) :
    decode (groupJson op js) = .ok (.group op cs) := by
  have hgroup := ofRecord_groupJson op h
  rw [groupJson_eq] at hgroup ⊢
  rw [decode, hgroup, ofGroup]

/-- Clauses come back from their documents, each at its place, but without explicit nulls. -/
theorem decodeAll_encodeAll (h : ∀ c ∈ conditions cs, c.Canonical) :
    decodeAll (encodeAll cs) = .ok (withoutNulls cs) := by
  fun_induction encodeAll cs with
  | case1 => simp [decodeAll, withoutNulls]
  | case2 c cs ih =>
    have hcs := ih fun d hd => h d (by simp [conditions, hd])
    have hc := decode_leaf (h c (by simp [conditions]))
    rw [decodeAll, hc, hcs, withoutNulls]
    rfl
  | case3 op inner cs ihi ihc =>
    have hinner := ihi fun d hd => h d (by simp [conditions, hd])
    have hcs := ihc fun d hd => h d (by simp [conditions, hd])
    rw [decodeAll, decode_group hinner, hcs, withoutNulls]
    rfl

end Clause

namespace Payload

/-- A filter comes back from its document, but without explicit nulls. -/
theorem decode_encode {p : Payload} (h : ∀ c ∈ p.conditions, c.Canonical) :
    decode p.encode = .ok p.withoutNulls := by
  have hgroup := Clause.ofRecord_groupJson p.operator (Clause.decodeAll_encodeAll h)
  rw [Clause.groupJson_eq] at hgroup
  rw [encode, Clause.groupJson_eq, decode, hgroup]
  rfl

end Payload

end RecordLogic.Filter
