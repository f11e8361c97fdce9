import RecordLogic.Proofs.Filter.Values
import RecordLogic.Proofs.Filter.Wire
import RecordLogic.Proofs.Json.Record

namespace RecordLogic

namespace Json

variable {α : Type} {j v : Json} {name : String}

theorem canonical_eq_null_iff : j.canonical = .null ↔ j = .null := by
  cases j <;> simp [canonical]

theorem Record.ne_null_of_optional {r : Record}
    (h : r.optional name Decode.document = .ok (some v)) : v ≠ .null := by
  rw [optional] at h
  split at h
  · cases h
  · cases h
  · rename_i j hnull _
    cases h
    exact mt canonical_eq_null_iff.mp hnull

/-- What a record has as its first field, in either of its forms. -/
def first? (name : String) : Json → Option Json
  | object entries => entries.lookup name
  | array items => items.head?
  | _ => none

/-- The first field of a record does not depend on the others. -/
theorem lookup_record {names : List String} {least : Nat} {r : Record}
    (h : record ⟨name :: names, least⟩ j = .ok r) : r.lookup name = j.first? name := by
  cases j with
  | object es => exact lookup_of_record_object h List.mem_cons_self
  | array js =>
    simp only [record] at h
    split at h
    · cases h
      cases js <;> simp [first?]
    · cases h
  | _ => cases h

theorem Record.required_eq_ok_iff {r : Record} {decode : Decoder α} {a : α} :
    r.required name decode = .ok a ↔ ∃ j, r.lookup name = some j ∧ decode j = .ok a := by
  rw [required]
  cases r.lookup name <;> simp

/-- The text of a name, written alone or as the only key over a null. -/
def nameText? : Json → Option String
  | text s => some s
  | object [(s, .null)] => some s
  | _ => none

theorem Decode.name_eq_ok_iff {ofName? : String → Option α} {a : α} :
    Decode.name ofName? j = .ok a ↔ ∃ s, j.nameText? = some s ∧ ofName? s = some a := by
  rw [Decode.name.eq_def, nameText?.eq_def]
  split
  · rename_i s
    cases hs : ofName? s <;> simp [hs]
  · rename_i s
    cases hs : ofName? s <;> simp [hs]
  · simp

end Json

namespace Filter

open Json (Record)

variable {j : Json}

theorem GroupOperator.not_conditionOperator {s : String} {op : GroupOperator}
    {op' : ConditionOperator} (h : GroupOperator.ofName? s = some op)
    (h' : ConditionOperator.ofName? s = some op') : False := by
  have hname : op'.name = s := by simpa using List.find?_some h'
  rw [← hname, ofName?_conditionOperator] at h
  cases h

theorem Condition.operator_of_decode {c : Condition} (h : decode wireNames j = .ok c) :
    ∃ o, j.first? "Operator" = some o ∧
      Json.Decode.name ConditionOperator.ofName? o = .ok c.operator := by
  obtain ⟨r, hr, h⟩ := Json.bind_eq_ok.mp h
  obtain ⟨operator, hoperator, h⟩ := Json.bind_eq_ok.mp h
  obtain ⟨field, -, h⟩ := Json.bind_eq_ok.mp h
  obtain ⟨value, -, h⟩ := Json.bind_eq_ok.mp h
  obtain ⟨source, -, h⟩ := Json.bind_eq_ok.mp h
  cases h
  obtain ⟨o, ho, hname⟩ := Record.required_eq_ok_iff.mp hoperator
  exact ⟨o, (Json.lookup_record hr).symm.trans ho, hname⟩

theorem Condition.value_ne_null_of_decode {n : FieldNames} {c : Condition}
    (h : decode n j = .ok c) : c.value ≠ some .null := by
  obtain ⟨r, -, h⟩ := Json.bind_eq_ok.mp h
  obtain ⟨operator, -, h⟩ := Json.bind_eq_ok.mp h
  obtain ⟨field, -, h⟩ := Json.bind_eq_ok.mp h
  obtain ⟨value, hvalue, h⟩ := Json.bind_eq_ok.mp h
  obtain ⟨source, -, h⟩ := Json.bind_eq_ok.mp h
  cases h
  rintro rfl
  exact Record.ne_null_of_optional hvalue rfl

namespace Payload

variable {p : Payload}

theorem operator_of_ofRecord {clauses : Except Json.DecodeError (List Clause)}
    (h : ofRecord (Json.record fields j) clauses = .ok p) :
    ∃ o, j.first? "Operator" = some o ∧
      Json.Decode.name GroupOperator.ofName? o = .ok p.operator := by
  obtain ⟨r, hr, h⟩ := Json.bind_eq_ok.mp h
  obtain ⟨operator, hoperator, h⟩ := Json.bind_eq_ok.mp h
  obtain ⟨cs, -, h⟩ := Json.bind_eq_ok.mp h
  cases h
  obtain ⟨o, ho, hname⟩ := Record.required_eq_ok_iff.mp hoperator
  exact ⟨o, (Json.lookup_record hr).symm.trans ho, hname⟩

theorem operator_of_decode (h : decode j = .ok p) :
    ∃ o, j.first? "Operator" = some o ∧
      Json.Decode.name GroupOperator.ofName? o = .ok p.operator := by
  rw [decode.eq_def] at h
  split at h
  · exact operator_of_ofRecord h
  · exact operator_of_ofRecord h
  · cases h

/-- No document is both: the operators of groups and of conditions have different names. -/
theorem not_condition_of_decode (h : decode j = .ok p) (c : Condition) :
    Condition.decode Condition.wireNames j ≠ .ok c := by
  intro hc
  obtain ⟨o, ho, hgroup⟩ := operator_of_decode h
  obtain ⟨o', ho', hleaf⟩ := Condition.operator_of_decode hc
  obtain rfl : o = o' := Option.some.inj (ho.symm.trans ho')
  obtain ⟨s, hs, hop⟩ := Json.Decode.name_eq_ok_iff.mp hgroup
  obtain ⟨s', hs', hop'⟩ := Json.Decode.name_eq_ok_iff.mp hleaf
  obtain rfl : s = s' := Option.some.inj (hs.symm.trans hs')
  exact GroupOperator.not_conditionOperator hop hop'

/-- A filter that was decoded comes back from the document that it is written as. -/
theorem decode_encode_of_decode (h : decode j = .ok p) : decode p.encode = .ok p := by
  have hcanonical := canonical_of_decode h
  have hnulls := forall_of_decode (fun _ _ => Condition.value_ne_null_of_decode) h
  rw [decode_encode hcanonical, (withoutNulls_eq_self_iff p).mpr hnulls]

end Payload

namespace Clause

/-- The document read as a group. -/
def asGroup (j : Json) : Except Json.DecodeError Clause :=
  (Payload.decode j).map fun p => .group p.operator p.clauses

/-- The document read as a condition. -/
def asLeaf (j : Json) : Except Json.DecodeError Clause :=
  (Condition.decode Condition.wireNames j).map .leaf

theorem decode_eq_ofGroup (j : Json) : decode j = ofGroup (Payload.decode j) j := by
  cases j <;> simp [decode, Payload.decode, ofGroup, Condition.decode, Json.record, Except.map,
    bind, Except.bind]

theorem asGroup_eq_ok_iff {c : Clause} : asGroup j = .ok c ↔
    ∃ p, Payload.decode j = .ok p ∧ c = .group p.operator p.clauses := by
  rw [asGroup]
  cases Payload.decode j <;> simp [Except.map, eq_comm]

theorem asLeaf_eq_ok_iff {c : Clause} : asLeaf j = .ok c ↔
    ∃ d, Condition.decode Condition.wireNames j = .ok d ∧ c = .leaf d := by
  rw [asLeaf]
  cases Condition.decode Condition.wireNames j <;> simp [Except.map, eq_comm]

/-- At most one reading accepts a document, so it does not matter which is tried first. -/
theorem decode_eq_ok_iff {c : Clause} :
    decode j = .ok c ↔ asGroup j = .ok c ∨ asLeaf j = .ok c := by
  rw [decode_eq_ofGroup, asGroup_eq_ok_iff, asLeaf_eq_ok_iff]
  cases hgroup : Payload.decode j with
  | ok p =>
    have hnone := Payload.not_condition_of_decode hgroup
    simp [ofGroup, hnone, eq_comm]
  | error e =>
    simp only [ofGroup]
    cases Condition.decode Condition.wireNames j <;> simp [Except.map, eq_comm]

end Clause

end Filter

end RecordLogic
