import RecordLogic.Proofs.Filter.Reading
import RecordLogic.Proofs.Json.Record
import RecordLogic.Request

namespace RecordLogic

open Json (Record)
open RecordLogic.Filter (Clause Payload)

variable {j : Json}

theorem SortField.decode_encode (s : SortField) : decode s.encode = .ok s := by
  obtain ⟨r, hr, hlookup⟩ := Json.record_ofFields ⟨["Field", "Order"], 1⟩
    [("Field", some (.text s.field)), ("Order", some (.text s.order.name))] (by simp) (by simp)
  have hfield : r.required "Field" Json.Decode.text = .ok s.field :=
    Record.required_of_lookup (hlookup "Field") rfl
  have horder : r.defaulted "Order" .ascending (Json.Decode.name SortOrder.ofName?) =
      .ok s.order := by
    refine Record.defaulted_of_lookup (hlookup "Order") nofun fun x hx => ?_
    cases hx
    simp [Json.Decode.name, SortOrder.ofName?_name]
  rw [encode, decode, hr]
  simp only [bind, Except.bind, hfield, horder]
  rfl

namespace ListRequest

variable {r : ListRequest}

theorem filled_eq_none_iff {items : List Json} : filled items = none ↔ items = [] := by
  cases items <;> simp [filled]

/-- A list that is left out when it is empty comes back from its items. -/
theorem defaulted_filled {α : Type} {record : Record} {name : String} {encode : α → Json}
    {decode : Json.Decoder α} {xs : List α} (h : record.lookup name = filled (xs.map encode))
    (hxs : ∀ x ∈ xs, decode (encode x) = .ok x) :
    record.defaulted name [] (Json.Decode.items decode) = .ok xs := by
  refine Record.defaulted_of_lookup h (fun hnone => ?_) fun x hx => ?_
  · exact (List.map_eq_nil_iff.mp (filled_eq_none_iff.mp hnone)).symm
  · rw [filled] at hx
    split at hx
    · cases hx
    · cases hx
      exact Json.Decode.items_array hxs

/-- What can be sent: a filter that can be read back, and page numbers of the size that is read. -/
structure Sendable (r : ListRequest) : Prop where
  filter : ∀ p ∈ r.filter, Payload.decode p.encode = .ok p
  pageNumber : ∀ n ∈ r.pageNumber, n ≤ maxPage
  pageSize : ∀ n ∈ r.pageSize, n ≤ maxPage

theorem decode_encode (h : r.Sendable) : decode r.encode = .ok r := by
  obtain ⟨record, hrecord, hlookup⟩ := Json.record_ofFields
    ⟨["Fields", "Filter", "Sort", "PageNumber", "PageSize"], 0⟩
    [("Fields", filled (r.fields.map .text)), ("Filter", r.filter.map (·.encode)),
      ("Sort", filled (r.sort.map (·.encode))), ("PageNumber", r.pageNumber.map (.integer ·)),
      ("PageSize", r.pageSize.map (.integer ·))]
    (by simp) (by simp)
  have hfields : record.defaulted "Fields" [] (Json.Decode.items Json.Decode.text) = .ok r.fields :=
    defaulted_filled (hlookup "Fields") fun x _ => rfl
  have hfilter : record.optional "Filter" Payload.decode = .ok r.filter :=
    Record.optional_of_lookup (hlookup "Filter") fun p hp => ⟨nofun, h.filter p hp⟩
  have hsort : record.defaulted "Sort" [] (Json.Decode.items SortField.decode) = .ok r.sort :=
    defaulted_filled (hlookup "Sort") fun s _ => s.decode_encode
  have hpage (n? : Option Nat) :
      (n? : Option Int).map .integer = n?.map fun n : Nat => Json.integer n := by
    cases n? <;> rfl
  have hnumber : record.optional "PageNumber" (Json.Decode.natural maxPage) = .ok r.pageNumber :=
    Record.optional_of_lookup ((hlookup "PageNumber").trans (hpage r.pageNumber))
      fun n hn => ⟨nofun, Json.Decode.natural_integer (h.pageNumber n hn)⟩
  have hsize : record.optional "PageSize" (Json.Decode.natural maxPage) = .ok r.pageSize :=
    Record.optional_of_lookup ((hlookup "PageSize").trans (hpage r.pageSize))
      fun n hn => ⟨nofun, Json.Decode.natural_integer (h.pageSize n hn)⟩
  rw [encode, decode, hrecord]
  simp only [bind, Except.bind, hfields, hfilter, hsort, hnumber, hsize]
  rfl

theorem sendable_of_decode (h : decode j = .ok r) : r.Sendable := by
  obtain ⟨record, -, h⟩ := Json.bind_eq_ok.mp h
  obtain ⟨fields, -, h⟩ := Json.bind_eq_ok.mp h
  obtain ⟨filter, hfilter, h⟩ := Json.bind_eq_ok.mp h
  obtain ⟨sort, -, h⟩ := Json.bind_eq_ok.mp h
  obtain ⟨number, hnumber, h⟩ := Json.bind_eq_ok.mp h
  obtain ⟨size, hsize, h⟩ := Json.bind_eq_ok.mp h
  cases h
  constructor
  · rintro p rfl
    obtain ⟨x, hx⟩ := Record.exists_of_optional hfilter
    exact Payload.decode_encode_of_decode hx
  · rintro n rfl
    obtain ⟨x, hx⟩ := Record.exists_of_optional hnumber
    exact Json.Decode.le_of_natural hx
  · rintro n rfl
    obtain ⟨x, hx⟩ := Record.exists_of_optional hsize
    exact Json.Decode.le_of_natural hx

theorem decode_encode_of_decode (h : decode j = .ok r) : decode r.encode = .ok r :=
  decode_encode (sendable_of_decode h)

end ListRequest

namespace CountRequest

variable {r : CountRequest}

theorem decode_encode (h : ∀ p ∈ r.filter, Payload.decode p.encode = .ok p) :
    decode r.encode = .ok r := by
  obtain ⟨record, hrecord, hlookup⟩ := Json.record_ofFields ⟨["Filter"], 0⟩
    [("Filter", r.filter.map (·.encode))] (by simp) (by simp)
  have hfilter : record.optional "Filter" Payload.decode = .ok r.filter :=
    Record.optional_of_lookup (hlookup "Filter") fun p hp => ⟨nofun, h p hp⟩
  rw [encode, decode, hrecord]
  simp only [bind, Except.bind, hfilter]
  rfl

theorem decode_encode_of_decode (h : decode j = .ok r) : decode r.encode = .ok r := by
  refine decode_encode fun p hp => ?_
  obtain ⟨record, -, h⟩ := Json.bind_eq_ok.mp h
  obtain ⟨filter, hfilter, h⟩ := Json.bind_eq_ok.mp h
  cases h
  obtain rfl := Option.mem_def.mp hp
  obtain ⟨x, hx⟩ := Record.exists_of_optional hfilter
  exact Payload.decode_encode_of_decode hx

end CountRequest

/-- A clause has at most one reading, and what was read from a document comes back from the document
that it is written as. -/
theorem requests_unambiguous_stable :
    (∀ j, ¬((∃ p, Payload.decode j = .ok p) ∧
      ∃ c, Filter.Condition.decode Filter.Condition.wireNames j = .ok c)) ∧
    (∀ j c, Clause.decode j = .ok c ↔ Clause.asGroup j = .ok c ∨ Clause.asLeaf j = .ok c) ∧
    (∀ j p, Payload.decode j = .ok p → Payload.decode p.encode = .ok p) ∧
    (∀ j r, ListRequest.decode j = .ok r → ListRequest.decode r.encode = .ok r) ∧
    ∀ j r, CountRequest.decode j = .ok r → CountRequest.decode r.encode = .ok r := by
  refine ⟨fun j ⟨⟨p, hp⟩, c, hc⟩ => ?_, fun j c => Clause.decode_eq_ok_iff,
    fun j p => Payload.decode_encode_of_decode, fun j r => ListRequest.decode_encode_of_decode,
    fun j r => CountRequest.decode_encode_of_decode⟩
  exact Payload.not_condition_of_decode hp c hc

theorem requests_unambiguous_stable_nested :
    let leaf : Json := .object [("Operator", .text "Equal"), ("LHSField", .text "status"),
      ("RHSValue", .null), ("Condition", .array [])]
    let group : Json := .object [("Operator", .object [("Or", .null)]), ("LHSField", .text "a"),
      ("Condition", .array [.object [("Operator", .text "Empty"), ("LHSField", .text "b")]])]
    let j : Json := .object [("Note", .bool true), ("PageNumber", .null), ("PageSize", .integer 20),
      ("Sort", .array [.object [("Field", .text "a")]]),
      ("Filter", .object [("Operator", .text "And"), ("Condition", .array [leaf, group])])]
    let r : ListRequest := ⟨[], some ⟨.and, [.leaf ⟨.equal, "status", none, .constant⟩,
      .group .or [.leaf ⟨.isEmpty, "b", none, .constant⟩]]⟩, [⟨"a", .ascending⟩], none, some 20⟩
    ListRequest.decode j = .ok r ∧ ListRequest.decode r.encode = .ok r := by
  intro leaf group j r
  have hr : ListRequest.decode j = .ok r := by
    simp only [leaf, group, j, r]
    rfl
  exact ⟨hr, requests_unambiguous_stable.2.2.2.1 j r hr⟩

end RecordLogic
