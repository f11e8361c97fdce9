import RecordLogic.Filter.Tree
import RecordLogic.Filter.Wire

namespace RecordLogic

open Json (Decoder)

inductive SortOrder where
  | ascending
  | descending
deriving DecidableEq

namespace SortOrder

def name : SortOrder → String
  | ascending => "Asc"
  | descending => "Desc"

def ofName? (s : String) : Option SortOrder :=
  [ascending, descending].find? (·.name = s)

theorem ofName?_name (order : SortOrder) : ofName? order.name = some order := by
  cases order <;> decide

end SortOrder

structure SortField where
  field : String
  order : SortOrder := .ascending
deriving DecidableEq

namespace SortField

def decode : Decoder SortField := fun j => do
  let r ← Json.record ⟨["Field", "Order"], 1⟩ j
  let field ← r.required "Field" Json.Decode.text
  let order ← r.defaulted "Order" .ascending (Json.Decode.name SortOrder.ofName?)
  return ⟨field, order⟩

def encode (s : SortField) : Json :=
  Json.ofFields [("Field", some (.text s.field)), ("Order", some (.text s.order.name))]

end SortField

/-- A request for records: the wanted fields, all of them if none is named, the filter, the order
and the page, counted from one. -/
structure ListRequest where
  fields : List String := []
  filter : Option Filter.Payload := none
  sort : List SortField := []
  pageNumber : Option Nat := none
  pageSize : Option Nat := none

namespace ListRequest

def withFields (r : ListRequest) (fields : List String) : ListRequest :=
  { r with fields }

/-- Adds a sort field of least weight. -/
def withSort (r : ListRequest) (s : SortField) : ListRequest :=
  { r with sort := r.sort ++ [s] }

def withPage (r : ListRequest) (number size : Nat) : ListRequest :=
  { r with pageNumber := some number, pageSize := some size }

/-- The largest page number and page size. -/
def maxPage : Nat := 4_294_967_295

def decode : Decoder ListRequest := fun j => do
  let r ← Json.record ⟨["Fields", "Filter", "Sort", "PageNumber", "PageSize"], 0⟩ j
  let fields ← r.defaulted "Fields" [] (Json.Decode.items Json.Decode.text)
  let filter ← r.optional "Filter" Filter.Payload.decode
  let sort ← r.defaulted "Sort" [] (Json.Decode.items SortField.decode)
  let pageNumber ← r.optional "PageNumber" (Json.Decode.natural maxPage)
  let pageSize ← r.optional "PageSize" (Json.Decode.natural maxPage)
  return ⟨fields, filter, sort, pageNumber, pageSize⟩

/-- An array that is left out when it is empty. -/
def filled (items : List Json) : Option Json :=
  if items.isEmpty then none else some (.array items)

/-- What is absent is left out. -/
def encode (r : ListRequest) : Json :=
  Json.ofFields
    [("Fields", filled (r.fields.map .text)), ("Filter", r.filter.map (·.encode)),
      ("Sort", filled (r.sort.map (·.encode))), ("PageNumber", r.pageNumber.map (.integer ·)),
      ("PageSize", r.pageSize.map (.integer ·))]

end ListRequest

/-- A request for the number of records. -/
structure CountRequest where
  filter : Option Filter.Payload := none

namespace CountRequest

def decode : Decoder CountRequest := fun j => do
  let r ← Json.record ⟨["Filter"], 0⟩ j
  return ⟨← r.optional "Filter" Filter.Payload.decode⟩

def encode (r : CountRequest) : Json :=
  Json.ofFields [("Filter", r.filter.map (·.encode))]

end CountRequest

namespace Filter.Tree

def listRequest (t : Tree) : ListRequest :=
  { filter := t.payload? }

def countRequest (t : Tree) : CountRequest :=
  ⟨t.payload?⟩

end Filter.Tree

end RecordLogic
