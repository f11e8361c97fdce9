namespace RecordLogic

/-- How a table of a document came to be: written in braces, under a header of its own, on the way
to another header, or on the way to a dotted key. -/
inductive Toml.Origin where
  | inline
  | header
  | implied
  | dotted
deriving DecidableEq

/-- A value of a TOML document. Dates are recognised and not kept. The tables under one repeated
header stand last first. -/
inductive Toml where
  | text (s : String)
  | integer (n : Int)
  | float (x : Float)
  | bool (b : Bool)
  | date
  | array (items : List Toml)
  | tables (items : List Toml)
  | table (origin : Toml.Origin) (entries : List (String × Toml))

namespace Toml

/-- Puts another value under a key that is there. -/
def put (key : String) (v : Toml) (entries : List (String × Toml)) : List (String × Toml) :=
  entries.map fun e => if e.1 = key then (key, v) else e

/-- Changes the entries of the table at a path, which is made where it is missing. Of a repeated
header the last table is meant. A dotted key cannot go through a table that has a header of its own,
and no path goes into braces. -/
def within (dotted : Bool)
    (f : Origin → List (String × Toml) → Option (List (String × Toml))) :
    List String → Origin → List (String × Toml) → Option (List (String × Toml))
  | [], origin, entries => f origin entries
  | k :: ks, _, entries =>
    match entries.lookup k with
    | none =>
      let fresh := if dotted then .dotted else .implied
      (within dotted f ks fresh []).map fun inner => entries ++ [(k, table fresh inner)]
    | some (table o inner) =>
      if o = .inline || dotted && o = .header then none
      else (within dotted f ks o inner).map fun inner => put k (table o inner) entries
    | some (tables (table o last :: earlier)) =>
      (within dotted f ks o last).map fun last => put k (tables (table o last :: earlier)) entries
    | some _ => none

/-- Adds a new key at the end of a path of dotted keys, all of them made by dotted keys. -/
def addEntry (path : List String) (key : String) (v : Toml) (origin : Origin)
    (entries : List (String × Toml)) : Option (List (String × Toml)) :=
  within true
    (fun o es =>
      if (o == .dotted) == path.isEmpty || (es.lookup key).isSome then none
      else some (es ++ [(key, v)]))
    path origin entries

/-- Opens the table of a header, which must not have been opened before. -/
def openTable (path : List String) (key : String) (entries : List (String × Toml)) :
    Option (List (String × Toml)) :=
  within false
    (fun _ es =>
      match es.lookup key with
      | none => some (es ++ [(key, table .header [])])
      | some (table .implied inner) => some (put key (table .header inner) es)
      | some _ => none)
    path .header entries

/-- Opens one more table of a repeated header. -/
def openRepeated (path : List String) (key : String) (entries : List (String × Toml)) :
    Option (List (String × Toml)) :=
  within false
    (fun _ es =>
      match es.lookup key with
      | none => some (es ++ [(key, tables [table .header []])])
      | some (tables ts) => some (put key (tables (table .header [] :: ts)) es)
      | some _ => none)
    path .header entries

end Toml

end RecordLogic
