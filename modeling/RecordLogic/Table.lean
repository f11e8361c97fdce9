namespace RecordLogic

/-- Entries under text keys. -/
abbrev Entries (α : Type) := List (String × α)

namespace Entries

variable {α : Type}

/-- Keys strictly increase, so each occurs once. -/
def Sorted (es : Entries α) : Prop :=
  es.Pairwise fun a b => a.1 < b.1

def keys (es : Entries α) : List String :=
  es.map (·.1)

def find? (key : String) : Entries α → Option α
  | [] => none
  | (k, a) :: es => if k = key then some a else find? key es

/-- Puts `a` under `key` at its place in the order of keys, instead of what was there. -/
def insert (key : String) (a : α) : Entries α → Entries α
  | [] => [(key, a)]
  | (k, b) :: es =>
    if key < k then (key, a) :: (k, b) :: es
    else if k = key then (key, a) :: es
    else (k, b) :: insert key a es

def erase (key : String) (es : Entries α) : Entries α :=
  es.filter (·.1 ≠ key)

/-- In order of keys; of two entries under one key the later one stays. -/
def ofList (es : List (String × α)) : Entries α :=
  es.foldl (fun acc e => acc.insert e.1 e.2) []

theorem mem_insert {key : String} {a : α} {es : Entries α} {e : String × α}
    (h : e ∈ es.insert key a) : e = (key, a) ∨ e ∈ es := by
  induction es with
  | nil => simpa [insert] using h
  | cons d es ih =>
    rw [insert] at h
    split at h
    · simpa using h
    · split at h
      · rcases List.mem_cons.mp h with h | h
        · exact Or.inl h
        · exact Or.inr (List.mem_cons_of_mem _ h)
      · rcases List.mem_cons.mp h with h | h
        · exact Or.inr (h ▸ List.mem_cons_self)
        · exact (ih h).imp_right (List.mem_cons_of_mem _)

theorem sorted_insert {key : String} {a : α} {es : Entries α} (h : es.Sorted) :
    (es.insert key a).Sorted := by
  induction es with
  | nil => simp [insert, Sorted]
  | cons d es ih =>
    have hs := List.pairwise_cons.mp h
    rw [insert]
    split
    · rename_i hlt
      refine List.pairwise_cons.mpr ⟨fun e he => ?_, h⟩
      rcases List.mem_cons.mp he with rfl | he
      · exact hlt
      · exact String.lt_trans hlt (hs.1 e he)
    · rename_i hnlt
      split
      · rename_i heq
        exact List.pairwise_cons.mpr ⟨fun e he => heq ▸ hs.1 e he, hs.2⟩
      · rename_i hne
        refine List.pairwise_cons.mpr ⟨fun e he => ?_, ih hs.2⟩
        rcases mem_insert he with rfl | he
        · exact Std.lt_of_le_of_ne (String.not_lt.mp hnlt) hne
        · exact hs.1 e he

theorem sorted_erase {key : String} {es : Entries α} (h : es.Sorted) : (es.erase key).Sorted :=
  h.filter _

theorem find?_insert_self {key : String} {a : α} {es : Entries α} :
    (es.insert key a).find? key = some a := by
  induction es with
  | nil => simp [insert, find?]
  | cons d es ih =>
    rw [insert]
    split
    · simp [find?]
    · split <;> simp [find?, *]

theorem find?_insert_of_ne {key other : String} {a : α} {es : Entries α} (h : key ≠ other) :
    (es.insert key a).find? other = es.find? other := by
  induction es with
  | nil => simp [insert, find?, h]
  | cons d es ih =>
    rw [insert]
    split
    · simp [find?, h]
    · split
      · rename_i heq
        simp [find?, h, heq]
      · simp [find?, ih]

end Entries

/-- A finite map from texts, kept in the order of its keys. -/
structure Table (α : Type) where
  entries : Entries α
  sorted : entries.Sorted

namespace Table

variable {α : Type}

def empty : Table α := ⟨[], List.Pairwise.nil⟩

instance : Inhabited (Table α) := ⟨empty⟩

def find? (t : Table α) (key : String) : Option α :=
  t.entries.find? key

def insert (t : Table α) (key : String) (a : α) : Table α :=
  ⟨t.entries.insert key a, Entries.sorted_insert t.sorted⟩

def erase (t : Table α) (key : String) : Table α :=
  ⟨t.entries.erase key, Entries.sorted_erase t.sorted⟩

def keys (t : Table α) : List String :=
  t.entries.keys

def size (t : Table α) : Nat :=
  t.entries.length

/-- Adds the entries one after the other; a later one replaces an earlier one of its key. -/
def insertMany (t : Table α) (es : List (String × α)) : Table α :=
  es.foldl (fun t e => t.insert e.1 e.2) t

def ofList (es : List (String × α)) : Table α :=
  empty.insertMany es

@[simp]
theorem find?_insert_self {t : Table α} {key : String} {a : α} :
    (t.insert key a).find? key = some a :=
  Entries.find?_insert_self

theorem find?_insert_of_ne {t : Table α} {key other : String} {a : α} (h : key ≠ other) :
    (t.insert key a).find? other = t.find? other :=
  Entries.find?_insert_of_ne h

end Table

end RecordLogic
