import RecordLogic.Table

namespace RecordLogic

variable {α : Type} {key other : String} {a : α}

namespace Entries

theorem sorted_iff (es : Entries α) : es.Sorted ↔ es.keys.Pairwise (· < ·) :=
  List.pairwise_map.symm

theorem Sorted.of_keys_eq {β : Type} {es : Entries α} {fs : Entries β} (h : es.Sorted)
    (hkeys : fs.keys = es.keys) : fs.Sorted := by
  rw [sorted_iff, hkeys, ← sorted_iff]
  exact h

theorem mem_of_find? {es : Entries α} (h : es.find? key = some a) : (key, a) ∈ es := by
  induction es with
  | nil => simp [find?] at h
  | cons e es ih =>
    obtain ⟨k, b⟩ := e
    rw [find?] at h
    split at h
    · rename_i hk
      cases h
      exact hk ▸ List.mem_cons_self
    · exact List.mem_cons_of_mem _ (ih h)

theorem find?_of_mem {es : Entries α} {e : String × α} (h : es.Sorted) (he : e ∈ es) :
    es.find? e.1 = some e.2 := by
  induction es with
  | nil => cases he
  | cons d es ih =>
    obtain ⟨hfirst, hrest⟩ := List.pairwise_cons.mp h
    rcases List.mem_cons.mp he with rfl | he
    · simp [find?]
    · simp [find?, Std.ne_of_lt (hfirst e he), ih hrest he]

/-- What replaces an entry takes its place. -/
theorem length_insert {es : Entries α} {b : α} (h : es.Sorted) (hmem : (key, b) ∈ es) :
    (es.insert key a).length = es.length := by
  induction es with
  | nil => cases hmem
  | cons d es ih =>
    obtain ⟨hfirst, hrest⟩ := List.pairwise_cons.mp h
    rw [insert]
    rcases List.mem_cons.mp hmem with rfl | hmem
    · rw [if_neg (String.lt_irrefl key), if_pos rfl]
      rfl
    · have hlt : d.1 < key := hfirst (key, b) hmem
      rw [if_neg (String.lt_asymm hlt), if_neg (Std.ne_of_lt hlt), List.length_cons,
        ih hrest hmem, List.length_cons]

theorem find?_erase_self (es : Entries α) : (es.erase key).find? key = none := by
  cases h : (es.erase key).find? key with
  | none => rfl
  | some a =>
    have hmem := List.mem_filter.mp (mem_of_find? h)
    simp at hmem

theorem find?_erase_of_ne {es : Entries α} (h : key ≠ other) :
    (es.erase key).find? other = es.find? other := by
  induction es with
  | nil => rfl
  | cons e es ih =>
    obtain ⟨k, b⟩ := e
    by_cases hk : k = key
    · subst hk
      simpa [erase, find?, h] using ih
    · have hkeep : erase key ((k, b) :: es) = (k, b) :: erase key es := by simp [erase, hk]
      rw [hkeep, find?, find?, ih]

/-- A key above all others comes last. -/
theorem insert_of_forall_lt {es : Entries α} (h : ∀ e ∈ es, e.1 < key) :
    es.insert key a = es ++ [(key, a)] := by
  induction es with
  | nil => rfl
  | cons d es ih =>
    have hd : d.1 < key := h d List.mem_cons_self
    have hes := ih fun e he => h e (List.mem_cons_of_mem _ he)
    rw [insert, if_neg (String.lt_asymm hd), if_neg (Std.ne_of_lt hd), hes, List.cons_append]

theorem foldl_insert_of_sorted {acc es : Entries α} (h : Sorted (acc ++ es)) :
    es.foldl (fun acc e => acc.insert e.1 e.2) acc = acc ++ es := by
  induction es generalizing acc with
  | nil => simp
  | cons e es ih =>
    have hlast : ∀ d ∈ acc, d.1 < e.1 := by
      intro d hd
      exact (List.pairwise_append.mp h).2.2 d hd e List.mem_cons_self
    rw [List.foldl_cons, insert_of_forall_lt hlast]
    have hsorted : Sorted ((acc ++ [(e.1, e.2)]) ++ es) := by simpa using h
    rw [ih hsorted]
    simp

theorem ofList_of_sorted {es : Entries α} (h : es.Sorted) : ofList es = es :=
  foldl_insert_of_sorted h

theorem sorted_ofList (es : List (String × α)) : (ofList es).Sorted :=
  List.foldlRecOn es _ List.Pairwise.nil fun _ h _ _ => sorted_insert h

theorem mem_foldl_insert {acc : Entries α} {es : List (String × α)} {d : String × α}
    (h : d ∈ es.foldl (fun acc e => acc.insert e.1 e.2) acc) : d ∈ acc ∨ d ∈ es := by
  induction es generalizing acc with
  | nil => exact Or.inl h
  | cons e es ih =>
    rcases ih h with hinsert | hmem
    · rcases mem_insert hinsert with rfl | hacc
      · exact Or.inr List.mem_cons_self
      · exact Or.inl hacc
    · exact Or.inr (List.mem_cons_of_mem _ hmem)

theorem mem_of_mem_ofList {es : List (String × α)} {d : String × α} (h : d ∈ ofList es) :
    d ∈ es := by
  rcases mem_foldl_insert h with hnil | hmem
  · exact absurd hnil List.not_mem_nil
  · exact hmem

end Entries

namespace Table

theorem find?_erase_self (t : Table α) : (t.erase key).find? key = none :=
  Entries.find?_erase_self t.entries

theorem find?_erase_of_ne {t : Table α} (h : key ≠ other) :
    (t.erase key).find? other = t.find? other :=
  Entries.find?_erase_of_ne h

/-- An entry that is found after entries were added was there before or is one of them. -/
theorem find?_insertMany {t : Table α} {es : List (String × α)}
    (h : (t.insertMany es).find? key = some a) : t.find? key = some a ∨ (key, a) ∈ es := by
  induction es generalizing t with
  | nil => exact Or.inl h
  | cons e es ih =>
    rcases ih h with hfound | hmem
    · by_cases hk : e.1 = key
      · subst hk
        rw [find?_insert_self] at hfound
        cases hfound
        exact Or.inr List.mem_cons_self
      · rw [find?_insert_of_ne hk] at hfound
        exact Or.inl hfound
    · exact Or.inr (List.mem_cons_of_mem _ hmem)

/-- Entries under other keys do not count. -/
theorem find?_insertMany_of_not_mem {t : Table α} {es : List (String × α)}
    (h : key ∉ es.map Prod.fst) : (t.insertMany es).find? key = t.find? key := by
  induction es generalizing t with
  | nil => rfl
  | cons e es ih =>
    obtain ⟨hk, hrest⟩ := not_or.mp (mt List.mem_cons.mpr h)
    have hstep : t.insertMany (e :: es) = (t.insert e.1 e.2).insertMany es := rfl
    rw [hstep, ih hrest, find?_insert_of_ne (Ne.symm hk)]

theorem find?_insertMany_of_mem {t : Table α} {es : List (String × α)}
    (h : (es.map Prod.fst).Nodup) (hmem : (key, a) ∈ es) :
    (t.insertMany es).find? key = some a := by
  induction es generalizing t with
  | nil => cases hmem
  | cons e es ih =>
    obtain ⟨hfirst, hrest⟩ := List.nodup_cons.mp h
    have hstep : t.insertMany (e :: es) = (t.insert e.1 e.2).insertMany es := rfl
    rw [hstep]
    rcases List.mem_cons.mp hmem with rfl | hmem
    · rw [find?_insertMany_of_not_mem hfirst, find?_insert_self]
    · exact ih hrest hmem

theorem mem_of_find?_ofList {es : List (String × α)} (h : (ofList es).find? key = some a) :
    (key, a) ∈ es := by
  rcases find?_insertMany h with hempty | hmem
  · simp [empty, find?, Entries.find?] at hempty
  · exact hmem

end Table

end RecordLogic
