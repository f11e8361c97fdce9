import Mathlib.Data.List.Nodup
import RecordLogic.Proofs.Json.Canonical

namespace RecordLogic

namespace Entries

variable {α : Type} {key : String} {es : Entries α}

theorem nodup_keys (h : es.Sorted) : es.keys.Nodup :=
  List.pairwise_map.mpr (h.imp fun hlt => Std.ne_of_lt hlt)

theorem find?_eq_lookup (key : String) (es : Entries α) : es.find? key = es.lookup key := by
  induction es with
  | nil => rfl
  | cons e es ih =>
    obtain ⟨k, a⟩ := e
    by_cases hk : k = key
    · simp [find?, hk]
    · simp [find?, List.lookup_cons, hk, beq_false_of_ne (Ne.symm hk), ih]

theorem find?_foldl_insert {acc : Entries α} (h : es.keys.Nodup) :
    find? key (es.foldl (fun acc e => acc.insert e.1 e.2) acc) =
      (es.find? key).or (acc.find? key) := by
  induction es generalizing acc with
  | nil => rfl
  | cons e es ih =>
    obtain ⟨k, a⟩ := e
    obtain ⟨hfirst, hrest⟩ := List.nodup_cons.mp h
    rw [List.foldl_cons, ih hrest]
    by_cases hk : k = key
    · subst hk
      have hnone : find? k es = none := by
        cases hfound : find? k es with
        | none => rfl
        | some b => exact absurd (List.mem_map_of_mem (mem_of_find? hfound)) hfirst
      rw [hnone, find?_insert_self]
      simp [find?]
    · rw [find?_insert_of_ne hk]
      simp [find?, hk]

theorem find?_ofList (h : es.keys.Nodup) : (ofList es).find? key = es.find? key := by
  rw [ofList, find?_foldl_insert h]
  cases es.find? key <;> rfl

end Entries

namespace Json

variable {α : Type} {name : String} {fs : List (String × Option Json)}

theorem firstDuplicate?_eq_none {ks : List String} (h : ks.Nodup) : firstDuplicate? ks = none := by
  induction ks with
  | nil => rfl
  | cons k ks ih =>
    obtain ⟨hk, hks⟩ := List.nodup_cons.mp h
    simp [firstDuplicate?, hk, ih hks]

/-- The entries of the fields that have a value. -/
def given (fs : List (String × Option Json)) : List (String × Json) :=
  fs.filterMap fun f => f.2.map (f.1, ·)

theorem keys_given_sublist (fs : List (String × Option Json)) :
    ((given fs).map Prod.fst).Sublist (fs.map Prod.fst) := by
  induction fs with
  | nil => exact List.Sublist.refl _
  | cons f fs ih =>
    obtain ⟨k, v⟩ := f
    cases v with
    | none => simpa [given] using ih.cons k
    | some j => simpa [given] using ih.cons_cons k

theorem lookup_given (h : (fs.map Prod.fst).Nodup) :
    (given fs).lookup name = (fs.lookup name).join := by
  induction fs with
  | nil => rfl
  | cons f fs ih =>
    obtain ⟨k, v⟩ := f
    obtain ⟨hk, hrest⟩ := List.nodup_cons.mp h
    cases v with
    | some j =>
      have hcons : given ((k, some j) :: fs) = (k, j) :: given fs := rfl
      rw [hcons, List.lookup_cons, List.lookup_cons, ih hrest]
      cases name == k <;> rfl
    | none =>
      have hskip : given ((k, none) :: fs) = given fs := rfl
      rw [hskip, ih hrest, List.lookup_cons]
      by_cases hname : name = k
      · subst hname
        have hnone : fs.lookup name = none := by
          rw [List.lookup_eq_none_iff]
          intro f hf
          have hne : name ≠ f.1 := by
            rintro rfl
            have hmem : f.1 ∈ fs.map Prod.fst := List.mem_map_of_mem hf
            exact hk hmem
          simpa using hne
        simp [hnone]
      · simp [beq_false_of_ne hname]

theorem lookup_filter {names : List String} (h : name ∈ names) (es : List (String × Json)) :
    (es.filter (names.contains ·.1)).lookup name = es.lookup name := by
  induction es with
  | nil => rfl
  | cons e es ih =>
    obtain ⟨k, j⟩ := e
    by_cases hk : name = k
    · subst hk
      simp [h]
    · have hskip : ((k, j) :: es).lookup name = es.lookup name := by
        rw [List.lookup_cons, beq_false_of_ne hk]
      rw [hskip, ← ih, List.filter_cons]
      split
      · rw [List.lookup_cons, beq_false_of_ne hk]
      · rfl

/-- A field of a record in its object form is the entry of that name. -/
theorem lookup_of_record_object {fields : Fields} {es : List (String × Json)} {r : Record}
    (h : record fields (.object es) = .ok r) (hname : name ∈ fields.names) :
    r.lookup name = es.lookup name := by
  simp only [record] at h
  split at h
  · cases h
  · cases h
    exact lookup_filter hname es

/-- A record that was written is read with the values that it was given. -/
theorem record_ofFields (fields : Fields) (fs : List (String × Option Json))
    (hnames : ∀ f ∈ fs, f.1 ∈ fields.names) (hnd : (fs.map Prod.fst).Nodup) :
    ∃ r, record fields (ofFields fs) = .ok r ∧ ∀ name, r.lookup name = (fs.lookup name).join := by
  have hkeys : (Entries.keys (given fs)).Nodup := hnd.sublist (keys_given_sublist fs)
  have hknown : (Entries.ofList (given fs)).filter (fields.names.contains ·.1) =
      Entries.ofList (given fs) := by
    rw [List.filter_eq_self]
    intro e he
    have hmem := List.mem_map_of_mem (f := Prod.fst) (Entries.mem_of_mem_ofList he)
    obtain ⟨f, hf, hfe⟩ := List.mem_map.mp ((keys_given_sublist fs).subset hmem)
    simpa [← hfe] using hnames f hf
  have hunique := firstDuplicate?_eq_none (Entries.nodup_keys (Entries.sorted_ofList (given fs)))
  refine ⟨Entries.ofList (given fs), ?_, fun name => ?_⟩
  · change record fields (.object (Entries.ofList (given fs))) = _
    simp only [record, hknown]
    rw [Entries.keys] at hunique
    rw [hunique]
  · rw [← Entries.find?_eq_lookup, Entries.find?_ofList hkeys, Entries.find?_eq_lookup,
      lookup_given hnd]

namespace Record

variable {r : Record} {encode : α → Json} {decode : Decoder α}

theorem required_of_lookup {j : Json} {a : α} (h : r.lookup name = some j) (hj : decode j = .ok a) :
    r.required name decode = .ok a := by
  rw [required, h]
  exact hj

/-- A field that was left out or written without a null is read as it was. -/
theorem optional_of_lookup {a : Option α} (h : r.lookup name = a.map encode)
    (ha : ∀ x ∈ a, encode x ≠ .null ∧ decode (encode x) = .ok x) :
    r.optional name decode = .ok a := by
  rw [optional, h]
  cases a with
  | none => rfl
  | some x =>
    obtain ⟨hnull, hx⟩ := ha x rfl
    rw [Option.map_some]
    split
    · rename_i heq
      cases heq
    · rename_i heq
      exact absurd (Option.some.inj heq) hnull
    · rename_i j _ heq
      rw [← Option.some.inj heq, hx]
      rfl

/-- A field that was found was read from some document. -/
theorem exists_of_optional {a : α} (h : r.optional name decode = .ok (some a)) :
    ∃ j, decode j = .ok a := by
  rw [optional] at h
  split at h
  · cases h
  · cases h
  · rename_i j _ _
    cases hj : decode j with
    | error e => simp [hj, Except.map] at h
    | ok b =>
      rw [hj] at h
      cases h
      exact ⟨j, hj⟩

theorem defaulted_of_lookup {default a : α} {j : Option Json} (h : r.lookup name = j)
    (hnone : j = none → default = a) (hsome : ∀ x ∈ j, decode x = .ok a) :
    r.defaulted name default decode = .ok a := by
  rw [defaulted, h]
  cases j with
  | none => rw [hnone rfl]
  | some x => exact hsome x rfl

end Record

theorem Decode.items_array {decode : Decoder α} {encode : α → Json} {xs : List α}
    (h : ∀ x ∈ xs, decode (encode x) = .ok x) :
    Decode.items decode (.array (xs.map encode)) = .ok xs := by
  rw [items]
  induction xs with
  | nil => rfl
  | cons x xs ih =>
    have hxs := ih fun y hy => h y (List.mem_cons_of_mem _ hy)
    rw [List.map_cons, List.mapM_cons, h x List.mem_cons_self, hxs]
    rfl

theorem Decode.natural_integer {n most : Nat} (h : n ≤ most) :
    Decode.natural most (.integer n) = .ok n := by
  have hn : (n : Int) ≤ most := Int.ofNat_le.mpr h
  simp [natural, hn]

theorem Decode.le_of_natural {j : Json} {n most : Nat} (h : Decode.natural most j = .ok n) :
    n ≤ most := by
  cases j with
  | integer m =>
    rw [natural] at h
    split at h
    · cases h
      omega
    · cases h
  | _ => cases h

end Json

end RecordLogic
