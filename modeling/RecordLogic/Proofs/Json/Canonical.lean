import RecordLogic.Json.Decode
import RecordLogic.Proofs.Table

namespace RecordLogic

namespace Json

theorem canonicalEntries_of_canonical {es : List (String × Json)}
    (h : ∀ e ∈ es, e.2.canonical = e.2) : canonicalEntries es = es := by
  induction es with
  | nil => simp [canonicalEntries]
  | cons e es ih =>
    obtain ⟨k, j⟩ := e
    have hj : j.canonical = j := h (k, j) List.mem_cons_self
    rw [canonicalEntries, hj, ih fun d hd => h d (List.mem_cons_of_mem _ hd)]

theorem canonicalItems_of_canonical {js : List Json} (h : ∀ j ∈ js, j.canonical = j) :
    canonicalItems js = js := by
  induction js with
  | nil => simp [canonicalItems]
  | cons j js ih =>
    rw [canonicalItems, h j List.mem_cons_self, ih fun d hd => h d (List.mem_cons_of_mem _ hd)]

mutual

/-- A document in canonical form has that form already. -/
theorem canonical_canonical (j : Json) : j.canonical.canonical = j.canonical := by
  cases j with
  | array js =>
    rw [canonical, canonical, canonicalItems_of_canonical (canonical_of_mem_items js)]
  | object es =>
    have hes : canonicalEntries (Entries.ofList (canonicalEntries es)) =
        Entries.ofList (canonicalEntries es) :=
      canonicalEntries_of_canonical fun e he =>
        canonical_of_mem_entries es e (Entries.mem_of_mem_ofList he)
    rw [canonical, canonical, hes, Entries.ofList_of_sorted (Entries.sorted_ofList _)]
  | null => simp [canonical]
  | bool b => simp [canonical]
  | integer n => simp [canonical]
  | float x => simp [canonical]
  | text s => simp [canonical]

theorem canonical_of_mem_items (js : List Json) : ∀ j ∈ canonicalItems js, j.canonical = j := by
  cases js with
  | nil => simp [canonicalItems]
  | cons j js =>
    intro d hd
    rw [canonicalItems, List.mem_cons] at hd
    rcases hd with rfl | hd
    · exact canonical_canonical j
    · exact canonical_of_mem_items js d hd

theorem canonical_of_mem_entries (es : List (String × Json)) :
    ∀ e ∈ canonicalEntries es, e.2.canonical = e.2 := by
  match es with
  | [] => simp [canonicalEntries]
  | (k, j) :: es =>
    intro d hd
    rw [canonicalEntries, List.mem_cons] at hd
    rcases hd with rfl | hd
    · exact canonical_canonical j
    · exact canonical_of_mem_entries es d hd

end

theorem bind_eq_ok {ε α β : Type} {x : Except ε α} {f : α → Except ε β} {b : β} :
    x >>= f = .ok b ↔ ∃ a, x = .ok a ∧ f a = .ok b := by
  cases x with
  | ok a => simp [bind, Except.bind]
  | error e => simp [bind, Except.bind]

/-- A document that is read as a field is in canonical form. -/
theorem Record.canonical_of_optional {r : Record} {name : String} {v : Json}
    (h : r.optional name Decode.document = .ok (some v)) : v.canonical = v := by
  rw [optional] at h
  split at h
  · cases h
  · cases h
  · cases h
    exact canonical_canonical _

end Json

end RecordLogic
