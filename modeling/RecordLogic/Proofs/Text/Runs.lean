import RecordLogic.Text.Blank

namespace RecordLogic.Text

/-- A run of characters with `p` ends where this text begins. -/
def Stops (p : Char → Bool) (cs : List Char) : Prop := ∀ c ∈ cs.head?, p c = false

section

variable {p : Char → Bool}

theorem ne_of_kind {c : Char} (other : Char) (h : p c = true) (hother : p other = false) :
    c ≠ other := by
  rintro rfl
  rw [h] at hother
  cases hother

@[simp] theorem stops_cons {c : Char} {cs : List Char} : Stops p (c :: cs) ↔ p c = false := by
  simp [Stops]

theorem dropWhile_of_stops {cs : List Char} (h : Stops p cs) : cs.dropWhile p = cs := by
  cases cs with
  | nil => rfl
  | cons c cs => rw [List.dropWhile_cons, if_neg (by simp [stops_cons.mp h])]

theorem takeWhile_of_stops {cs : List Char} (h : Stops p cs) : cs.takeWhile p = [] := by
  cases cs with
  | nil => rfl
  | cons c cs => rw [List.takeWhile_cons, if_neg (by simp [stops_cons.mp h])]

theorem takeWhile_append_of_stops {cs rest : List Char} (hcs : cs.all p = true)
    (hrest : Stops p rest) : (cs ++ rest).takeWhile p = cs := by
  rw [List.takeWhile_append_of_pos (List.all_eq_true.mp hcs), takeWhile_of_stops hrest,
    List.append_nil]

theorem dropWhile_append_of_stops {cs rest : List Char} (hcs : cs.all p = true)
    (hrest : Stops p rest) : (cs ++ rest).dropWhile p = rest := by
  rw [List.dropWhile_append_of_pos (List.all_eq_true.mp hcs), dropWhile_of_stops hrest]

end

theorem mem_dropWhile {p : Char → Bool} {c : Char} {cs : List Char} (hc : p c = false)
    (hmem : c ∈ cs) : c ∈ cs.dropWhile p := by
  rw [← List.takeWhile_append_dropWhile (p := p) (l := cs)] at hmem
  rcases List.mem_append.mp hmem with hmem | hmem
  · rw [List.all_eq_true.mp List.all_takeWhile c hmem] at hc
    cases hc
  · exact hmem

/-- Trimming drops blanks only. -/
theorem mem_trimmed {c : Char} {cs : List Char} (hc : isBlank c = false) (hmem : c ∈ cs) :
    c ∈ trimmed cs := by
  rw [trimmed, List.mem_reverse]
  apply mem_dropWhile hc
  rw [List.mem_reverse]
  exact mem_dropWhile hc hmem

theorem trimmed_eq_self {cs : List Char} (hfirst : Stops isBlank cs)
    (hlast : Stops isBlank cs.reverse) : trimmed cs = cs := by
  rw [trimmed, dropWhile_of_stops hfirst, dropWhile_of_stops hlast, List.reverse_reverse]

end RecordLogic.Text
