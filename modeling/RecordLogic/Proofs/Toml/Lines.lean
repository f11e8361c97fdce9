import RecordLogic.Proofs.Toml.Values

namespace RecordLogic.Toml

open Text (Stops)

variable {key : String} {cs rest : List Char} {c : Char}

theorem endLine?_of_isBareKey (hc : isBareKey c = true) :
    endLine? (c :: cs) = none := by
  have hcomment := Text.ne_of_kind '#' hc (by decide)
  have hline := Text.ne_of_kind '\n' hc (by decide)
  have hreturn := Text.ne_of_kind '\r' hc (by decide)
  have hkept : skipComment (skipBlanks (c :: cs)) = c :: cs := by
    rw [skipBlanks_of_stops (Text.stops_cons.mpr (isBlank_of_isBareKey hc)), skipComment.eq_def]
    split <;> simp_all
  rw [endLine?, hkept]
  split <;> simp_all

theorem endLine?_newline : endLine? ('\n' :: rest) = some rest := by
  simp [endLine?, skipBlanks, isBlank, skipComment]

theorem line?_empty (d : Draft) : d.line? ('\n' :: rest) = some (d, rest) := by
  simp [Draft.line?, skipBlanks, isBlank, endLine?_newline]

/-- The line of a header and what follows it. -/
def headerLine (name : String) (rest : List Char) : List Char :=
  '[' :: (name.toList ++ ']' :: '\n' :: rest)

/-- The line of an entry and what follows it. -/
def entryLine (key : String) (value rest : List Char) : List Char :=
  key.toList ++ ' ' :: '=' :: ' ' :: (value ++ '\n' :: rest)

theorem length_lt_headerLine (name : String) (rest : List Char) :
    rest.length < (headerLine name rest).length := by
  simp only [headerLine, List.length_append, List.length_cons]
  omega

theorem length_lt_entryLine (key : String) (value rest : List Char) :
    rest.length < (entryLine key value rest).length := by
  simp only [entryLine, List.length_append, List.length_cons]
  omega

theorem line?_headerLine {d : Draft} (hkey : IsBare key) :
    d.line? (headerLine key rest) =
      (openTable [] key d.entries).map fun entries => (⟨entries, [key]⟩, rest) := by
  have hend : Stops isBareKey (']' :: '\n' :: rest) := Text.stops_cons.mpr (by decide)
  have hclose : skipBlanks (']' :: '\n' :: rest) = ']' :: '\n' :: rest :=
    skipBlanks_of_stops (Text.stops_cons.mpr (by decide))
  have hread {fuel : Nat} (hfuel : 0 < fuel) :=
    hkey.key? hfuel hend (by simp [hclose])
  obtain ⟨c, cs, hcs, hc⟩ := hkey.exists_cons
  have hbracket := Text.ne_of_kind '[' hc (by decide)
  rw [hcs, List.cons_append] at hread
  rw [headerLine, hcs, List.cons_append]
  have hopen : skipBlanks ('[' :: c :: (cs ++ ']' :: '\n' :: rest)) =
      '[' :: c :: (cs ++ ']' :: '\n' :: rest) :=
    skipBlanks_of_stops (Text.stops_cons.mpr (by decide))
  have hskip : skipBlanks (c :: (cs ++ ']' :: '\n' :: rest)) =
      c :: (cs ++ ']' :: '\n' :: rest) :=
    skipBlanks_of_stops (Text.stops_cons.mpr (isBlank_of_isBareKey hc))
  rw [Draft.line?, hopen]
  split
  · simp_all
  · rename_i heq
    cases heq
    simp [hskip, hread, hclose, endLine?_newline]
    cases openTable [] key d.entries <;> rfl
  · simp_all

theorem line?_entryLine {d : Draft} (hkey : IsBare key) {v : Toml} (hv : Written cs v) :
    d.line? (entryLine key cs rest) = (d.add [] key v).map (·, rest) := by
  have hend : Stops isBareKey (' ' :: '=' :: ' ' :: (cs ++ '\n' :: rest)) :=
    Text.stops_cons.mpr (by decide)
  have hequals : skipBlanks (' ' :: '=' :: ' ' :: (cs ++ '\n' :: rest)) =
      '=' :: ' ' :: (cs ++ '\n' :: rest) := by
    simp [skipBlanks, isBlank]
  have hvalue : skipBlanks (' ' :: (cs ++ '\n' :: rest)) = cs ++ '\n' :: rest := by
    have hstops : Stops isBlank (cs ++ '\n' :: rest) := by
      have hfirst := hv.1
      cases cs <;> simpa using hfirst
    rw [skipBlanks, List.dropWhile_cons_of_pos (by decide)]
    exact skipBlanks_of_stops hstops
  have hread {fuel : Nat} (hfuel : 0 < fuel) := hkey.key? hfuel hend (by simp [hequals])
  obtain ⟨c, ds, hcs, hc⟩ := hkey.exists_cons
  have hbracket := Text.ne_of_kind '[' hc (by decide)
  rw [hcs, List.cons_append] at hread
  rw [entryLine, hcs, List.cons_append]
  have hskip : skipBlanks (c :: (ds ++ ' ' :: '=' :: ' ' :: (cs ++ '\n' :: rest))) =
      c :: (ds ++ ' ' :: '=' :: ' ' :: (cs ++ '\n' :: rest)) :=
    skipBlanks_of_stops (Text.stops_cons.mpr (isBlank_of_isBareKey hc))
  rw [Draft.line?, hskip]
  split
  · simp_all
  · simp_all
  · simp [endLine?_of_isBareKey hc, hread, hequals, hvalue, hv.2, endLine?_newline]
    cases d.add [] key v <;> rfl

namespace Draft

/-- The lines are read to their end, with any fuel that suffices for them. -/
def Leads (d : Draft) (cs : List Char) (d' : Draft) : Prop :=
  ∀ fuel, cs.length ≤ fuel → d.lines? fuel cs = some d'

variable {d d' next : Draft}

theorem leads_nil (d : Draft) : d.Leads [] d := by
  intro fuel _
  cases fuel <;> rfl

theorem leads_of_line? (h : d.line? cs = some (next, rest)) (hshort : rest.length < cs.length)
    (hrest : next.Leads rest d') : d.Leads cs d' := by
  intro fuel hfuel
  obtain ⟨c, cs, rfl⟩ := List.exists_cons_of_length_pos (Nat.zero_lt_of_lt hshort)
  obtain ⟨fuel, rfl⟩ := Nat.exists_eq_succ_of_ne_zero (Nat.ne_zero_of_lt hfuel)
  rw [lines?.eq_def]
  dsimp only
  rw [h]
  exact hrest fuel (Nat.le_of_lt_succ (Nat.lt_of_lt_of_le hshort hfuel))

/-- The draft after the header of a new section and some of its entries. -/
def inSection (before : List (String × Toml)) (name : String) (entries : List (String × Toml)) :
    Draft :=
  ⟨before ++ [(name, table .header entries)], [name]⟩

variable {before entries : List (String × Toml)} {name : String} {path : List String} {v : Toml}

theorem put_last (hname : before.lookup name = none) (w : Toml) :
    put name v (before ++ [(name, w)]) = before ++ [(name, v)] := by
  have hother : ∀ e ∈ before, e.1 ≠ name := by
    intro e he heq
    have hne := List.lookup_eq_none_iff.mp hname e he
    simp [heq] at hne
  rw [put, List.map_append, List.map_cons, List.map_nil, if_pos rfl]
  congr 1
  exact (List.map_congr_left fun e he => if_neg (hother e he)).trans (List.map_id before)

theorem add_inSection (hname : before.lookup name = none) (hkey : entries.lookup key = none) :
    (inSection before name entries).add [] key v =
      some (inSection before name (entries ++ [(key, v)])) := by
  simp [add, inSection, within, addEntry, List.lookup_append, hname, hkey, put_last]

/-- An entry before the first header. -/
theorem leads_top (hbare : IsBare key) (hv : Written cs v) (hkey : entries.lookup key = none)
    (hrest : (⟨entries ++ [(key, v)], []⟩ : Draft).Leads rest d') :
    (⟨entries, []⟩ : Draft).Leads (entryLine key cs rest) d' := by
  refine leads_of_line? ?_ (length_lt_entryLine key cs rest) hrest
  rw [line?_entryLine hbare hv]
  simp [add, within, addEntry, hkey]

theorem leads_entry (hbare : IsBare key) (hv : Written cs v) (hname : before.lookup name = none)
    (hkey : entries.lookup key = none)
    (hrest : (inSection before name (entries ++ [(key, v)])).Leads rest d') :
    (inSection before name entries).Leads (entryLine key cs rest) d' := by
  refine leads_of_line? ?_ (length_lt_entryLine key cs rest) hrest
  rw [line?_entryLine hbare hv, add_inSection hname hkey]
  rfl

/-- A header after an empty line opens a section without entries. -/
theorem leads_section (hbare : IsBare name) (hname : before.lookup name = none)
    (hrest : (inSection before name []).Leads rest d') :
    (⟨before, path⟩ : Draft).Leads ('\n' :: headerLine name rest) d' := by
  refine leads_of_line? (line?_empty _) (by simp)
    (leads_of_line? ?_ (length_lt_headerLine name rest) hrest)
  rw [line?_headerLine hbare]
  simp [openTable, within, hname, inSection]

end Draft

end RecordLogic.Toml
