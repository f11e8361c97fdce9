import RecordLogic.Toml.Reader

namespace RecordLogic.Toml

/-- Every whole number of the value has at most 64 bits. -/
inductive Fits : Toml → Prop
  | text (s : String) : Fits (text s)
  | integer {n : Int} (h : isSigned64 n = true) : Fits (integer n)
  | float (x : Float) : Fits (float x)
  | bool (b : Bool) : Fits (bool b)
  | date : Fits date
  | array {items : List Toml} (h : ∀ v ∈ items, Fits v) : Fits (array items)
  | tables {items : List Toml} (h : ∀ v ∈ items, Fits v) : Fits (tables items)
  | table {origin : Origin} {entries : List (String × Toml)} (h : ∀ e ∈ entries, Fits e.2) :
    Fits (table origin entries)

def AllFit (entries : List (String × Toml)) : Prop := ∀ e ∈ entries, Fits e.2

/-- What is read, if anything, fits. -/
def Yields (o : Option Toml) : Prop := ∀ v ∈ o, v.Fits

namespace Yields

theorem none : Yields none := by simp [Yields]

theorem some {v : Toml} (h : v.Fits) : Yields (some v) := by simpa [Yields] using h

theorem bind {α : Type} {o : Option α} {f : α → Option Toml} (h : ∀ a, Yields (f a)) :
    Yields (o >>= f) := by
  cases o with
  | none => exact none
  | some a => exact h a

theorem ite {c : Prop} [Decidable c] {o o' : Option Toml} (h : c → Yields o)
    (h' : ¬c → Yields o') : Yields (if c then o else o') := by
  split
  · exact h ‹c›
  · exact h' ‹¬c›

theorem or {o o' : Option Toml} (h : Yields o) (h' : Yields o') : Yields (o.or o') := by
  cases o with
  | none => exact h'
  | some v => exact h

end Yields

theorem yields_integer? (cs : List Char) : Yields (integer? cs) :=
  .bind fun _ => .ite (fun h => .some (.integer h)) fun _ => .none

theorem yields_baseInteger? (base : Nat) (cs : List Char) : Yields (baseInteger? base cs) :=
  .bind fun _ => .bind fun _ => .ite (fun h => .some (.integer h)) fun _ => .none

theorem yields_float? (cs : List Char) : Yields (float? cs) := by
  have hlast (x : Float) : Yields (if x.isFinite = true then pure (float x) else Option.none) :=
    .ite (fun _ => .some (.float x)) fun _ => .none
  rw [float?]
  generalize Number.takeSign cs = p
  obtain ⟨negative, cs⟩ := p
  refine .bind fun whole => ?_
  dsimp only
  split
  · refine .ite (fun _ => .none) fun _ => .bind fun fraction => ?_
    split <;> exact .bind fun exponent => hlast _
  · refine .bind fun fraction => ?_
    split <;> exact .bind fun exponent => hlast _

theorem yields_namedFloat? (cs : List Char) : Yields (namedFloat? cs) :=
  .ite (fun _ => .some (.float _)) fun _ => .ite (fun _ => .some (.float _)) fun _ => .none

theorem yields_date? (cs : List Char) : Yields (date? cs) := by
  rw [date?]
  split
  · exact .some .date
  · exact .ite (fun _ => .bind fun _ => .ite (fun _ => .some .date) fun _ =>
      .bind fun _ => .some .date) fun _ => .none
  · exact .bind fun _ => .ite (fun _ => .some .date) fun _ => .none

theorem yields_scalar? (cs : List Char) : Yields (scalar? cs) := by
  rw [scalar?.eq_def]
  split
  · exact .some (.bool true)
  · exact .some (.bool false)
  · exact yields_baseInteger? 16 _
  · exact yields_baseInteger? 8 _
  · exact yields_baseInteger? 2 _
  · have hinteger := yields_integer? cs
    have hfloat := yields_float? cs
    split
    · rename_i h
      rwa [h] at hinteger
    · split
      · rename_i h
        rwa [h] at hfloat
      · exact (yields_namedFloat? cs).or (yields_date? cs)

theorem allFit_append {entries : List (String × Toml)} (h : AllFit entries) {key : String}
    {v : Toml} (hv : v.Fits) : AllFit (entries ++ [(key, v)]) := by
  intro e he
  rcases List.mem_append.mp he with he | he
  · exact h e he
  · rw [List.mem_singleton.mp he]
    exact hv

theorem allFit_put {entries : List (String × Toml)} (h : AllFit entries) {key : String}
    {v : Toml} (hv : v.Fits) : AllFit (put key v entries) := by
  intro e he
  obtain ⟨e', he', rfl⟩ := List.mem_map.mp he
  split
  · exact hv
  · exact h e' he'

theorem fits_of_lookup {entries : List (String × Toml)} (h : AllFit entries) {key : String}
    {v : Toml} (hv : entries.lookup key = some v) : v.Fits := by
  induction entries with
  | nil => cases hv
  | cons e entries ih =>
    rw [List.lookup_cons] at hv
    split at hv
    · cases hv
      exact h e List.mem_cons_self
    · exact ih (fun e he => h e (List.mem_cons_of_mem _ he)) hv

/-- A change of one table keeps whole numbers within 64 bits if it does so where it takes place. -/
theorem allFit_within {dotted : Bool}
    {f : Origin → List (String × Toml) → Option (List (String × Toml))}
    (hf : ∀ origin entries entries', AllFit entries → f origin entries = some entries' →
      AllFit entries') {path : List String} {origin : Origin}
    {entries entries' : List (String × Toml)} (hentries : AllFit entries)
    (h : within dotted f path origin entries = some entries') : AllFit entries' := by
  induction path generalizing origin entries entries' with
  | nil => exact hf origin entries entries' hentries h
  | cons k ks ih =>
    rw [within] at h
    split at h
    · obtain ⟨inner, hinner, rfl⟩ := Option.map_eq_some_iff.mp h
      exact allFit_append hentries (.table (ih (by simp [AllFit]) hinner))
    · rename_i o inner hlookup
      split at h
      · cases h
      · obtain ⟨changed, hchanged, rfl⟩ := Option.map_eq_some_iff.mp h
        cases fits_of_lookup hentries hlookup with
        | table hinner => exact allFit_put hentries (.table (ih hinner hchanged))
    · rename_i o last earlier hlookup
      obtain ⟨changed, hchanged, rfl⟩ := Option.map_eq_some_iff.mp h
      cases fits_of_lookup hentries hlookup with
      | tables hitems =>
        cases hitems _ List.mem_cons_self with
        | table hlast =>
          refine allFit_put hentries (.tables fun v hv => ?_)
          rcases List.mem_cons.mp hv with rfl | hv
          · exact .table (ih hlast hchanged)
          · exact hitems v (List.mem_cons_of_mem _ hv)
    · cases h

theorem allFit_addEntry {path : List String} {key : String} {v : Toml} (hv : v.Fits)
    {origin : Origin} {entries entries' : List (String × Toml)} (hentries : AllFit entries)
    (h : addEntry path key v origin entries = some entries') : AllFit entries' := by
  refine allFit_within (fun o es es' hes h => ?_) hentries h
  split at h
  · cases h
  · cases h
    exact allFit_append hes hv

theorem allFit_openTable {path : List String} {key : String}
    {entries entries' : List (String × Toml)} (hentries : AllFit entries)
    (h : openTable path key entries = some entries') : AllFit entries' := by
  refine allFit_within (fun o es es' hes h => ?_) hentries h
  split at h
  · cases h
    exact allFit_append hes (.table (by simp))
  · rename_i inner hlookup
    cases h
    cases fits_of_lookup hes hlookup with
    | table hinner => exact allFit_put hes (.table hinner)
  · cases h

theorem allFit_openRepeated {path : List String} {key : String}
    {entries entries' : List (String × Toml)} (hentries : AllFit entries)
    (h : openRepeated path key entries = some entries') : AllFit entries' := by
  refine allFit_within (fun o es es' hes h => ?_) hentries h
  split at h
  · cases h
    exact allFit_append hes (.tables (by simpa using .table (by simp)))
  · rename_i ts hlookup
    cases h
    cases fits_of_lookup hes hlookup with
    | tables hts =>
      refine allFit_put hes (.tables fun v hv => ?_)
      rcases List.mem_cons.mp hv with rfl | hv
      · exact .table (by simp)
      · exact hts v hv
  · cases h

/-- What is read with so much fuel fits. -/
structure ReadersFit (fuel : Nat) : Prop where
  value {cs rest : List Char} {v : Toml} (h : value? fuel cs = some (v, rest)) : v.Fits
  items {cs rest : List Char} {vs : List Toml} (h : items? fuel cs = some (vs, rest)) :
    ∀ v ∈ vs, v.Fits
  pairs {cs rest : List Char} {entries entries' : List (String × Toml)} (hentries : AllFit entries)
    (h : pairs? entries fuel cs = some (entries', rest)) : AllFit entries'

namespace ReadersFit

variable {fuel : Nat} {cs rest : List Char}

theorem value_succ (ih : ReadersFit fuel) {v : Toml} (h : value? (fuel + 1) cs = some (v, rest)) :
    v.Fits := by
  rw [value?.eq_def] at h
  dsimp only at h
  split at h
  · obtain ⟨p, -, hp⟩ := Option.map_eq_some_iff.mp h
    cases hp
    exact .text _
  · obtain ⟨p, -, hp⟩ := Option.map_eq_some_iff.mp h
    cases hp
    exact .text _
  · obtain ⟨p, hread, hp⟩ := Option.map_eq_some_iff.mp h
    cases hp
    exact .array (ih.items hread)
  · split at h
    · cases h
      exact .table (by simp)
    · obtain ⟨p, hread, hp⟩ := Option.map_eq_some_iff.mp h
      cases hp
      exact .table (ih.pairs (by simp [AllFit]) hread)
  · obtain ⟨w, hread, hp⟩ := Option.map_eq_some_iff.mp h
    cases hp
    exact yields_scalar? _ _ hread

theorem items_succ (ih : ReadersFit fuel) {vs : List Toml}
    (h : items? (fuel + 1) cs = some (vs, rest)) : ∀ v ∈ vs, v.Fits := by
  rw [items?] at h
  split at h
  · cases h
    simp
  · obtain ⟨⟨v, cs⟩, hv, h⟩ := Option.bind_eq_some_iff.mp h
    dsimp only at h
    split at h
    · obtain ⟨⟨vs, cs⟩, hvs, h⟩ := Option.bind_eq_some_iff.mp h
      cases h
      exact List.forall_mem_cons.mpr ⟨ih.value hv, ih.items hvs⟩
    · cases h
      exact List.forall_mem_singleton.mpr (ih.value hv)
    · cases h

theorem pairs_succ (ih : ReadersFit fuel) {entries entries' : List (String × Toml)}
    (hentries : AllFit entries) (h : pairs? entries (fuel + 1) cs = some (entries', rest)) :
    AllFit entries' := by
  rw [pairs?] at h
  obtain ⟨⟨⟨path, last⟩, cs⟩, -, h⟩ := Option.bind_eq_some_iff.mp h
  dsimp only at h
  split at h
  · obtain ⟨⟨v, cs⟩, hv, h⟩ := Option.bind_eq_some_iff.mp h
    obtain ⟨added, hadded, h⟩ := Option.bind_eq_some_iff.mp h
    have hfit : AllFit added := allFit_addEntry (ih.value hv) hentries hadded
    dsimp only at h
    split at h
    · exact ih.pairs hfit h
    · cases h
      exact hfit
    · cases h
  · cases h

end ReadersFit

/-- By induction on the fuel, for values, items and entries at once. -/
theorem readersFit (fuel : Nat) : ReadersFit fuel := by
  induction fuel with
  | zero => exact ⟨by simp [value?], by simp [items?], by simp [pairs?]⟩
  | succ fuel ih => exact ⟨ih.value_succ, ih.items_succ, ih.pairs_succ⟩

theorem allFit_add {d d' : Draft} {path : List String} {key : String} {v : Toml} (hv : v.Fits)
    (hd : AllFit d.entries) (h : d.add path key v = some d') : AllFit d'.entries := by
  obtain ⟨entries, hentries, rfl⟩ := Option.map_eq_some_iff.mp h
  exact allFit_within (fun _ _ _ hes h => allFit_addEntry hv hes h) hd hentries

theorem allFit_line? {d d' : Draft} {cs rest : List Char} (hd : AllFit d.entries)
    (h : d.line? cs = some (d', rest)) : AllFit d'.entries := by
  rw [Draft.line?] at h
  split at h
  · obtain ⟨⟨⟨path, last⟩, cs⟩, -, h⟩ := Option.bind_eq_some_iff.mp h
    dsimp only at h
    split at h
    · obtain ⟨entries, hentries, h⟩ := Option.bind_eq_some_iff.mp h
      obtain ⟨end', -, h⟩ := Option.bind_eq_some_iff.mp h
      cases h
      exact allFit_openRepeated hd hentries
    · cases h
  · obtain ⟨⟨⟨path, last⟩, cs⟩, -, h⟩ := Option.bind_eq_some_iff.mp h
    dsimp only at h
    split at h
    · obtain ⟨entries, hentries, h⟩ := Option.bind_eq_some_iff.mp h
      obtain ⟨end', -, h⟩ := Option.bind_eq_some_iff.mp h
      cases h
      exact allFit_openTable hd hentries
    · cases h
  · split at h
    · cases h
      exact hd
    · obtain ⟨⟨⟨path, last⟩, cs⟩, -, h⟩ := Option.bind_eq_some_iff.mp h
      dsimp only at h
      split at h
      · obtain ⟨⟨v, cs⟩, hv, h⟩ := Option.bind_eq_some_iff.mp h
        obtain ⟨added, hadded, h⟩ := Option.bind_eq_some_iff.mp h
        obtain ⟨end', -, h⟩ := Option.bind_eq_some_iff.mp h
        cases h
        exact allFit_add ((readersFit _).value hv) hd hadded
      · cases h

theorem allFit_lines? {fuel : Nat} {d d' : Draft} {cs : List Char} (hd : AllFit d.entries)
    (h : d.lines? fuel cs = some d') : AllFit d'.entries := by
  induction fuel generalizing d cs with
  | zero =>
    cases cs with
    | nil =>
      cases h
      exact hd
    | cons c cs => cases h
  | succ fuel ih =>
    cases cs with
    | nil =>
      cases h
      exact hd
    | cons c cs =>
      obtain ⟨⟨next, rest⟩, hnext, h⟩ := Option.bind_eq_some_iff.mp h
      exact ih (allFit_line? hd hnext) h

/-- The whole numbers of a document have 64 bits. -/
theorem fits_read? {s : String} {doc : Toml} (h : read? s = some doc) : doc.Fits := by
  obtain ⟨d, hd, rfl⟩ := Option.map_eq_some_iff.mp h
  exact .table (allFit_lines? (by simp [AllFit]) hd)

end RecordLogic.Toml
