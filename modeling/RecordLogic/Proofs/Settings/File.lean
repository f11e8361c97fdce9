import RecordLogic.Proofs.Json.Canonical
import RecordLogic.Proofs.Toml.Integers
import RecordLogic.Proofs.Toml.Lines
import RecordLogic.Settings.File

namespace RecordLogic.Settings

open Formula (LogicalMode)
open RecordLogic.Filter (GroupOperator)
open Toml (Draft IsBare Written entryLine headerLine)

variable {s : Settings}

/-- Files hold the settings: the numbers among them fit. -/
def Storable (s : Settings) : Prop := ∀ n ∈ s.maxDepth, n ≤ maxInteger

theorem isSome_render?_iff : s.render?.isSome = true ↔ s.Storable := by
  rw [render?, Storable]
  cases s.maxDepth with
  | none => simp
  | some n => simp

/-- The entry of a setting that has been chosen. -/
def entry (key : String) (v : Option Toml) : List (String × Toml) :=
  (v.map (key, ·)).toList

/-- The sections of a settings file. -/
def evaluatorEntries (s : Settings) : List (String × Toml) :=
  entry "max_depth" (s.maxDepth.map fun n : Nat => .integer n) ++
    entry "logical_mode" (s.logicalMode.map (.text ·.name))

def filterEntries (s : Settings) : List (String × Toml) :=
  entry "root_operator" (s.rootOperator.map (.text ·.name))

def outputEntries (s : Settings) : List (String × Toml) :=
  entry "color" (s.color.map .bool)

def sections (s : Settings) : List (String × Toml) :=
  [("version", .integer version), ("evaluator", .table .header s.evaluatorEntries),
    ("filter", .table .header s.filterEntries), ("output", .table .header s.outputEntries)]

theorem lookup_entry_of_ne {key other : String} (h : other ≠ key) {v : Option Toml} :
    (entry key v).lookup other = none := by
  cases v with
  | none => rfl
  | some v => simp [entry, List.lookup_cons, beq_eq_false_iff_ne.mpr h]

section

variable {before entries : List (String × Toml)} {name key : String} {d' : Draft}
  {rest : List Char} {α : Type} {o : Option α} {write : α → String} {value : α → Toml}

/-- The line of a setting gives its section an entry if the setting has been chosen. -/
theorem leads_line (hbare : IsBare key) (hwritten : ∀ a ∈ o, Written (write a).toList (value a))
    (hname : before.lookup name = none) (hkey : entries.lookup key = none)
    (hrest : (Draft.inSection before name (entries ++ entry key (o.map value))).Leads rest d') :
    (Draft.inSection before name entries).Leads ((line key (o.map write)).toList ++ rest) d' := by
  cases o with
  | none => simpa [line, entry] using hrest
  | some a =>
    have htext : (line key ((some a).map write)).toList ++ rest =
        entryLine key (write a).toList rest := by
      simp [line, entryLine]
    rw [htext]
    exact Draft.leads_entry hbare (hwritten a rfl) hname hkey hrest

end

theorem written_quote {t : String} (h : t.toList.all Toml.isOrdinary = true) :
    Written (quote t).toList (.text t) := by
  have htext : (quote t).toList = '"' :: (t.toList ++ ['"']) := by simp [quote]
  rw [htext]
  exact Toml.written_text h

theorem toList_render? {text : String} (h : s.render? = some text) :
    text.toList = entryLine "version" (toString version).toList
      ('\n' :: headerLine "evaluator"
        ((line "max_depth" (s.maxDepth.map toString)).toList ++
          ((line "logical_mode" (s.logicalMode.map (quote ·.name))).toList ++
        '\n' :: headerLine "filter"
          ((line "root_operator" (s.rootOperator.map (quote ·.name))).toList ++
        '\n' :: headerLine "output" (line "color" (s.color.map toString)).toList)))) := by
  rw [render?] at h
  split at h
  · cases h
    simp [line, entryLine, headerLine]
  · cases h

theorem isSigned64_iff {n : Nat} : Toml.isSigned64 n = true ↔ n ≤ maxInteger := by
  rw [Toml.isSigned64, Bool.and_eq_true, decide_eq_true_eq, decide_eq_true_eq, maxInteger]
  omega

theorem storable_of_render? {text : String} (h : s.render? = some text) : s.Storable :=
  isSome_render?_iff.mp (by simp [h])

/-- The text of a settings file is read as a document of its sections. -/
theorem read?_of_render? {text : String} (h : s.render? = some text) :
    Toml.read? text = some (.table .header s.sections) := by
  have hdepth : ∀ n ∈ s.maxDepth, Written (toString n).toList (.integer n) := fun n hn =>
    Toml.written_integer (isSigned64_iff.mpr (storable_of_render? h n hn))
  have hmode : ∀ mode ∈ s.logicalMode, Written (quote mode.name).toList (.text mode.name) :=
    fun mode _ => written_quote (by cases mode <;> decide)
  have hroot : ∀ op ∈ s.rootOperator, Written (quote op.name).toList (.text op.name) :=
    fun op _ => written_quote (by cases op <;> decide)
  have hcolor : ∀ b ∈ s.color, Written (toString b).toList (.bool b) := fun b _ =>
    Toml.written_bool b
  have hleads : ({} : Draft).Leads text.toList
      (Draft.inSection
        [("version", .integer version), ("evaluator", .table .header s.evaluatorEntries),
          ("filter", .table .header s.filterEntries)] "output" s.outputEntries) := by
    rw [toList_render? h, ← List.append_nil (line "color" _).toList]
    refine Draft.leads_top (by decide) (Toml.written_integer (by decide)) rfl ?_
    refine Draft.leads_section (by decide) rfl ?_
    refine leads_line (by decide) hdepth rfl rfl ?_
    refine leads_line (by decide) hmode rfl (lookup_entry_of_ne (by decide)) ?_
    refine Draft.leads_section (by decide) rfl ?_
    refine leads_line (by decide) hroot rfl rfl ?_
    refine Draft.leads_section (by decide) rfl ?_
    refine leads_line (by decide) hcolor rfl rfl ?_
    simp only [List.nil_append, List.cons_append]
    exact Draft.leads_nil _
  have hmark : ∀ cs, text.toList ≠ '\ufeff' :: cs := by
    rw [toList_render? h, entryLine]
    intro cs heq
    have hfirst := congrArg List.head? heq
    revert hfirst
    simp
  rw [Toml.read?]
  split
  · exact absurd ‹_› (hmark _)
  · rw [hleads _ (Nat.le_refl _)]
    rfl

section

variable {α : Type} {entries : List (String × Toml)} {key other : String} {o : Option α}
  {value : α → Toml} {read : Toml → Option α}

theorem field_entry_append (hread : ∀ a ∈ o, read (value a) = some a)
    (hentries : entries.lookup key = none) :
    field (entry key (o.map value) ++ entries) key read = .ok o := by
  cases o with
  | none => simp [field, entry, hentries]
  | some a => simp [field, entry, hread a rfl]

theorem field_entry (hread : ∀ a ∈ o, read (value a) = some a) :
    field (entry key (o.map value)) key read = .ok o := by
  have happend := field_entry_append hread (List.lookup_nil : [].lookup key = none)
  rwa [List.append_nil] at happend

theorem field_of_ne {v : Option Toml} (h : key ≠ other) :
    field (entry other v ++ entries) key read = field entries key read := by
  rw [field, field, List.lookup_append, lookup_entry_of_ne h, Option.none_or]

end

theorem natural?_integer {n most : Nat} (h : n ≤ most) : natural? most (.integer n) = some n := by
  simp [natural?, h]

theorem ofToml_sections (h : s.Storable) : ofToml (.table .header s.sections) = .ok s := by
  have hdepth : field s.evaluatorEntries "max_depth" (natural? Number.maxWord) =
      .ok s.maxDepth :=
    field_entry_append (fun n hn => natural?_integer (Nat.le_trans (h n hn) (by decide)))
      (lookup_entry_of_ne (by decide))
  have hmode : field s.evaluatorEntries "logical_mode" (name? LogicalMode.ofName?) =
      .ok s.logicalMode := by
    rw [evaluatorEntries, field_of_ne (by decide)]
    exact field_entry fun mode _ => LogicalMode.ofName?_name mode
  have hroot : field s.filterEntries "root_operator" (name? GroupOperator.ofName?) =
      .ok s.rootOperator :=
    field_entry fun op _ => GroupOperator.ofName?_name op
  have hcolor : field s.outputEntries "color" switchOf? = .ok s.color := field_entry fun _ _ => rfl
  have hversion : field s.sections "version" (natural? 4_294_967_295) = .ok (some version) := rfl
  have hevaluator : group s.sections "evaluator" ["max_depth", "logical_mode"] =
      .ok s.evaluatorEntries := rfl
  have hfilter : group s.sections "filter" ["root_operator"] = .ok s.filterEntries := rfl
  have houtput : group s.sections "output" ["color"] = .ok s.outputEntries := rfl
  simp only [ofToml, fieldsOf, Option.getD_some, hversion, hevaluator, hfilter, houtput, hdepth,
    hmode, hroot, hcolor, bind, Except.bind, pure, Except.pure]

/-- A settings file holds the settings that it was written for. -/
theorem read_of_render? {text : String} (h : s.render? = some text) : read text = .ok s := by
  rw [read, read?_of_render? h]
  exact ofToml_sections (storable_of_render? h)

theorem exists_of_field {α : Type} {entries : List (String × Toml)} {key : String}
    {read : Toml → Option α} {a : α} (h : field entries key read = .ok (some a)) :
    ∃ v, entries.lookup key = some v ∧ read v = some a := by
  rw [field] at h
  split at h
  · cases h
  · rename_i v hlookup
    split at h
    · rename_i hread
      cases h
      exact ⟨v, hlookup, hread⟩
    · cases h

theorem allFit_fieldsOf {names : List String} {v : Toml} (hv : v.Fits)
    {entries : List (String × Toml)} (h : fieldsOf names v = some entries) :
    Toml.AllFit entries := by
  have hzip {items : List Toml} (hitems : ∀ v ∈ items, v.Fits) :
      Toml.AllFit (names.zip items) := fun e he => hitems e.2 (List.of_mem_zip he).2
  cases hv with
  | table hentries =>
    cases h
    exact hentries
  | array hitems =>
    rw [fieldsOf] at h
    split at h
    · cases h
      exact hzip hitems
    · cases h
  | tables hitems =>
    rw [fieldsOf] at h
    split at h
    · cases h
      exact hzip hitems
    · cases h
  | date =>
    cases h
    simp [Toml.AllFit]
  | text | integer | float | bool => cases h

theorem allFit_group {top entries : List (String × Toml)} {key : String} {names : List String}
    (htop : Toml.AllFit top) (h : group top key names = .ok entries) : Toml.AllFit entries := by
  obtain ⟨o, ho, h⟩ := Json.bind_eq_ok.mp h
  cases h
  cases o with
  | none => simp [Toml.AllFit]
  | some es =>
    obtain ⟨v, hv, hes⟩ := exists_of_field ho
    exact allFit_fieldsOf (Toml.fits_of_lookup htop hv) hes

theorem le_of_fits {v : Toml} (hv : v.Fits) {most n : Nat} (h : natural? most v = some n) :
    n ≤ maxInteger := by
  cases hv with
  | integer hfits =>
    rw [natural?] at h
    split at h
    · rename_i m hrange
      cases h
      rw [← Int.toNat_of_nonneg hrange.1, isSigned64_iff] at hfits
      exact hfits
    · cases h
  | _ => cases h

/-- Settings that have been read can be written again. -/
theorem storable_of_read {text : String} (h : read text = .ok s) : s.Storable := by
  rw [read] at h
  split at h
  · rename_i doc hdoc
    have htop : Toml.AllFit ((fieldsOf [] doc).getD []) := by
      cases hes : fieldsOf [] doc with
      | none => simp [Toml.AllFit]
      | some es => exact allFit_fieldsOf (Toml.fits_read? hdoc) hes
    obtain ⟨_, -, h⟩ := Json.bind_eq_ok.mp h
    obtain ⟨evaluator, hevaluator, h⟩ := Json.bind_eq_ok.mp h
    obtain ⟨maxDepth, hdepth, h⟩ := Json.bind_eq_ok.mp h
    obtain ⟨logicalMode, -, h⟩ := Json.bind_eq_ok.mp h
    obtain ⟨_, -, h⟩ := Json.bind_eq_ok.mp h
    obtain ⟨rootOperator, -, h⟩ := Json.bind_eq_ok.mp h
    obtain ⟨_, -, h⟩ := Json.bind_eq_ok.mp h
    obtain ⟨color, -, h⟩ := Json.bind_eq_ok.mp h
    cases h
    rintro n rfl
    obtain ⟨v, hv, hn⟩ := exists_of_field hdepth
    exact le_of_fits (Toml.fits_of_lookup (allFit_group htop hevaluator) hv) hn
  · cases h

end RecordLogic.Settings
