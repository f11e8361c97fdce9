import RecordLogic.Proofs.Command.Procedures
import RecordLogic.Proofs.Json.Canonical

namespace RecordLogic.Command

/-- What makes a run fail. -/
inductive Cause where
  | evaluation
  | script
  | document
  | file
  | settings
deriving DecidableEq

def CommandError.cause : CommandError → Cause
  | evaluation _ => .evaluation
  | script _ => .script
  | settings _ => .settings
  | file _ => .file
  | document _ => .document

variable {α β : Type} {cause : Cause} {w : Workspace} {st : Style}

/-- The computation ends with an error of this kind. -/
def FailsWith (x : Except CommandError α) (cause : Cause) : Prop :=
  ∃ e, x = .error e ∧ cause = e.cause

@[simp] theorem not_failsWith_ok (a : α) : ¬FailsWith (.ok a) cause := by
  rintro ⟨e, he, -⟩
  cases he

@[simp] theorem failsWith_error_iff (e : CommandError) :
    FailsWith (.error e : Except CommandError α) cause ↔ cause = e.cause := by
  simp [FailsWith]

/-- A computation in steps fails with the first step that does. -/
theorem failsWith_bind {x : Except CommandError α} {f : α → Except CommandError β} :
    FailsWith (x >>= f) cause ↔ FailsWith x cause ∨ ∃ a, x = .ok a ∧ FailsWith (f a) cause := by
  cases x with
  | ok a => simp [bind, Except.bind]
  | error e => simp [bind, Except.bind, FailsWith]

theorem failsWith_mapError {ε : Type} {x : Except ε α} {f : ε → CommandError} {kind : Cause}
    (hf : ∀ e, (f e).cause = kind) :
    FailsWith (x.mapError f) cause ↔ cause = kind ∧ ∃ e, x = .error e := by
  cases x <;> simp [hf]

theorem eq_ok_of_toOption_eq_some {ε : Type} {x : Except ε α} {a : α} (h : x.toOption = some a) :
    x = .ok a := by
  cases x with
  | ok b => exact congrArg Except.ok (Option.some.inj h)
  | error e => cases h

/-- The computation fails with errors of one kind only. -/
def FailsOnlyWith (x : Except CommandError α) (kind : Cause) : Prop :=
  ∀ e, x = .error e → e.cause = kind

namespace FailsOnlyWith

variable {kind : Cause}

theorem mapError {ε : Type} {x : Except ε α} {f : ε → CommandError} (hf : ∀ e, (f e).cause = kind) :
    FailsOnlyWith (x.mapError f) kind := by
  cases x with
  | ok a =>
    intro e he
    cases he
  | error e =>
    intro e' he
    cases he
    exact hf e

theorem settings (x : Except SettingsError α) :
    FailsOnlyWith (x.mapError CommandError.settings) .settings :=
  mapError fun _ => rfl

theorem of_succeeds {x : Procedure α} (h : x.Succeeds) : FailsOnlyWith x.result kind := by
  intro e he
  obtain ⟨a, ha⟩ := h {}
  rw [Procedure.result, ha] at he
  cases he

theorem bind {x : Except CommandError α} {f : α → Except CommandError β}
    (hx : FailsOnlyWith x kind) (hf : ∀ a, x = .ok a → FailsOnlyWith (f a) kind) :
    FailsOnlyWith (x >>= f) kind := by
  cases x with
  | ok a => exact hf a rfl
  | error e =>
    intro e' he
    cases he
    exact hx e rfl

theorem failsWith_iff {x : Except CommandError α} (h : FailsOnlyWith x kind) :
    FailsWith x cause ↔ cause = kind ∧ ¬∃ a, x = .ok a := by
  cases x with
  | ok a => simp
  | error e => simp [h e rfl]

end FailsOnlyWith

/-- What is left of the input, which can be read once, with the paths that were read before. -/
def Workspace.inputAfter (w : Workspace) (before : List String) : Place :=
  if "-" ∈ before then "" else w.input

/-- The text at a path, with the paths that were read before. -/
def Workspace.textAt (w : Workspace) (before : List String) (path : String) :
    Except String String :=
  (if path = "-" then w.inputAfter before else w.look path).read

/-- The text is a document that stands for this value. -/
def Means (decode : Json.Decoder α) (text : String) (a : α) : Prop :=
  ∃ j, Json.read maxNesting text = .ok j ∧ decode j = .ok a

/-- The value stands in the document at a path. -/
def StandsAt (w : Workspace) (decode : Json.Decoder α) (before : List String) (path : String)
    (a : α) : Prop :=
  ∃ text, w.textAt before path = .ok text ∧ Means decode text a

theorem readText_eq (w : Workspace) (before : List String) (path : String) :
    readText w (w.inputAfter before) path =
      match w.textAt before path with
      | .ok text => .ok (text, w.inputAfter (before ++ [path]))
      | .error reason => .error (.file reason) := by
  have hleft : (if path = "-" then "" else w.inputAfter before : Place) =
      w.inputAfter (before ++ [path]) := by
    by_cases hpath : path = "-"
    · simp [Workspace.inputAfter, hpath]
    · simp [Workspace.inputAfter, hpath, Ne.symm hpath]
  rw [readText, hleft]
  rfl

theorem means_iff {decode : Json.Decoder α} {text : String} {j : Json}
    (h : Json.read maxNesting text = .ok j) {a : α} : Means decode text a ↔ decode j = .ok a := by
  simp [Means, h]

theorem not_means {decode : Json.Decoder α} {text : String} {e : Json.SyntaxError}
    (h : Json.read maxNesting text = .error e) (a : α) : ¬Means decode text a := by
  simp [Means, h]

/-- What the text stands for, if it is a document. -/
def meaning? (decode : Json.Decoder α) (text : String) : Option α :=
  (Json.read maxNesting text).toOption.bind fun j => (decode j).toOption

theorem meaning?_eq_some_iff {decode : Json.Decoder α} {text : String} {a : α} :
    meaning? decode text = some a ↔ Means decode text a := by
  rw [meaning?]
  cases hread : Json.read maxNesting text with
  | error e => simp [not_means hread, Except.toOption]
  | ok j => cases hdecode : decode j <;> simp [means_iff hread, hdecode, Except.toOption]

instance {decode : Json.Decoder α} {text : String} : Decidable (∃ a, Means decode text a) :=
  decidable_of_iff ((meaning? decode text).isSome = true) <| by
    simp only [Option.isSome_iff_exists, meaning?_eq_some_iff]

variable {decode : Json.Decoder α} {before : List String} {path : String}

/-- How the reading of a document ends: there is no text, the text stands for nothing, or it stands
for one value, which is read. -/
inductive ReadsAs (w : Workspace) (decode : Json.Decoder α) (before : List String)
    (path : String) : Except CommandError (α × Place) → Prop where
  | missing {reason : String} (h : w.textAt before path = .error reason) :
      ReadsAs w decode before path (.error (.file reason))
  | unclear {text : String} (h : w.textAt before path = .ok text)
      (hnot : ∀ a, ¬Means decode text a) (e : DocumentError) :
      ReadsAs w decode before path (.error (.document e))
  | read {text : String} {a : α} (h : w.textAt before path = .ok text)
      (hmeans : ∀ b, Means decode text b ↔ a = b) :
      ReadsAs w decode before path (.ok (a, w.inputAfter (before ++ [path])))

theorem readsAs_readDocument (w : Workspace) (decode : Json.Decoder α) (before : List String)
    (path : String) :
    ReadsAs w decode before path (readDocument w decode (w.inputAfter before) path) := by
  rw [readDocument, readText_eq]
  cases htext : w.textAt before path with
  | error reason => exact .missing htext
  | ok text =>
    cases hread : Json.read maxNesting text with
    | error e =>
      simp only [bind, Except.bind, hread]
      exact .unclear htext (not_means hread) _
    | ok j =>
      simp only [bind, Except.bind, hread]
      cases hdecode : decode j with
      | error e => exact .unclear htext (by simp [means_iff hread, hdecode]) _
      | ok a => exact .read htext (by simp [means_iff hread, hdecode])

theorem readDocument_eq_ok_iff {a : α} {input : Place} :
    readDocument w decode (w.inputAfter before) path = .ok (a, input) ↔
      StandsAt w decode before path a ∧ input = w.inputAfter (before ++ [path]) := by
  rw [StandsAt]
  have hreads := readsAs_readDocument w decode before path
  generalize readDocument w decode (w.inputAfter before) path = r at hreads ⊢
  cases hreads with
  | missing h => simp [h]
  | unclear h hnot => simp [h, hnot]
  | read h hmeans => simp [h, hmeans, eq_comm]

theorem failsWith_readDocument :
    FailsWith (readDocument w decode (w.inputAfter before) path) cause ↔
      (cause = .file ∧ ∃ reason, w.textAt before path = .error reason) ∨
      (cause = .document ∧
        ∃ text, w.textAt before path = .ok text ∧ ∀ a, ¬Means decode text a) := by
  have hreads := readsAs_readDocument w decode before path
  generalize readDocument w decode (w.inputAfter before) path = r at hreads ⊢
  cases hreads with
  | missing h => simp [h, CommandError.cause]
  | unclear h hnot => simp [h, hnot, CommandError.cause]
  | read h hmeans => simp [h, hmeans]

/-- A document that a command reads, and which texts it takes for one. -/
structure Source where
  path : String
  IsUnderstood : String → Prop

def Source.of (decode : Json.Decoder α) (path : String) : Source :=
  ⟨path, fun text => ∃ a, Means decode text a⟩

/-- The first of the documents that cannot be read or understood, with the paths before it. -/
inductive Faulty (w : Workspace) : List String → List Source → Cause → Prop where
  | unreadable {before : List String} {s : Source} {rest : List Source} {reason : String}
      (h : w.textAt before s.path = .error reason) : Faulty w before (s :: rest) .file
  | unclear {before : List String} {s : Source} {rest : List Source} {text : String}
      (h : w.textAt before s.path = .ok text) (hnot : ¬s.IsUnderstood text) :
      Faulty w before (s :: rest) .document
  | later {before : List String} {s : Source} {rest : List Source} {text : String} {cause : Cause}
      (h : w.textAt before s.path = .ok text) (hs : s.IsUnderstood text)
      (hrest : Faulty w (before ++ [s.path]) rest cause) : Faulty w before (s :: rest) cause

theorem not_faulty_nil : ¬Faulty w before [] cause := by
  intro h
  cases h

theorem faulty_cons_iff {rest : List Source} :
    Faulty w before (.of decode path :: rest) cause ↔
      FailsWith (readDocument w decode (w.inputAfter before) path) cause ∨
      (∃ a, StandsAt w decode before path a) ∧ Faulty w (before ++ [path]) rest cause := by
  rw [failsWith_readDocument]
  constructor
  · intro h
    cases h with
    | unreadable h => exact Or.inl (Or.inl ⟨rfl, _, h⟩)
    | unclear h hnot => exact Or.inl (Or.inr ⟨rfl, _, h, not_exists.mp hnot⟩)
    | later h hs hrest =>
      obtain ⟨a, ha⟩ := hs
      exact Or.inr ⟨⟨a, _, h, ha⟩, hrest⟩
  · rintro ((⟨rfl, reason, h⟩ | ⟨rfl, text, h, hnot⟩) | ⟨⟨a, text, h, ha⟩, hrest⟩)
    · exact .unreadable h
    · exact .unclear h (not_exists.mpr hnot)
    · exact .later h ⟨a, ha⟩ hrest

/-- A command that first reads a document fails because of this document or one after it, or for a
reason of its own. -/
theorem failsWith_readDocument_bind {f : α × Place → Except CommandError β} {rest : List Source}
    {Reason : α → Prop}
    (hf : ∀ a, FailsWith (f (a, w.inputAfter (before ++ [path]))) cause ↔
      Faulty w (before ++ [path]) rest cause ∨ Reason a) :
    FailsWith (readDocument w decode (w.inputAfter before) path >>= f) cause ↔
      Faulty w before (.of decode path :: rest) cause ∨
      ∃ a, StandsAt w decode before path a ∧ Reason a := by
  rw [failsWith_bind, faulty_cons_iff]
  simp only [Prod.exists, readDocument_eq_ok_iff, and_assoc, exists_and_left, exists_eq_left, hf]
  simp only [and_or_left, exists_or, exists_and_right, or_assoc]

/-- The value stands in the document at a path, if there is a path. -/
def StandsAtOptional (w : Workspace) (decode : Json.Decoder α) (before : List String)
    (default : α) : Option String → α → Prop
  | none, a => a = default
  | some path, a => StandsAt w decode before path a

theorem readOptional_of_standsAt {default a : α} {path? : Option String}
    (h : StandsAtOptional w decode before default path? a) :
    readOptional w decode (w.inputAfter before) default path? =
      .ok (a, w.inputAfter (before ++ path?.toList)) := by
  cases path? with
  | none => simpa [readOptional, StandsAtOptional] using h.symm
  | some path => exact readDocument_eq_ok_iff.mpr ⟨h, rfl⟩

/-- The same where there may be no such document. -/
theorem failsWith_readOptional_bind {default : α} {path? : Option String}
    {f : α × Place → Except CommandError β} {rest : List Source} {Reason : α → Prop}
    (hf : ∀ a, FailsWith (f (a, w.inputAfter (before ++ path?.toList))) cause ↔
      Faulty w (before ++ path?.toList) rest cause ∨ Reason a) :
    FailsWith (readOptional w decode (w.inputAfter before) default path? >>= f) cause ↔
      Faulty w before (path?.toList.map (.of decode) ++ rest) cause ∨
      ∃ a, StandsAtOptional w decode before default path? a ∧ Reason a := by
  cases path? with
  | none => simpa [readOptional, StandsAtOptional, bind, Except.bind] using hf default
  | some path => exact failsWith_readDocument_bind hf

theorem failsWith_settings_bind {f : Settings → Except CommandError α} :
    FailsWith ((loadSettings w).mapError .settings >>= f) cause ↔
      (cause = .settings ∧ ∃ e, loadSettings w = .error e) ∨
      ∃ s, loadSettings w = .ok s ∧ FailsWith (f s) cause := by
  rw [failsWith_bind, failsWith_mapError (f := CommandError.settings) fun _ => rfl]
  simp only [mapError_eq_ok_iff]

theorem Procedure.OnlyPrints.not_failsWith {x : Procedure α} (h : OnlyPrints x) :
    ¬FailsWith x.result cause := by
  obtain ⟨a, ha⟩ := h.succeeds {}
  rw [Procedure.result, ha]
  exact not_failsWith_ok a

end RecordLogic.Command
