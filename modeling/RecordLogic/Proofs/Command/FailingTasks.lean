import RecordLogic.Proofs.Command.Changes
import RecordLogic.Proofs.Command.Documents

namespace RecordLogic.Command

open Settings (Choice)

variable {cause : Cause} {w : Workspace} {st : Style} {path : String}

/-- The documents of an evaluation, in the order in which they are read. -/
def EvalRequest.sources (r : EvalRequest) : List Source :=
  .of Formula.Expr.decode r.expr ::
    (r.values.toList.map (Source.of Json.Decode.document) ++
      (r.user.toList.map (Source.of Value.decode) ++ []))

/-- How the evaluation ends, once all is read. -/
def EvalRequest.outcome (r : EvalRequest) (w : Workspace) (s : Settings) (expr : Formula.Expr)
    (form : Json) (user : Value) : Except Formula.EvalError Value :=
  let ev : Formula.Evaluator :=
    ⟨w.zone, Formula.Registry.builtin w.zone,
      ⟨r.maxDepth.getD s.options.maxDepth, r.mode.getD s.options.logicalMode⟩⟩
  (ev.eval ⟨Formula.Context.formOf form, Formula.SystemValues.capture w.zone w.now user⟩
    expr).outcome

/-- All that a request names is there and understood, and the evaluation ends in this way. -/
def Evaluates (w : Workspace) (r : EvalRequest) (outcome : Except Formula.EvalError Value) : Prop :=
  ∃ s expr form user, loadSettings w = .ok s ∧
    StandsAt w Formula.Expr.decode [] r.expr expr ∧
    StandsAtOptional w Json.Decode.document [r.expr] (.object []) r.values form ∧
    StandsAtOptional w Value.decode (r.expr :: r.values.toList) .undefined r.user user ∧
    r.outcome w s expr form user = outcome

theorem inputAfter_nil (w : Workspace) : w.input = w.inputAfter [] := by
  simp [Workspace.inputAfter]

theorem failsWith_outcome_bind {outcome : Except Formula.EvalError Value} {before : List String} :
    FailsWith (outcome.mapError CommandError.evaluation >>= fun v => (showValue st v).result)
      cause ↔ Faulty w before [] cause ∨ cause = .evaluation ∧ ∃ e, outcome = .error e := by
  rw [failsWith_bind, failsWith_mapError (f := CommandError.evaluation) fun _ => rfl]
  simp [not_faulty_nil, (onlyPrints_showValue st _).not_failsWith]

theorem failsWith_runEval (w : Workspace) (st : Style) (r : EvalRequest) :
    FailsWith (runEval w st r).result cause ↔
      (cause = .settings ∧ ∃ e, loadSettings w = .error e) ∨
      (∃ s, loadSettings w = .ok s ∧ Faulty w [] r.sources cause) ∨
      (cause = .evaluation ∧ ∃ e, Evaluates w r (.error e)) := by
  rw [runEval, inputAfter_nil]
  simp only [Procedure.result_attempt_bind]
  rw [failsWith_settings_bind]
  refine or_congr_right ((exists_congr fun s => and_congr_right fun _ =>
    failsWith_readDocument_bind fun expr => failsWith_readOptional_bind fun form =>
    failsWith_readOptional_bind fun user => failsWith_outcome_bind).trans ?_)
  constructor
  · rintro ⟨s, hs, hfault | ⟨expr, hexpr, form, hform, user, huser, rfl, e, he⟩⟩
    · exact Or.inl ⟨s, hs, by simpa [EvalRequest.sources] using hfault⟩
    · exact Or.inr ⟨rfl, e, s, expr, form, user, hs, hexpr, hform, huser, he⟩
  · rintro (⟨s, hs, hfault⟩ | ⟨rfl, e, s, expr, form, user, hs, hexpr, hform, huser, he⟩)
    · exact ⟨s, hs, Or.inl (by simpa [EvalRequest.sources] using hfault)⟩
    · exact ⟨s, hs, Or.inr ⟨expr, hexpr, form, hform, user, huser, rfl, e, he⟩⟩

/-- What keeps a script that was read from giving a filter: a ref that names nothing, or an issue
where the request asks for none. -/
def Refused (s : Settings) (r : FilterRequest) (script : Filter.Script) : Prop :=
  (∃ e, script.replay s.root = .error e) ∨
  ∃ replay, script.replay s.root = .ok replay ∧ r.validate = true ∧ replay.tree.issues ≠ []

theorem failsWith_accept {r : FilterRequest} {issues : List Filter.Issue} :
    FailsWith (r.accept issues) cause ↔ cause = .script ∧ r.validate = true ∧ issues ≠ [] := by
  rw [FilterRequest.accept]
  by_cases hthrow : r.validate = true ∧ issues ≠ []
  · simp [hthrow, CommandError.cause]
  · have hpass : (r.validate && !issues.isEmpty) = false := by simpa using hthrow
    simp [hpass, hthrow]

theorem failsWith_runFilter (w : Workspace) (st : Style) (r : FilterRequest) :
    FailsWith (runFilter w st r).result cause ↔
      (cause = .settings ∧ ∃ e, loadSettings w = .error e) ∨
      ∃ s, loadSettings w = .ok s ∧
        (Faulty w [] [.of Filter.Script.decode r.script] cause ∨
          ∃ script, StandsAt w Filter.Script.decode [] r.script script ∧
            cause = .script ∧ Refused s r script) := by
  rw [runFilter, inputAfter_nil]
  simp only [Procedure.result_attempt_bind]
  rw [failsWith_settings_bind]
  refine or_congr_right (exists_congr fun s => and_congr_right fun _ =>
    failsWith_readDocument_bind fun script => ?_)
  rw [failsWith_bind, failsWith_mapError (f := CommandError.script ∘ .unknownRef) fun _ => rfl]
  have hshow (replay : Filter.Replay) : ¬FailsWith (showReplay st r replay).result cause :=
    (onlyPrints_showReplay st r replay).not_failsWith
  simp only [mapError_eq_ok_iff, failsWith_bind, failsWith_accept, hshow, and_false, exists_false,
    or_false, not_faulty_nil, false_or, Refused, and_or_left]
  simp only [and_left_comm, exists_and_left]

theorem settingsPath?_eq (h : placeOfSettings w = .ok path) : w.settingsPath? = some path := by
  rw [placeOfSettings] at h
  cases hpath : w.settingsPath? with
  | none => simp [hpath] at h
  | some other => simpa [hpath] using h

theorem exists_place_of_loadSettings {s : Settings} (h : loadSettings w = .ok s) :
    ∃ path, w.settingsPath? = some path := by
  obtain ⟨path, hpath, -⟩ := Json.bind_eq_ok.mp h
  exact ⟨path, settingsPath?_eq hpath⟩

theorem storable_of_textOfSettings {s : Settings} {text : String}
    (h : textOfSettings s = .ok text) : s.Storable := by
  rw [textOfSettings] at h
  split at h
  · exact Settings.storable_of_render? ‹_›
  · cases h

theorem failsWith_runShow : FailsWith (runShow w st).result cause ↔
    cause = .settings ∧ ∃ e, loadSettings w = .error e := by
  simp only [runShow, Procedure.result_attempt_bind]
  rw [failsWith_settings_bind, or_iff_left]
  rintro ⟨s, hs, hfails⟩
  obtain ⟨path, hpath⟩ := exists_place_of_loadSettings hs
  rw [placeOfSettings_eq hpath] at hfails
  exact (onlyPrints_showSettings w st s path).not_failsWith hfails

theorem failsWith_runPath : FailsWith (runPath w st).result cause ↔
    cause = .settings ∧ w.settingsPath? = none := by
  rw [runPath, placeOfSettings]
  cases hpath : w.settingsPath? with
  | none => simp [Procedure.result, CommandError.cause]
  | some path => simpa using (onlyPrints_showPath w st path).not_failsWith

/-- A change goes well where the settings are and can be written, and the choice is one. -/
theorem runChange_eq_ok_iff {key value : String} :
    (∃ u, (runChange w st key value).result = .ok u) ↔
      ∃ path s, Holds w path s ∧ (Choice.of? key value).isSome = true := by
  constructor
  · rintro ⟨u, h⟩
    simp only [runChange, saveSettings, bind_assoc, Procedure.result_attempt_bind] at h
    obtain ⟨s, hs, h⟩ := Json.bind_eq_ok.mp h
    obtain ⟨t, ht, h⟩ := Json.bind_eq_ok.mp h
    obtain ⟨path, hpath, h⟩ := Json.bind_eq_ok.mp h
    obtain ⟨_, hdirectory, h⟩ := Json.bind_eq_ok.mp h
    obtain ⟨text, htext, h⟩ := Json.bind_eq_ok.mp h
    obtain ⟨_, hfile, -⟩ := Json.bind_eq_ok.mp h
    rw [mapError_eq_ok_iff] at hs ht hpath hdirectory htext hfile
    obtain ⟨choice, hchoice, -⟩ := (Settings.change_storable_iff (storable_of_loadSettings hs)).mp
      ⟨ht, storable_of_textOfSettings htext⟩
    exact ⟨path, s, ⟨settingsPath?_eq hpath, hs, hdirectory, hfile⟩, by simp [hchoice]⟩
  · rintro ⟨path, s, hholds, hchoice⟩
    obtain ⟨choice, hchoice⟩ := Option.isSome_iff_exists.mp hchoice
    obtain ⟨text, -, hrun⟩ := runChange_of_choice hholds st hchoice
    rw [hrun]
    exact (Procedure.Succeeds.write path text).bind
      (fun _ => (onlyPrints_showChange st key value path).succeeds) {}

/-- Nothing can fail after the writing: the place was found before. -/
theorem failsOnlyWith_runChange (key value : String) :
    FailsOnlyWith (runChange w st key value).result .settings := by
  simp only [runChange, saveSettings, bind_assoc, Procedure.result_attempt_bind]
  refine (FailsOnlyWith.settings _).bind fun _ _ => FailsOnlyWith.bind
    (.mapError (f := CommandError.settings ∘ .change) fun _ => rfl) fun _ _ => ?_
  refine (FailsOnlyWith.settings _).bind fun path hpath => (FailsOnlyWith.settings _).bind
    fun _ _ => (FailsOnlyWith.settings _).bind fun text _ => (FailsOnlyWith.settings _).bind
    fun _ _ => ?_
  rw [hpath, Procedure.attempt_ok_bind]
  refine FailsOnlyWith.of_succeeds ((Procedure.Succeeds.write path text).bind fun _ => ?_)
  exact (onlyPrints_showChange st key value path).succeeds

/-- A change fails with the first of its conditions that does not hold. -/
theorem failsWith_runChange {key value : String} :
    FailsWith (runChange w st key value).result cause ↔
      cause = .settings ∧ ((∃ e, loadSettings w = .error e) ∨
      ∃ s, loadSettings w = .ok s ∧ (Choice.of? key value = none ∨
        ∃ path e, w.settingsPath? = some path ∧
          (checkPlace w path = .error e ∨ checkFile path = .error e))) := by
  rw [(failsOnlyWith_runChange key value).failsWith_iff, runChange_eq_ok_iff]
  refine and_congr_right fun _ => ?_
  constructor
  · intro hnot
    cases hs : loadSettings w with
    | error e => exact Or.inl ⟨e, rfl⟩
    | ok s =>
      refine Or.inr ⟨s, rfl, ?_⟩
      obtain ⟨path, hpath⟩ := exists_place_of_loadSettings hs
      cases hchoice : Choice.of? key value with
      | none => exact Or.inl rfl
      | some choice =>
        cases hdirectory : checkPlace w path with
        | error e => exact Or.inr ⟨path, e, hpath, Or.inl hdirectory⟩
        | ok _ =>
          cases hfile : checkFile path with
          | error e => exact Or.inr ⟨path, e, hpath, Or.inr hfile⟩
          | ok _ => exact absurd ⟨path, s, ⟨hpath, hs, hdirectory, hfile⟩, by simp [hchoice]⟩ hnot
  · rintro h ⟨path, s, hholds, hchoice⟩
    obtain ⟨e, he⟩ | ⟨_, -, hnone | ⟨other, e, hother, hplace⟩⟩ := h
    · rw [hholds.loads] at he
      cases he
    · simp [hnone] at hchoice
    · obtain rfl := Option.some.inj (hholds.place.symm.trans hother)
      rw [hholds.directory, hholds.file] at hplace
      obtain hplace | hplace := hplace <;> cases hplace

end RecordLogic.Command
