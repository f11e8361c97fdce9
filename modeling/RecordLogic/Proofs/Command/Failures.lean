import RecordLogic.Proofs.Command.FailingTasks

namespace RecordLogic.Command

open Settings (Choice)

variable {cause : Cause} {w : Workspace} {st : Style} {path : String}

namespace Task

/-- The documents that a command reads, in this order. -/
def sources : Task → List Source
  | .eval r => r.sources
  | .filter r => [.of Filter.Script.decode r.script]
  | _ => []

def NeedsSettings : Task → Prop
  | .eval _ | .filter _ | .showSettings | .changeSetting _ _ => True
  | .nothing | .functions | .settingsPath => False

end Task

/-- The ways in which a command fails. -/
inductive Fails (w : Workspace) : Task → Cause → Prop where
  | settings {task : Task} {e : SettingsError} (hneeds : task.NeedsSettings)
      (h : loadSettings w = .error e) : Fails w task .settings
  | document {task : Task} {s : Settings} {cause : Cause} (hs : loadSettings w = .ok s)
      (h : Faulty w [] task.sources cause) : Fails w task cause
  | evaluation {r : EvalRequest} {e : Formula.EvalError} (h : Evaluates w r (.error e)) :
      Fails w (.eval r) .evaluation
  | script {r : FilterRequest} {s : Settings} {script : Filter.Script}
      (hs : loadSettings w = .ok s) (hscript : StandsAt w Filter.Script.decode [] r.script script)
      (h : Refused s r script) : Fails w (.filter r) .script
  | choice {key value : String} {s : Settings} (hs : loadSettings w = .ok s)
      (h : Choice.of? key value = none) : Fails w (.changeSetting key value) .settings
  | unwritable {key value path : String} {s : Settings} {e : SettingsError}
      (hs : loadSettings w = .ok s) (hpath : w.settingsPath? = some path)
      (h : checkPlace w path = .error e ∨ checkFile path = .error e) :
      Fails w (.changeSetting key value) .settings
  | noPlace (h : w.settingsPath? = none) : Fails w .settingsPath .settings

/-- A command without documents and settings does not fail. -/
theorem not_fails {task : Task} (hneeds : ¬task.NeedsSettings) (hsources : task.sources = [])
    (hpath : task ≠ .settingsPath) : ¬Fails w task cause := by
  intro h
  cases h with
  | settings hneeds' _ => exact hneeds hneeds'
  | document _ hfault =>
    rw [hsources] at hfault
    exact not_faulty_nil hfault
  | evaluation | script | choice | unwritable => exact hneeds trivial
  | noPlace => exact hpath rfl

/-- A command fails in one of these ways, and only then. -/
theorem failsWith_runTask (w : Workspace) (st : Style) (task : Task) :
    FailsWith (runTask w st task).result cause ↔ Fails w task cause := by
  cases task with
  | nothing => exact iff_of_false (onlyPrints_greet st).not_failsWith (not_fails id rfl (by simp))
  | eval r =>
    rw [runTask, failsWith_runEval]
    constructor
    · rintro (⟨rfl, e, he⟩ | ⟨s, hs, hfault⟩ | ⟨rfl, e, he⟩)
      · exact .settings trivial he
      · exact .document hs hfault
      · exact .evaluation he
    · intro h
      cases h with
      | settings _ he => exact Or.inl ⟨rfl, _, he⟩
      | document hs hfault => exact Or.inr (Or.inl ⟨_, hs, hfault⟩)
      | evaluation he => exact Or.inr (Or.inr ⟨rfl, _, he⟩)
  | filter r =>
    rw [runTask, failsWith_runFilter]
    constructor
    · rintro (⟨rfl, e, he⟩ | ⟨s, hs, hfault | ⟨script, hscript, rfl, hrefused⟩⟩)
      · exact .settings trivial he
      · exact .document hs hfault
      · exact .script hs hscript hrefused
    · intro h
      cases h with
      | settings _ he => exact Or.inl ⟨rfl, _, he⟩
      | document hs hfault => exact Or.inr ⟨_, hs, Or.inl hfault⟩
      | script hs hscript hrefused => exact Or.inr ⟨_, hs, Or.inr ⟨_, hscript, rfl, hrefused⟩⟩
  | functions =>
    exact iff_of_false (onlyPrints_runFunctions w st).not_failsWith (not_fails id rfl (by simp))
  | showSettings =>
    rw [runTask, failsWith_runShow]
    constructor
    · rintro ⟨rfl, e, he⟩
      exact .settings trivial he
    · intro h
      cases h with
      | settings _ he => exact ⟨rfl, _, he⟩
      | document hs hfault => exact absurd hfault not_faulty_nil
  | changeSetting key value =>
    rw [runTask, failsWith_runChange]
    constructor
    · rintro ⟨rfl, ⟨e, he⟩ | ⟨s, hs, hnone | ⟨path, e, hpath, hplace⟩⟩⟩
      · exact .settings trivial he
      · exact .choice hs hnone
      · exact .unwritable hs hpath hplace
    · intro h
      cases h with
      | settings _ he => exact ⟨rfl, Or.inl ⟨_, he⟩⟩
      | document hs hfault => exact absurd hfault not_faulty_nil
      | choice hs hnone => exact ⟨rfl, Or.inr ⟨_, hs, Or.inl hnone⟩⟩
      | unwritable hs hpath hplace => exact ⟨rfl, Or.inr ⟨_, hs, Or.inr ⟨_, _, hpath, hplace⟩⟩⟩
  | settingsPath =>
    rw [runTask, failsWith_runPath]
    constructor
    · rintro ⟨rfl, hpath⟩
      exact .noPlace hpath
    · intro h
      cases h with
      | settings hneeds _ => exact absurd hneeds not_false
      | document hs hfault => exact absurd hfault not_faulty_nil
      | noPlace hpath => exact ⟨rfl, hpath⟩

theorem exists_cause_iff {P : Cause → Prop} : (∃ cause, P cause) ↔
    P .evaluation ∨ P .script ∨ P .document ∨ P .file ∨ P .settings := by
  constructor
  · rintro ⟨cause, h⟩
    cases cause <;> simp [h]
  · rintro (h | h | h | h | h) <;> exact ⟨_, h⟩

/-- Exit codes by what made the run fail. -/
def Cause.exitCode : Cause → Nat
  | .evaluation | .script | .document => 1
  | .file => 3
  | .settings => 5

theorem exitCode_cause (e : CommandError) : e.cause.exitCode = e.exitCode := by
  cases e <;> rfl

theorem exitCode_ne_zero (cause : Cause) : cause.exitCode ≠ 0 := by
  cases cause <;> decide

/-- A run succeeds with code zero, or it fails for one cause and has its code. -/
theorem exit_run_cases (w : Workspace) (i : Invocation) :
    ((i.run w).exit = 0 ∧ ∀ cause, ¬Fails w i.task cause) ∨
      ∃ cause, (i.run w).exit = cause.exitCode ∧ ∀ c, Fails w i.task c ↔ c = cause := by
  simp only [← failsWith_runTask w (styleOf w i.flags)]
  rw [Invocation.exit_run, Invocation.procedure]
  cases (runTask w (styleOf w i.flags) i.task).result with
  | ok _ => exact Or.inl ⟨rfl, fun _ => not_failsWith_ok _⟩
  | error e => exact Or.inr ⟨e.cause, (exitCode_cause e).symm, fun _ => failsWith_error_iff e⟩

theorem exit_run_eq_zero_iff {i : Invocation} :
    (i.run w).exit = 0 ↔ ∀ cause, ¬Fails w i.task cause := by
  rcases exit_run_cases w i with ⟨hexit, hnone⟩ | ⟨cause, hexit, hfails⟩
  · exact iff_of_true hexit hnone
  · rw [hexit]
    exact iff_of_false (exitCode_ne_zero cause) fun h => h cause ((hfails cause).mpr rfl)

theorem exit_run_iff {i : Invocation} {code : Nat} (hcode : code ≠ 0) :
    (i.run w).exit = code ↔ ∃ cause, Fails w i.task cause ∧ cause.exitCode = code := by
  rcases exit_run_cases w i with ⟨hexit, hnone⟩ | ⟨cause, hexit, hfails⟩
  · rw [hexit]
    exact iff_of_false hcode.symm fun ⟨c, hc, _⟩ => hnone c hc
  · simp [hexit, hfails]

/-- A run that fails has printed nothing and written nothing. -/
theorem output_run_of_exit_ne_zero {i : Invocation} (h : (i.run w).exit ≠ 0) :
    (i.run w).output = "" ∧ (i.run w).saved = none := by
  rw [Invocation.exit_run] at h
  cases hresult : (i.procedure w).result with
  | ok _ => simp [hresult] at h
  | error e =>
    have hclean : ((i.procedure w).perform {}).2 = {} := clean_runTask w _ i.task {} e hresult
    rw [Invocation.output_run, Invocation.saved_run, hclean]
    exact ⟨rfl, rfl⟩

theorem saved_run_eq_none {i : Invocation} (h : ∀ key value, i.task ≠ .changeSetting key value) :
    (i.run w).saved = none := by
  rw [Invocation.saved_run]
  exact savesNothing_runTask w _ h {}

theorem look_after_of_saved_eq_none {o : Outcome} (h : o.saved = none) :
    (w.after o).look path = w.look path := by
  rw [Workspace.after, h]

/-- A run that fails prints nothing and leaves the settings file as it was, and so does every run
that is not to change a setting, whether it fails or not. The exit code tells what made it fail: an
evaluation, a script or a document that is not understood, a file that cannot be read, or the
settings. -/
theorem failing_run_clean {args : List String} {i : Invocation} (hargs : parse args = .ok i)
    (w : Workspace) :
    let o := run args w
    (o.exit ≠ 0 → o.output = "" ∧ o.saved = none ∧
      ∀ path, w.settingsPath? = some path → (w.after o).look path = w.look path) ∧
    ((∀ key value, i.task ≠ .changeSetting key value) → o.saved = none ∧
      ∀ path, w.settingsPath? = some path → (w.after o).look path = w.look path) ∧
    (o.exit = 0 ↔ ∀ cause, ¬Fails w i.task cause) ∧
    (o.exit = 1 ↔ Fails w i.task .evaluation ∨ Fails w i.task .script ∨
      Fails w i.task .document) ∧
    (o.exit = 3 ↔ Fails w i.task .file) ∧
    (o.exit = 5 ↔ Fails w i.task .settings) := by
  have hrun : run args w = i.run w := by rw [run, hargs]
  dsimp only
  rw [hrun]
  refine ⟨fun hexit => ?_, fun htask => ?_, exit_run_eq_zero_iff, ?_, ?_, ?_⟩
  · obtain ⟨houtput, hsaved⟩ := output_run_of_exit_ne_zero hexit
    exact ⟨houtput, hsaved, fun path _ => look_after_of_saved_eq_none hsaved⟩
  · have hsaved := saved_run_eq_none (w := w) htask
    exact ⟨hsaved, fun path _ => look_after_of_saved_eq_none hsaved⟩
  · rw [exit_run_iff Nat.one_ne_zero, exists_cause_iff]
    simp [Cause.exitCode]
  · rw [exit_run_iff (Nat.succ_ne_zero 2), exists_cause_iff]
    simp [Cause.exitCode]
  · rw [exit_run_iff (Nat.succ_ne_zero 4), exists_cause_iff]
    simp [Cause.exitCode]

/-- The input holds the formula, and nothing of it is left for the form. -/
theorem failing_run_clean_input_read_twice :
    let w : Workspace :=
      { look := fun p => if p = "config.toml" then .file "[output]\ncolor = false\n" else .missing
        input := "\x7b\"type\": \"Literal\", \"value\": 1\x7d"
        environment := Table.ofList [("RK_CONFIG", "config.toml")]
        zone := .utc
        now := .ofMillis 0 }
    let args := ["eval", "-", "--values", "-", "--json"]
    let i : Invocation := ⟨{ json := true }, .eval { expr := "-", values := some "-" }⟩
    parse args = .ok i ∧ (run args w).exit = 1 ∧ (run args w).output = "" ∧
      (w.after (run args w)).look "config.toml" = .file "[output]\ncolor = false\n" := by
  intro w args i
  have hargs : parse args = .ok i := eq_ok_of_toOption_eq_some (by decide +kernel)
  obtain ⟨hfails, -, -, hone, -⟩ := failing_run_clean hargs w
  have hload : loadSettings w = .ok { color := some false } :=
    eq_ok_of_toOption_eq_some (by decide +kernel)
  let text := "\x7b\"type\": \"Literal\", \"value\": 1\x7d"
  have hfirst : w.textAt [] "-" = .ok text := rfl
  have hexpr : ∃ expr, Means Formula.Expr.decode text expr := by decide +kernel
  have hempty : ¬∃ form, Means Json.Decode.document "" form := by decide +kernel
  have hsecond : w.textAt ["-"] "-" = .ok "" := rfl
  have hexit : (run args w).exit = 1 :=
    hone.mpr (Or.inr (Or.inr (.document hload (.later hfirst hexpr (.unclear hsecond hempty)))))
  obtain ⟨houtput, -, hlook⟩ := hfails (by simp [hexit])
  exact ⟨hargs, hexit, houtput, hlook "config.toml" (by decide)⟩

end RecordLogic.Command
