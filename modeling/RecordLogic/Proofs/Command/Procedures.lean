import RecordLogic.Command.Run

namespace RecordLogic.Command

variable {α β : Type}

@[simp] theorem mapError_ok {ε ε' : Type} (a : α) (f : ε → ε') :
    (Except.ok a).mapError f = .ok a := rfl

@[simp] theorem mapError_error {ε ε' : Type} (e : ε) (f : ε → ε') :
    (Except.error e : Except ε α).mapError f = .error (f e) := rfl

theorem mapError_eq_ok_iff {ε ε' : Type} {x : Except ε α} {f : ε → ε'} {a : α} :
    x.mapError f = .ok a ↔ x = .ok a := by
  cases x <;> simp

namespace Procedure

variable {x : Procedure α} {f : α → Procedure β} {r : Report}

@[simp] theorem perform_attempt (y : Except CommandError α) : (attempt y).perform r = (y, r) := rfl

@[simp] theorem perform_print (s : String) :
    (print s).perform r = (.ok (), { r with output := r.output ++ s }) := rfl

@[simp] theorem perform_write (path text : String) :
    (write path text).perform r = (.ok (), { r with saved := some (path, text) }) := rfl

/-- What comes after a failure is not performed. -/
theorem perform_bind : (x >>= f).perform r =
    match x.perform r with
    | (.ok a, r') => (f a).perform r'
    | (.error e, r') => (.error e, r') := by
  change (x.run >>= ExceptT.bindCont f).run r = _
  rw [StateT.run_bind]
  change (ExceptT.bindCont f (x.perform r).1).run (x.perform r).2 = _
  cases x.perform r with
  | mk y r' => cases y <;> rfl

@[simp] theorem attempt_ok_bind (a : α) : attempt (.ok a) >>= f = f a := rfl

@[simp] theorem attempt_error_bind (e : CommandError) :
    attempt (.error e : Except CommandError α) >>= f = attempt (.error e) := rfl

/-- How a procedure ends that is performed first of all. -/
def result (x : Procedure α) : Except CommandError α := (x.perform {}).1

theorem result_attempt_bind (y : Except CommandError α) :
    (attempt y >>= f).result = y >>= fun a => (f a).result := by
  cases y <;> rfl

/-- The procedure does not fail. -/
def Succeeds (x : Procedure α) : Prop := ∀ r, ∃ a, (x.perform r).1 = .ok a

/-- When the procedure fails, it has printed and written nothing. -/
def Clean (x : Procedure α) : Prop := ∀ r e, (x.perform r).1 = .error e → (x.perform r).2 = r

/-- The procedure writes no file. -/
def SavesNothing (x : Procedure α) : Prop := ∀ r, (x.perform r).2.saved = r.saved

theorem Succeeds.write (path text : String) : Succeeds (write path text) := fun _ => ⟨(), rfl⟩

theorem Succeeds.bind (hx : Succeeds x) (hf : ∀ a, Succeeds (f a)) : Succeeds (x >>= f) := by
  intro r
  obtain ⟨a, ha⟩ := hx r
  rw [perform_bind]
  generalize x.perform r = done at ha
  obtain ⟨y, r'⟩ := done
  subst ha
  exact hf a r'

theorem SavesNothing.bind (hx : SavesNothing x) (hf : ∀ a, SavesNothing (f a)) :
    SavesNothing (x >>= f) := by
  intro r
  have hfirst := hx r
  rw [perform_bind]
  generalize x.perform r = done at hfirst ⊢
  obtain ⟨y | a, r'⟩ := done
  · exact hfirst
  · exact (hf a r').trans hfirst

theorem Succeeds.clean (hx : Succeeds x) : Clean x := by
  intro r e he
  obtain ⟨a, ha⟩ := hx r
  rw [ha] at he
  cases he

/-- The procedure neither fails nor writes a file. -/
structure OnlyPrints (x : Procedure α) : Prop where
  succeeds : Succeeds x
  savesNothing : SavesNothing x

namespace OnlyPrints

theorem pure (a : α) : OnlyPrints (Pure.pure a : Procedure α) := ⟨fun _ => ⟨a, rfl⟩, fun _ => rfl⟩

theorem print (s : String) : OnlyPrints (Procedure.print s) := ⟨fun _ => ⟨(), rfl⟩, fun _ => rfl⟩

theorem warn (s : String) : OnlyPrints (Procedure.warn s) := ⟨fun _ => ⟨(), rfl⟩, fun _ => rfl⟩

theorem bind (hx : OnlyPrints x) (hf : ∀ a, OnlyPrints (f a)) : OnlyPrints (x >>= f) :=
  ⟨hx.succeeds.bind fun a => (hf a).succeeds, hx.savesNothing.bind fun a => (hf a).savesNothing⟩

theorem ite {c : Prop} [Decidable c] {x y : Procedure α} (hx : OnlyPrints x) (hy : OnlyPrints y) :
    OnlyPrints (if c then x else y) := by
  split
  · exact hx
  · exact hy

end OnlyPrints

/-- All that may fail comes first, and then something of this kind. -/
inductive AttemptsThen (P : Procedure β → Prop) : Procedure β → Prop where
  | last {x : Procedure β} (h : P x) : AttemptsThen P x
  | attempt {α : Type} {y : Except CommandError α} {f : α → Procedure β}
      (hf : ∀ a, y = .ok a → AttemptsThen P (f a)) : AttemptsThen P (attempt y >>= f)

namespace AttemptsThen

variable {P Q : Procedure β → Prop} {x : Procedure β}

theorem mono (h : AttemptsThen P x) (hPQ : ∀ y, P y → Q y) : AttemptsThen Q x := by
  induction h with
  | last h => exact .last (hPQ _ h)
  | attempt _ ih => exact .attempt ih

theorem clean (h : AttemptsThen Succeeds x) : Clean x := by
  induction h with
  | last h => exact h.clean
  | @attempt α y f _ ih =>
    cases y with
    | ok a => exact ih a rfl
    | error e => exact fun _ _ _ => rfl

theorem savesNothing (h : AttemptsThen SavesNothing x) : SavesNothing x := by
  induction h with
  | last h => exact h
  | @attempt α y f _ ih =>
    cases y with
    | ok a => exact ih a rfl
    | error e => exact fun _ => rfl

end AttemptsThen

end Procedure

open Procedure

variable (w : Workspace) (st : Style)

theorem onlyPrints_printJson (j : Json) : OnlyPrints (printJson j) := .print _

theorem onlyPrints_greet : OnlyPrints (greet st) := .ite (.print _) (.pure _)

theorem onlyPrints_showValue (v : Value) : OnlyPrints (showValue st v) :=
  .ite (onlyPrints_printJson _) (.ite (.print _) (.pure _))

theorem onlyPrints_showReplay (r : FilterRequest) (replay : Filter.Replay) :
    OnlyPrints (showReplay st r replay) := by
  refine .ite (onlyPrints_printJson _) (.ite ?_ (.pure _))
  refine (onlyPrints_printJson _).bind fun _ => (OnlyPrints.warn _).bind fun _ => ?_
  exact .ite (.warn _) (.pure _)

theorem onlyPrints_runFunctions : OnlyPrints (runFunctions w st) :=
  .ite (onlyPrints_printJson _) (.ite (.print _) (.pure _))

theorem onlyPrints_showSettings (s : Settings) (path : String) :
    OnlyPrints (showSettings w st s path) :=
  .ite (onlyPrints_printJson _) (.ite (.print _) (.pure _))

theorem onlyPrints_showChange (key value path : String) :
    OnlyPrints (showChange st key value path) :=
  .ite (onlyPrints_printJson _) (.ite (.print _) (.pure _))

theorem onlyPrints_showPath (path : String) : OnlyPrints (showPath w st path) :=
  .ite (onlyPrints_printJson _) (.print _)

theorem attemptsThen_runEval (r : EvalRequest) : AttemptsThen OnlyPrints (runEval w st r) :=
  .attempt fun _ _ => .attempt fun _ _ => .attempt fun _ _ => .attempt fun _ _ =>
    .attempt fun _ _ => .last (onlyPrints_showValue st _)

theorem attemptsThen_runFilter (r : FilterRequest) : AttemptsThen OnlyPrints (runFilter w st r) :=
  .attempt fun _ _ => .attempt fun _ _ => .attempt fun _ _ => .attempt fun _ _ =>
    .last (onlyPrints_showReplay st r _)

theorem attemptsThen_runShow : AttemptsThen OnlyPrints (runShow w st) :=
  .attempt fun _ _ => .attempt fun _ _ => .last (onlyPrints_showSettings w st _ _)

theorem attemptsThen_runPath : AttemptsThen OnlyPrints (runPath w st) :=
  .attempt fun _ _ => .last (onlyPrints_showPath w st _)

/-- The place of the settings is looked up once more when they are written, but what was there once
is there again. -/
theorem attemptsThen_runChange (key value : String) :
    AttemptsThen Succeeds (runChange w st key value) := by
  simp only [runChange, saveSettings, bind_assoc]
  refine .attempt fun _ _ => .attempt fun _ _ => .attempt fun path hpath => .attempt fun _ _ =>
    .attempt fun text _ => .attempt fun _ _ => .last ?_
  rw [hpath, attempt_ok_bind]
  exact (Succeeds.write path text).bind fun _ => (onlyPrints_showChange st key value path).succeeds

/-- A command that does not change a setting only prints, if it does not fail. -/
theorem attemptsThen_runTask {task : Task} (h : ∀ key value, task ≠ .changeSetting key value) :
    AttemptsThen OnlyPrints (runTask w st task) := by
  cases task with
  | nothing => exact .last (onlyPrints_greet st)
  | eval r => exact attemptsThen_runEval w st r
  | filter r => exact attemptsThen_runFilter w st r
  | functions => exact .last (onlyPrints_runFunctions w st)
  | showSettings => exact attemptsThen_runShow w st
  | changeSetting key value => exact absurd rfl (h key value)
  | settingsPath => exact attemptsThen_runPath w st

/-- In every command all that may fail comes first. -/
theorem clean_runTask (task : Task) : Clean (runTask w st task) := by
  by_cases h : ∀ key value, task ≠ .changeSetting key value
  · exact ((attemptsThen_runTask w st h).mono fun _ => OnlyPrints.succeeds).clean
  · obtain ⟨key, value, rfl⟩ : ∃ key value, task = .changeSetting key value := by simpa using h
    exact (attemptsThen_runChange w st key value).clean

theorem savesNothing_runTask {task : Task} (h : ∀ key value, task ≠ .changeSetting key value) :
    SavesNothing (runTask w st task) :=
  ((attemptsThen_runTask w st h).mono fun _ => OnlyPrints.savesNothing).savesNothing

namespace Invocation

variable (i : Invocation)

/-- What an invocation does. -/
def procedure (i : Invocation) (w : Workspace) : Procedure Unit :=
  runTask w (styleOf w i.flags) i.task

theorem exit_run : (i.run w).exit =
    match (i.procedure w).result with
    | .ok _ => 0
    | .error e => e.exitCode := by
  rw [run, procedure, Procedure.result]
  split <;> simp [*]

theorem output_run : (i.run w).output = ((i.procedure w).perform {}).2.output := by
  rw [run, procedure]
  split <;> simp [*]

theorem saved_run : (i.run w).saved = ((i.procedure w).perform {}).2.saved := by
  rw [run, procedure]
  split <;> simp [*]

end Invocation

end RecordLogic.Command
