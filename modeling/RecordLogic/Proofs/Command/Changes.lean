import RecordLogic.Proofs.Command.Procedures
import RecordLogic.Proofs.Settings.Choices

namespace RecordLogic.Command

open Settings (Choice)

namespace Workspace

/-- The directories that a path lies in, from the inside out. -/
def directories : Nat → String → List String
  | 0, _ => []
  | fuel + 1, path =>
    match parent? path with
    | some directory => directory :: directories fuel directory
    | none => []

/-- The world with a file written, in directories that are made for it. -/
def save (w : Workspace) (path text : String) : Workspace :=
  { w with
    look := fun p =>
      if p = path then .file text
      else if p ∈ directories path.length path then .directory
      else w.look p }

/-- The world after a command. -/
def after (w : Workspace) (o : Outcome) : Workspace :=
  match o.saved with
  | some (path, text) => w.save path text
  | none => w

theorem length_lt_of_parent? {path directory : String} (h : parent? path = some directory) :
    directory.length < path.length := by
  have hwhole : (path.toList.reverse.dropWhile (· = '/')).length ≤ path.toList.reverse.length :=
    (List.dropWhile_suffix _).length_le
  have hhead := List.head?_dropWhile_not (· = '/') path.toList.reverse
  rw [parent?] at h
  generalize path.toList.reverse.dropWhile (· = '/') = cs at h hwhole hhead
  cases cs with
  | nil => cases h
  | cons c cs =>
    have hc : c ≠ '/' := by simpa using hhead
    have hname : (cs.dropWhile (· ≠ '/')).length ≤ cs.length :=
      (List.dropWhile_suffix _).length_le
    have habove : ((cs.dropWhile (· ≠ '/')).dropWhile (· = '/')).length ≤
        (cs.dropWhile (· ≠ '/')).length :=
      (List.dropWhile_suffix _).length_le
    have hdrop : (c :: cs).dropWhile (· ≠ '/') = cs.dropWhile (· ≠ '/') :=
      List.dropWhile_cons_of_pos (decide_eq_true hc)
    rw [List.length_cons, List.length_reverse, String.length_toList] at hwhole
    simp only [List.isEmpty_cons, Bool.false_eq_true, ↓reduceIte, hdrop, Option.some.injEq] at h
    rw [← h, String.length_ofList, List.length_reverse]
    omega

theorem mem_directories {path directory : String} (h : parent? path = some directory) :
    directory ∈ directories path.length path := by
  obtain ⟨n, hn⟩ := Nat.exists_eq_succ_of_ne_zero (Nat.ne_zero_of_lt (length_lt_of_parent? h))
  simp [hn, directories, h]

variable (w : Workspace) (path text other : String)

theorem look_save : (w.save path text).look path = .file text := by
  simp [save]

theorem save_save : (w.save path text).save path other = w.save path other := by
  simp only [save, mk.injEq, and_true]
  funext p
  split
  · rfl
  · split <;> rfl

theorem checkPlace_save : checkPlace (w.save path text) path = .ok () := by
  rw [checkPlace]
  cases hparent : parent? path with
  | none => rfl
  | some directory =>
    have hne : directory ≠ path := by
      rintro rfl
      exact Nat.lt_irrefl _ (length_lt_of_parent? hparent)
    simp [save, hne, mem_directories hparent]
    rfl

end Workspace

/-- A run that changes a setting. -/
structure Change where
  flags : Flags
  key : String
  value : String

namespace Change

def run (c : Change) (w : Workspace) : Outcome :=
  Invocation.run ⟨c.flags, .changeSetting c.key c.value⟩ w

/-- The world after the run. -/
def perform (w : Workspace) (c : Change) : Workspace := w.after (c.run w)

/-- What the run chooses, if it is one that a file can hold. -/
def choice? (c : Change) : Option Choice := Choice.of? c.key c.value

end Change

/-- The world after some runs, one after the other. -/
def performAll (w : Workspace) (cs : List Change) : Workspace := cs.foldl Change.perform w

/-- The settings in force, at a path where they can be written. -/
structure Holds (w : Workspace) (path : String) (s : Settings) : Prop where
  place : w.settingsPath? = some path
  loads : loadSettings w = .ok s
  directory : checkPlace w path = .ok ()
  file : checkFile path = .ok ()

variable {w : Workspace} {path : String} {s : Settings}

theorem placeOfSettings_eq (h : w.settingsPath? = some path) : placeOfSettings w = .ok path := by
  rw [placeOfSettings, h]

theorem storable_of_loadSettings (h : loadSettings w = .ok s) : s.Storable := by
  rw [loadSettings] at h
  obtain ⟨path, -, h⟩ := Json.bind_eq_ok.mp h
  dsimp only at h
  split at h
  · cases h
    simp [Settings.Storable]
  · split at h
    · cases h
    · split at h
      · cases h
      · rename_i hread
        cases h
        exact Settings.storable_of_read hread

theorem holds_save (h : Holds w path s) {t : Settings} {text : String}
    (ht : t.render? = some text) : Holds (w.save path text) path t := by
  refine ⟨h.place, ?_, w.checkPlace_save path text, h.file⟩
  have hplace : placeOfSettings (w.save path text) = .ok path := placeOfSettings_eq h.place
  simp only [loadSettings, hplace, bind, Except.bind, w.look_save path text, Place.isThere,
    Place.read, Settings.read_of_render? ht]
  rfl

/-- Under these conditions a run comes to changing the settings and writing them. -/
theorem runChange_eq (h : Holds w path s) (st : Style) (key value : String) :
    runChange w st key value =
      match s.change key value with
      | .error e => Procedure.attempt (.error (.settings (.change e)))
      | .ok t =>
        match t.render? with
        | none => Procedure.attempt (.error (.settings .doesNotFit))
        | some text => Procedure.write path text >>= fun _ => showChange st key value path := by
  have hload : (loadSettings w).mapError CommandError.settings = .ok s :=
    mapError_eq_ok_iff.mpr h.loads
  have hplace : (placeOfSettings w).mapError CommandError.settings = .ok path :=
    mapError_eq_ok_iff.mpr (placeOfSettings_eq h.place)
  have hdirectory : (checkPlace w path).mapError CommandError.settings = .ok () :=
    mapError_eq_ok_iff.mpr h.directory
  have hfile : (checkFile path).mapError CommandError.settings = .ok () :=
    mapError_eq_ok_iff.mpr h.file
  rw [runChange, hload, Procedure.attempt_ok_bind]
  cases s.change key value with
  | error e => rfl
  | ok t =>
    change saveSettings w t >>= _ = _
    simp only [saveSettings, hplace, hdirectory, hfile, Procedure.attempt_ok_bind, textOfSettings]
    cases t.render? with
    | none => rfl
    | some text => rfl

/-- Where something is chosen, the settings with the choice are written and the change is shown. -/
theorem runChange_of_choice (h : Holds w path s) (st : Style) {key value : String}
    {choice : Choice} (hc : Choice.of? key value = some choice) :
    ∃ text, (s.choose choice).render? = some text ∧
      runChange w st key value =
        Procedure.write path text >>= fun _ => showChange st key value path := by
  obtain ⟨hchange, hfits⟩ := (Settings.change_storable_iff (storable_of_loadSettings h.loads)).mpr
    ⟨choice, hc, rfl⟩
  obtain ⟨text, htext⟩ := Option.isSome_iff_exists.mp (Settings.isSome_render?_iff.mpr hfits)
  refine ⟨text, htext, ?_⟩
  rw [runChange_eq h]
  simp only [hchange, htext]

/-- A run that chooses something writes the settings with its choice. -/
theorem run_of_choice (h : Holds w path s) {c : Change} {choice : Choice}
    (hc : c.choice? = some choice) :
    ∃ text, (s.choose choice).render? = some text ∧ (c.run w).exit = 0 ∧
      (c.run w).saved = some (path, text) := by
  obtain ⟨text, htext, hrun⟩ := runChange_of_choice h (styleOf w c.flags) hc
  refine ⟨text, htext, ?_⟩
  rw [Change.run, Invocation.exit_run, Invocation.saved_run, Invocation.procedure, runTask, hrun]
  simp only [Procedure.result, Procedure.perform_bind, Procedure.perform_write]
  have hshow := onlyPrints_showChange (styleOf w c.flags) c.key c.value path
  refine ⟨?_, hshow.savesNothing _⟩
  obtain ⟨_, hok⟩ := hshow.succeeds { saved := some (path, text) }
  rw [hok]

/-- A run that chooses nothing fails and writes nothing. -/
theorem run_of_no_choice (h : Holds w path s) {c : Change} (hc : c.choice? = none) :
    (c.run w).exit ≠ 0 ∧ (c.run w).saved = none := by
  rw [Change.run, Invocation.exit_run, Invocation.saved_run, Invocation.procedure, runTask,
    runChange_eq h]
  cases hchange : s.change c.key c.value with
  | error e => exact ⟨Nat.succ_ne_zero 4, rfl⟩
  | ok t =>
    cases htext : t.render? with
    | none =>
      simp only [htext, Procedure.result, Procedure.perform_attempt]
      exact ⟨Nat.succ_ne_zero 4, trivial⟩
    | some text =>
      exfalso
      have hfits : t.Storable := Settings.storable_of_render? htext
      obtain ⟨choice, hchoice, -⟩ :=
        (Settings.change_storable_iff (storable_of_loadSettings h.loads)).mp ⟨hchange, hfits⟩
      rw [Change.choice?, hchoice] at hc
      cases hc

theorem perform_of_choice (h : Holds w path s) {c : Change} {choice : Choice}
    (hc : c.choice? = some choice) :
    ∃ text, (s.choose choice).render? = some text ∧ c.perform w = w.save path text ∧
      Holds (c.perform w) path (s.choose choice) := by
  obtain ⟨text, htext, -, hsaved⟩ := run_of_choice h hc
  have hperform : c.perform w = w.save path text := by
    rw [Change.perform, Workspace.after, hsaved]
  exact ⟨text, htext, hperform, by rw [hperform]; exact holds_save h htext⟩

theorem perform_of_no_choice (h : Holds w path s) {c : Change} (hc : c.choice? = none) :
    c.perform w = w := by
  rw [Change.perform, Workspace.after, (run_of_no_choice h hc).2]

/-- By induction on the runs: each one adds its choice, or leaves the world as it was. -/
theorem holds_performAll (h : Holds w path s) (cs : List Change) :
    Holds (performAll w cs) path ((cs.filterMap Change.choice?).foldl Settings.choose s) := by
  induction cs generalizing w s with
  | nil => exact h
  | cons c cs ih =>
    rw [performAll, List.foldl_cons, List.filterMap_cons]
    cases hc : c.choice? with
    | none =>
      rw [perform_of_no_choice h hc]
      exact ih h
    | some choice =>
      obtain ⟨text, -, -, hnext⟩ := perform_of_choice h hc
      exact ih hnext

/-- Runs on different keys commute. -/
theorem perform_comm (h : Holds w path s) {c d : Change} (hkeys : c.key ≠ d.key) :
    d.perform (c.perform w) = c.perform (d.perform w) := by
  cases hc : c.choice? with
  | none =>
    rw [perform_of_no_choice h hc]
    cases hd : d.choice? with
    | none => rw [perform_of_no_choice h hd, perform_of_no_choice h hc]
    | some e =>
      obtain ⟨text, -, -, hnext⟩ := perform_of_choice h hd
      rw [perform_of_no_choice hnext hc]
  | some choice =>
    obtain ⟨text, -, hperform, hnext⟩ := perform_of_choice h hc
    cases hd : d.choice? with
    | none => rw [perform_of_no_choice h hd, perform_of_no_choice hnext hd]
    | some other =>
      obtain ⟨text', -, hperform', hnext'⟩ := perform_of_choice h hd
      obtain ⟨last, hlast, hfirst, -⟩ := perform_of_choice hnext hd
      obtain ⟨last', hlast', hsecond, -⟩ := perform_of_choice hnext' hc
      have hdistinct : choice.key ≠ other.key := by
        intro heq
        apply hkeys
        rw [← Settings.Choice.name_key_of_of? hc, ← Settings.Choice.name_key_of_of? hd, heq]
      rw [Settings.choose_comm hdistinct, hlast'] at hlast
      obtain rfl := Option.some.inj hlast
      rw [hfirst, hsecond, hperform, hperform', Workspace.save_save, Workspace.save_save]

/-- After any runs every key has the choice of the last run on it that was accepted, or what it had
before. The accepted runs are those that choose something that a settings file can hold; the others
fail and leave the file alone, and two runs on different keys may change places. -/
theorem settings_keep_last_choices (hplace : w.settingsPath? = some path)
    (hloads : loadSettings w = .ok s) (hdirectory : checkPlace w path = .ok ())
    (hfile : checkFile path = .ok ()) (cs : List Change) :
    let after := performAll w cs
    (∃ t, loadSettings after = .ok t ∧ ∀ k, t.chosen? k =
      ((cs.filterMap Change.choice?).filter (·.key = k)).getLast?.or (s.chosen? k)) ∧
    (∀ c : Change, (c.run after).exit = 0 ↔ c.choice?.isSome = true) ∧
    (∀ c : Change, (c.run after).exit ≠ 0 →
      (c.run after).saved = none ∧ (c.perform after).look path = after.look path) ∧
    ∀ c d : Change, c.key ≠ d.key → performAll after [c, d] = performAll after [d, c] := by
  intro after
  have hafter := holds_performAll ⟨hplace, hloads, hdirectory, hfile⟩ cs
  have haccepted (c : Change) : (c.run after).exit = 0 ↔ c.choice?.isSome = true := by
    cases hc : c.choice? with
    | none => simp [(run_of_no_choice hafter hc).1, after]
    | some choice =>
      obtain ⟨text, -, hexit, -⟩ := run_of_choice hafter hc
      simp [hexit, after]
  refine ⟨⟨_, hafter.loads, fun k => Settings.chosen?_foldl_choose _⟩, haccepted, ?_,
    fun c d hkeys => perform_comm hafter hkeys⟩
  intro c hexit
  rw [ne_eq, haccepted, Bool.not_eq_true, Option.isSome_eq_false_iff,
    Option.isNone_iff_eq_none] at hexit
  exact ⟨(run_of_no_choice hafter hexit).2, by rw [perform_of_no_choice hafter hexit]⟩

/-- A file written by hand, with runs of which two are accepted. -/
theorem settings_keep_last_choices_mixed :
    let w : Workspace :=
      { look := fun p =>
          if p = "config.toml" then .file "evaluator = \x7b max_depth = 7 \x7d # by hand\n"
          else .missing
        input := ""
        environment := Table.ofList [("RK_CONFIG", "config.toml")]
        zone := .utc
        now := .ofMillis 0 }
    let cs : List Change :=
      [⟨{}, "evaluator.max_depth", "12"⟩, ⟨{}, "evaluator.max_depth", "0"⟩,
        ⟨{ json := true }, "output.color", "Off"⟩, ⟨{}, "output.colour", "on"⟩,
        ⟨{}, "evaluator.max_depth", "9223372036854775808"⟩]
    loadSettings w = .ok { maxDepth := some 7 } ∧
      ∃ t, loadSettings (performAll w cs) = .ok t ∧
        t.chosen? .maxDepth = some (.maxDepth 12) ∧ t.chosen? .color = some (.color false) ∧
        t.chosen? .rootOperator = none := by
  intro w cs
  have hplace : w.settingsPath? = some "config.toml" := by decide
  have hloads : loadSettings w = .ok { maxDepth := some 7 } := by
    have hread : (loadSettings w).toOption = some { maxDepth := some 7 } := by decide +kernel
    cases h : loadSettings w with
    | error e =>
      rw [h] at hread
      cases hread
    | ok s =>
      rw [h] at hread
      rw [Option.some.inj hread]
  have hfile : checkFile "config.toml" = .ok () := by
    have hname : "config.toml".endsWith "/" = false := by decide +kernel
    simp [checkFile, hname]
    rfl
  obtain ⟨⟨t, ht, hchosen⟩, -⟩ := settings_keep_last_choices hplace hloads (by rfl) hfile cs
  refine ⟨hloads, t, ht, ?_, ?_, ?_⟩
  · rw [hchosen]
    decide
  · rw [hchosen]
    decide
  · rw [hchosen]
    decide

end RecordLogic.Command
