import RecordLogic.Proofs.Settings.File

namespace RecordLogic.Settings

open Formula (LogicalMode)
open RecordLogic.Filter (GroupOperator)

/-- A setting with a value of its own. -/
inductive Choice where
  | maxDepth (n : Nat)
  | logicalMode (mode : LogicalMode)
  | rootOperator (op : GroupOperator)
  | color (b : Bool)
deriving DecidableEq

namespace Choice

def key : Choice → Key
  | maxDepth _ => .maxDepth
  | logicalMode _ => .logicalMode
  | rootOperator _ => .rootOperator
  | color _ => .color

/-- What the text of a value chooses for a key. -/
def read? (value : String) : Key → Option Choice
  | .maxDepth => (depth? value).map maxDepth
  | .logicalMode => (LogicalMode.ofName? value).map logicalMode
  | .rootOperator => (operator? value).map rootOperator
  | .color => (switch? value).map color

/-- A settings file can hold the choice: a depth is at most the largest number of a document. -/
def fits : Choice → Bool
  | maxDepth n => n ≤ maxInteger
  | _ => true

/-- What the name of a key and the text of a value choose. -/
def of? (key value : String) : Option Choice :=
  ((Key.ofName? key).bind (read? value)).filter fits

theorem key_of_read? {value : String} {k : Key} {c : Choice} (h : read? value k = some c) :
    c.key = k := by
  cases k <;> (obtain ⟨_, -, rfl⟩ := Option.map_eq_some_iff.mp h; rfl)

theorem name_key_of_of? {key value : String} {c : Choice} (h : of? key value = some c) :
    c.key.name = key := by
  obtain ⟨k, hk, hc⟩ := Option.bind_eq_some_iff.mp (Option.filter_eq_some_iff.mp h).1
  rw [key_of_read? hc]
  simpa using List.find?_some hk

end Choice

/-- The settings after a choice. -/
def choose (s : Settings) : Choice → Settings
  | .maxDepth n => { s with maxDepth := some n }
  | .logicalMode mode => { s with logicalMode := some mode }
  | .rootOperator op => { s with rootOperator := some op }
  | .color b => { s with color := some b }

/-- What has been chosen for a key. -/
def chosen? (s : Settings) : Key → Option Choice
  | .maxDepth => s.maxDepth.map .maxDepth
  | .logicalMode => s.logicalMode.map .logicalMode
  | .rootOperator => s.rootOperator.map .rootOperator
  | .color => s.color.map .color

variable {s : Settings} {c d : Choice} {k : Key}

theorem chosen?_choose_self : (s.choose c).chosen? c.key = some c := by
  cases c <;> rfl

theorem chosen?_choose_of_ne (h : k ≠ c.key) : (s.choose c).chosen? k = s.chosen? k := by
  cases c <;> cases k <;> first | rfl | exact absurd rfl h

theorem choose_comm (h : c.key ≠ d.key) : (s.choose c).choose d = (s.choose d).choose c := by
  cases c <;> cases d <;> first | rfl | exact absurd rfl h

/-- A key has the last choice that was made for it. -/
theorem chosen?_foldl_choose (cs : List Choice) :
    (cs.foldl choose s).chosen? k = (cs.filter (·.key = k)).getLast?.or (s.chosen? k) := by
  induction cs generalizing s with
  | nil => rfl
  | cons c cs ih =>
    rw [List.foldl_cons, ih, List.filter_cons]
    by_cases hkey : c.key = k
    · rw [if_pos (decide_eq_true hkey), List.getLast?_cons, ← hkey, chosen?_choose_self]
      cases (cs.filter (·.key = c.key)).getLast? <;> rfl
    · rw [if_neg (by simp [hkey]), chosen?_choose_of_ne (Ne.symm hkey)]

theorem change_eq_ok_iff {key value : String} {t : Settings} :
    s.change key value = .ok t ↔
      ∃ c, (Key.ofName? key).bind (Choice.read? value) = some c ∧ s.choose c = t := by
  rw [change]
  cases Key.ofName? key with
  | none => simp
  | some k => cases k <;> (dsimp only; split <;> simp_all [Choice.read?, choose])

theorem storable_choose_iff (hs : s.Storable) : (s.choose c).Storable ↔ c.fits = true := by
  cases c with
  | maxDepth n => simp [Storable, choose, Choice.fits]
  | logicalMode | rootOperator | color => exact iff_of_true hs rfl

/-- The changes after which a file can hold the settings are the choices. -/
theorem change_storable_iff (hs : s.Storable) {key value : String} {t : Settings} :
    s.change key value = .ok t ∧ t.Storable ↔
      ∃ c, Choice.of? key value = some c ∧ s.choose c = t := by
  rw [change_eq_ok_iff]
  constructor
  · rintro ⟨⟨c, hc, rfl⟩, hfits⟩
    exact ⟨c, Option.filter_eq_some_iff.mpr ⟨hc, (storable_choose_iff hs).mp hfits⟩, rfl⟩
  · rintro ⟨c, hc, rfl⟩
    obtain ⟨hread, hfits⟩ := Option.filter_eq_some_iff.mp hc
    exact ⟨⟨c, hread, rfl⟩, (storable_choose_iff hs).mpr hfits⟩

end RecordLogic.Settings
