import RecordLogic.Proofs.Formula.DateSpan
import RecordLogic.Proofs.Formula.Defects
import RecordLogic.Proofs.Text.Runs

namespace RecordLogic.Formula

variable {zone : Time.Zone} {args : Arguments} {name : String} {unit : DateUnit}

namespace DateUnit

/-- The names of the units in the singular. -/
def names : List String := ["minute", "hour", "day", "week", "month", "year"]

/-- The text, in small letters, is the name of a unit with any number of letters `s` behind it. -/
def Names (s : String) : Prop :=
  ∃ name ∈ names, ∃ k, (Text.lower s).toList = name.toList ++ List.replicate k 's'

theorem ofName?_eq_none_iff (s : String) : ofName? s = none ↔ s ∉ names := by
  rw [ofName?.eq_def]
  split <;> simp_all [names]

/-- What is taken off a text at its end is a run of one letter. -/
theorem exists_replicate_of_singular (s : String) :
    ∃ k, (Text.lower s).toList = (singular s).toList ++ List.replicate k 's' := by
  let cs := (Text.lower s).toList.reverse
  let run := cs.takeWhile (· = 's')
  have hrun : run = List.replicate run.length 's' := by
    apply List.eq_replicate_iff.mpr
    refine ⟨rfl, ?_⟩
    intro c hc
    simpa using List.all_eq_true.mp List.all_takeWhile c hc
  refine ⟨run.length, ?_⟩
  calc (Text.lower s).toList
    _ = cs.reverse := (List.reverse_reverse _).symm
    _ = (run ++ cs.dropWhile (· = 's')).reverse := by rw [List.takeWhile_append_dropWhile]
    _ = (cs.dropWhile (· = 's')).reverse ++ run.reverse := List.reverse_append
    _ = (singular s).toList ++ List.replicate run.length 's' := by
      rw [hrun, List.reverse_replicate, List.length_replicate, singular, String.toList_ofList]

theorem singular_of_replicate {k : Nat} (hname : Text.Stops (· = 's') name.toList.reverse)
    (h : (Text.lower s).toList = name.toList ++ List.replicate k 's') : singular s = name := by
  have hdrop : (Text.lower s).toList.reverse.dropWhile (· = 's') = name.toList.reverse := by
    rw [h, List.reverse_append, List.reverse_replicate]
    exact Text.dropWhile_append_of_stops (by simp) hname
  rw [singular, hdrop, List.reverse_reverse, String.ofList_toList]

/-- No name of a unit ends in the letter that is taken off. -/
theorem stops_of_mem_names (h : name ∈ names) : Text.Stops (· = 's') name.toList.reverse := by
  have hall : ∀ name ∈ names, Text.Stops (· = 's') name.toList.reverse := by
    simp [names, Text.Stops]
  exact hall name h

theorem names_iff (s : String) : Names s ↔ singular s ∈ names := by
  constructor
  · rintro ⟨name, hname, k, hk⟩
    rw [singular_of_replicate (stops_of_mem_names hname) hk]
    exact hname
  · intro hmem
    obtain ⟨k, hk⟩ := exists_replicate_of_singular s
    exact ⟨singular s, hmem, k, hk⟩

theorem named?_eq_none_iff (v : Value) :
    named? v = none ↔ v.isNullish = false ∧ ¬Names v.toText := by
  rw [named?, names_iff, ← ofName?_eq_none_iff]
  cases v.isNullish <;> simp

end DateUnit

theorem dateAdd_of_unknown (args : Arguments) (h : DateUnit.named? (args.arg 2) = none) :
    dateAdd zone args = .error (unknownUnit "DATEADD" (args.arg 2)) := by
  simp only [dateAdd, dateUnit_of_none "DATEADD" h]
  rfl

namespace Builtin

theorem mem_all (b : Builtin) : b ∈ all := by
  cases b <;> decide

theorem nodup_map_name : (all.map Builtin.name).Nodup := by
  decide

/-- Once the unit is known there is a value, whatever the other arguments are. -/
theorem exists_apply_of_named (b : Builtin) (zone : Time.Zone)
    (h : DateUnit.named? (args.arg 2) = some unit) : ∃ v, b.apply zone args = .ok v := by
  cases b with
  | dateAdd =>
    simp only [apply, Formula.dateAdd, dateUnit_of_some "DATEADD" h]
    exact ⟨_, rfl⟩
  | dateDiff =>
    simp only [apply, Formula.dateDiff, dateUnit_of_some "DATEDIFF" h]
    exact ⟨_, rfl⟩
  | _ => exact ⟨_, rfl⟩

theorem apply_eq_error_iff (b : Builtin) (zone : Time.Zone) (args : Arguments) (e : EvalError) :
    b.apply zone args = .error e ↔
      (b = dateAdd ∨ b = dateDiff) ∧ DateUnit.named? (args.arg 2) = none ∧
        e = unknownUnit b.name (args.arg 2) := by
  by_cases hb : b = dateAdd ∨ b = dateDiff
  · cases hunit : DateUnit.named? (args.arg 2) with
    | none =>
      have herror : b.apply zone args = .error (unknownUnit b.name (args.arg 2)) := by
        rcases hb with rfl | rfl
        · exact dateAdd_of_unknown args hunit
        · exact dateDiff_of_unknown args hunit
      simp [herror, hb, eq_comm]
    | some unit =>
      obtain ⟨v, hv⟩ := exists_apply_of_named b zone hunit
      simp [hv]
  · obtain ⟨hadd, hdiff⟩ := not_or.mp hb
    obtain ⟨v, hv⟩ := apply_ok hadd hdiff zone args
    simp [hv, hb]

end Builtin

/-- An argument that is not nullish was given. -/
theorem exists_getElem?_iff {P : Value → Prop} (args : Arguments) (i : Nat) :
    (∃ v, args[i]? = some v ∧ v.isNullish = false ∧ P v) ↔
      (args.arg i).isNullish = false ∧ P (args.arg i) := by
  rw [Arguments.arg, List.getD_eq_getElem?_getD]
  cases args[i]? <;> simp [Value.isNullish]

namespace Registry

/-- The built-in functions stand under their own names. -/
theorem find?_builtin (zone : Time.Zone) (b : Builtin) :
    (builtin zone).find? b.name = some (b.apply zone) := by
  apply Table.find?_insertMany_of_mem
  · rw [List.map_map]
    exact Builtin.nodup_map_name
  · exact List.mem_map_of_mem b.mem_all

theorem call_builtin (zone : Time.Zone) (b : Builtin) (args : Arguments) :
    (builtin zone).call b.name args = b.apply zone args := by
  rw [call, find?_builtin]

theorem call_of_not_mem (h : name ∉ Builtin.all.map Builtin.name) (args : Arguments) :
    (builtin zone).call name args = .error ((builtin zone).unknown name) := by
  have hnone : (builtin zone).find? name = none := by
    apply Table.find?_insertMany_of_not_mem
    rw [List.map_map]
    exact h
  rw [call, hnone]

/-- A call of the built-in functions fails in two ways only: none of them has the name, or it is one
of the two date functions and its third argument is there and not nullish but names no unit. With
all other arguments, however many and whatever they are, there is a value. -/
theorem call_builtin_eq_error_iff (zone : Time.Zone) (name : String) (args : Arguments)
    (e : EvalError) :
    (builtin zone).call name args = .error e ↔
      (name ∉ Builtin.all.map Builtin.name ∧
        e = .unknownFunction name ((builtin zone).suggest name)) ∨
      ((name = "DATEADD" ∨ name = "DATEDIFF") ∧ ∃ v, args[2]? = some v ∧ v.isNullish = false ∧
        ¬DateUnit.Names v.toText ∧ e = .function name ("unknown date unit: " ++ v.toText)) := by
  by_cases hname : name ∈ Builtin.all.map Builtin.name
  · obtain ⟨b, -, rfl⟩ := List.mem_map.mp hname
    have hdate : (b.name = "DATEADD" ∨ b.name = "DATEDIFF") ↔ b = .dateAdd ∨ b = .dateDiff := by
      cases b <;> decide
    rw [call_builtin, Builtin.apply_eq_error_iff, DateUnit.named?_eq_none_iff, hdate,
      exists_getElem?_iff]
    simp [hname, unknownUnit, and_assoc]
  · have hdate : ¬(name = "DATEADD" ∨ name = "DATEDIFF") := by
      rintro (rfl | rfl) <;> exact hname (by decide)
    rw [call_of_not_mem hname, unknown]
    constructor
    · intro h
      exact Or.inl ⟨hname, (Except.error.inj h).symm⟩
    · rintro (⟨-, rfl⟩ | ⟨h, -⟩)
      · rfl
      · exact absurd h hdate

end Registry

end RecordLogic.Formula
