import RecordLogic.Proofs.Filter.Values
import RecordLogic.Proofs.Filter.Wire

namespace RecordLogic.Filter

/-- What a filter would send after it was written as a document and restored from it. -/
def Payload.reopened (p : Payload) (start : Nat) (supply : Supply) :
    Except Json.DecodeError (Option Payload) :=
  (Payload.decode p.encode).map fun q => (Tree.ofPayload q start supply).payload?

namespace Payload

variable {p : Payload}

theorem reopened_of_normal (hp : ∀ c ∈ p.conditions, c.Canonical) (hnormal : p.normal? = some p)
    (start : Nat) (supply : Supply) : p.reopened start supply = .ok (some p.withoutNulls) := by
  have hsent : (Tree.ofPayload p.withoutNulls start supply).payload? = some p.withoutNulls := by
    rw [Tree.payload?_ofPayload, normal?_withoutNulls hnormal]
  rw [reopened, decode_encode hp, Except.map, hsent]

end Payload

namespace Tree

/-- A filter that is sent, from any tree that editing can reach, can be decoded and restored, and
then the same filter is sent but for explicit nulls: it is the same filter exactly if no condition
in it has one. -/
theorem run_payload?_reopened (start : Nat) (supply : Supply) (origin : Origin)
    (edits : List Edit) (horigin : origin.Canonical) (hedits : ∀ e ∈ edits, e.Canonical)
    {f : Payload} (hf : ((ofOrigin start supply origin).run edits).payload? = some f)
    (restart : Nat) (resupply : Supply) :
    f.reopened restart resupply = .ok (some f.withoutNulls) ∧
      (f.reopened restart resupply = .ok (some f) ↔ ∀ c ∈ f.conditions, c.value ≠ some .null) := by
  have hvalues : ∀ c ∈ f.conditions, c.Canonical :=
    ((Canonical.ofOrigin start supply horigin).run hedits).payload? hf
  have hreopened := Payload.reopened_of_normal hvalues (normal?_of_payload? hf) restart resupply
  refine ⟨hreopened, ?_⟩
  rw [hreopened, ← Payload.withoutNulls_eq_self_iff, Except.ok.injEq, Option.some.injEq]

theorem run_payload?_reopened_nested :
    let edits : List Edit := [.addGroup none .or,
      .addCondition (some ⟨1⟩) ⟨.equal, "amount", some (.integer 3), .constant⟩,
      .addCondition none ⟨.isEmpty, "email", some .null, .constant⟩]
    let f : Payload := ⟨.and, [.group .or [.leaf ⟨.equal, "amount", some (.integer 3), .constant⟩],
      .leaf ⟨.isEmpty, "email", none, .constant⟩]⟩
    ((ofOrigin 0 .counted (.empty .and)).run edits).payload? = some f ∧
      f.reopened 7 .counted = .ok (some f) := by
  intro edits f
  have hf : ((ofOrigin 0 .counted (.empty .and)).run edits).payload? = some f := by
    simp [edits, f, ofOrigin, new, Supply.counted, run, edit, addGroup, addCondition, add, attach?,
      groupPlace?, Node.groupPlace?, Group.push, Group.toNode, Place.within, payload?, Node.sent,
      Clause.consGroup, Payload.ofClauses?, Condition.sent, ConditionOperator.takesValue]
  have hedits : ∀ e ∈ edits, e.Canonical := by
    simp [edits, Edit.Canonical, Condition.Canonical, Json.canonical]
  have hreopened :=
    run_payload?_reopened 0 .counted (.empty .and) edits trivial hedits hf 7 .counted
  refine ⟨hf, hreopened.2.mpr ?_⟩
  simp [f, Payload.conditions, Clause.conditions]

/-- An explicit null is sent, but it is gone from the filter that was written and restored. -/
theorem reopened_null_lost :
    let edits : List Edit := [.addCondition none ⟨.equal, "a", some .null, .constant⟩]
    let f : Payload := ⟨.and, [.leaf ⟨.equal, "a", some .null, .constant⟩]⟩
    ((ofOrigin 0 .counted (.empty .and)).run edits).payload? = some f ∧
      f.reopened 1 .counted = .ok (some ⟨.and, [.leaf ⟨.equal, "a", none, .constant⟩]⟩) ∧
      f.reopened 1 .counted ≠ .ok (some f) := by
  intro edits f
  have hf : ((ofOrigin 0 .counted (.empty .and)).run edits).payload? = some f := by
    simp [edits, f, ofOrigin, new, Supply.counted, run, edit, addCondition, add, attach?,
      payload?, Node.sent, Payload.ofClauses?, Condition.sent, ConditionOperator.takesValue]
  have hvalues : ∀ c ∈ f.conditions, c.Canonical := by
    simp [f, Payload.conditions, Clause.conditions, Condition.Canonical, Json.canonical]
  have hreopened := Payload.reopened_of_normal hvalues (normal?_of_payload? hf) 1 .counted
  have hlost : f.withoutNulls = ⟨.and, [.leaf ⟨.equal, "a", none, .constant⟩]⟩ := by
    simp [f, Payload.withoutNulls, Clause.withoutNulls, Condition.withoutNull]
  rw [hlost] at hreopened
  refine ⟨hf, hreopened, ?_⟩
  rw [hreopened]
  simp [f]

end Tree

end RecordLogic.Filter
