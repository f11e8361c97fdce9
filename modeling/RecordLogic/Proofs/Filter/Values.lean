import RecordLogic.Filter.Wire
import RecordLogic.Proofs.Filter.Load
import RecordLogic.Proofs.Json.Canonical

namespace RecordLogic.Filter

namespace Condition

variable {c : Condition} {n : FieldNames} {j : Json}

theorem canonical_withValue {v : Json} (h : v.canonical = v) : (c.withValue v).Canonical := by
  intro w hw
  cases hw
  exact h

theorem canonical_withField (c : Condition) (field : String) : (c.withField field).Canonical := by
  intro v hv
  cases hv
  simp [Json.canonical]

theorem canonical_withVariable (c : Condition) (name : String) :
    (c.withVariable name).Canonical := by
  intro v hv
  cases hv
  simp [Json.canonical]

theorem canonical_of_decode (h : decode n j = .ok c) : c.Canonical := by
  obtain ⟨r, -, h⟩ := Json.bind_eq_ok.mp h
  obtain ⟨operator, -, h⟩ := Json.bind_eq_ok.mp h
  obtain ⟨field, -, h⟩ := Json.bind_eq_ok.mp h
  obtain ⟨value, hvalue, h⟩ := Json.bind_eq_ok.mp h
  obtain ⟨source, -, h⟩ := Json.bind_eq_ok.mp h
  cases h
  rintro v rfl
  exact Json.Record.canonical_of_optional hvalue

theorem canonical_sent (h : c.Canonical) : c.sent.Canonical := by
  intro v hv
  rw [sent] at hv
  split at hv
  · exact h v hv
  · simp at hv

end Condition

namespace ConditionUpdate

/-- The new value, if there is one, is in canonical form. -/
def Canonical (u : ConditionUpdate) : Prop :=
  ∀ v, u.value = some v → v.canonical = v

variable {c : Condition} {u : ConditionUpdate}

theorem canonical_of_decode {j : Json} (h : decode j = .ok u) : u.Canonical := by
  obtain ⟨r, -, h⟩ := Json.bind_eq_ok.mp h
  obtain ⟨operator, -, h⟩ := Json.bind_eq_ok.mp h
  obtain ⟨field, -, h⟩ := Json.bind_eq_ok.mp h
  obtain ⟨value, hvalue, h⟩ := Json.bind_eq_ok.mp h
  obtain ⟨source, -, h⟩ := Json.bind_eq_ok.mp h
  cases h
  rintro v rfl
  exact Json.Record.canonical_of_optional hvalue

theorem canonical_updated (hc : c.Canonical) (hu : u.Canonical) : (c.updated u).Canonical := by
  intro v hv
  rcases Option.or_eq_some_iff.mp hv with hnew | ⟨-, hold⟩
  · exact hu v hnew
  · exact hc v hold

end ConditionUpdate

namespace Clause

variable {P : Condition → Prop}

theorem forall_of_ofGroup (hP : ∀ j c, Condition.decode Condition.wireNames j = .ok c → P c)
    {group : Except Json.DecodeError Payload} {j : Json} {c : Clause}
    (hgroup : ∀ p, group = .ok p → ∀ d ∈ p.conditions, P d)
    (h : ofGroup group j = .ok c) : ∀ d ∈ conditions [c], P d := by
  rw [ofGroup.eq_def] at h
  split at h
  · rename_i p
    cases h
    simpa [conditions, Payload.conditions] using hgroup p rfl
  · cases hdecode : Condition.decode Condition.wireNames j with
    | error e => simp [hdecode, Except.map] at h
    | ok d =>
      rw [hdecode] at h
      cases h
      simpa [conditions] using hP j d hdecode

theorem forall_of_ofRecord {r : Except Json.DecodeError Json.Record}
    {clauses : Except Json.DecodeError (List Clause)} {p : Payload}
    (hclauses : ∀ cs, clauses = .ok cs → ∀ d ∈ conditions cs, P d)
    (h : Payload.ofRecord r clauses = .ok p) : ∀ d ∈ p.conditions, P d := by
  obtain ⟨record, -, h⟩ := Json.bind_eq_ok.mp h
  obtain ⟨operator, -, h⟩ := Json.bind_eq_ok.mp h
  obtain ⟨cs, hcs, h⟩ := Json.bind_eq_ok.mp h
  cases h
  exact hclauses cs hcs

mutual

/-- Whatever holds of every condition that is decoded holds of those in a clause. -/
theorem forall_of_decode (hP : ∀ j c, Condition.decode Condition.wireNames j = .ok c → P c)
    (j : Json) {c : Clause} (h : decode j = .ok c) : ∀ d ∈ conditions [c], P d := by
  cases j with
  | object es =>
    rw [decode] at h
    refine forall_of_ofGroup hP (fun p hp => forall_of_ofRecord (fun cs hcs => ?_) hp) h
    exact forall_of_decodeUnder hP es hcs
  | array js =>
    rw [decode] at h
    refine forall_of_ofGroup hP (fun p hp => forall_of_ofRecord (fun cs hcs => ?_) hp) h
    exact forall_of_decodeAt hP 1 js hcs
  | null => simp [decode] at h
  | bool b => simp [decode] at h
  | integer n => simp [decode] at h
  | float x => simp [decode] at h
  | text s => simp [decode] at h

theorem forall_of_decodeUnder (hP : ∀ j c, Condition.decode Condition.wireNames j = .ok c → P c)
    (es : List (String × Json)) {cs : List Clause} (h : decodeUnder es = .ok cs) :
    ∀ d ∈ conditions cs, P d := by
  match es with
  | [] =>
    rw [decodeUnder] at h
    cases h
    simp [conditions]
  | (k, j) :: es =>
    rw [decodeUnder] at h
    split at h
    · exact forall_of_decodeList hP j h
    · exact forall_of_decodeUnder hP es h

theorem forall_of_decodeAt (hP : ∀ j c, Condition.decode Condition.wireNames j = .ok c → P c)
    (skip : Nat) (js : List Json) {cs : List Clause} (h : decodeAt skip js = .ok cs) :
    ∀ d ∈ conditions cs, P d := by
  match skip, js with
  | _, [] =>
    rw [decodeAt] at h
    cases h
    simp [conditions]
  | 0, j :: _ =>
    rw [decodeAt] at h
    exact forall_of_decodeList hP j h
  | skip + 1, _ :: js =>
    rw [decodeAt] at h
    exact forall_of_decodeAt hP skip js h

theorem forall_of_decodeList (hP : ∀ j c, Condition.decode Condition.wireNames j = .ok c → P c)
    (j : Json) {cs : List Clause} (h : decodeList j = .ok cs) : ∀ d ∈ conditions cs, P d := by
  cases j with
  | array js =>
    rw [decodeList] at h
    exact forall_of_decodeAll hP js h
  | object es => simp [decodeList] at h
  | null => simp [decodeList] at h
  | bool b => simp [decodeList] at h
  | integer n => simp [decodeList] at h
  | float x => simp [decodeList] at h
  | text s => simp [decodeList] at h

theorem forall_of_decodeAll (hP : ∀ j c, Condition.decode Condition.wireNames j = .ok c → P c)
    (js : List Json) {cs : List Clause} (h : decodeAll js = .ok cs) :
    ∀ d ∈ conditions cs, P d := by
  match js with
  | [] =>
    rw [decodeAll] at h
    cases h
    simp [conditions]
  | j :: js =>
    rw [decodeAll] at h
    obtain ⟨c, hc, h⟩ := Json.bind_eq_ok.mp h
    obtain ⟨cs', hcs, h⟩ := Json.bind_eq_ok.mp h
    cases h
    intro d hd
    rw [conditions_cons, List.mem_append] at hd
    rcases hd with hd | hd
    · exact forall_of_decode hP j hc d hd
    · exact forall_of_decodeAll hP js hcs d hd

end

end Clause

theorem Payload.forall_of_decode {P : Condition → Prop}
    (hP : ∀ j c, Condition.decode Condition.wireNames j = .ok c → P c) {j : Json} {p : Payload}
    (h : decode j = .ok p) : ∀ c ∈ p.conditions, P c := by
  rw [decode.eq_def] at h
  split at h
  · rename_i es
    exact Clause.forall_of_ofRecord (fun cs hcs => Clause.forall_of_decodeUnder hP es hcs) h
  · rename_i js
    exact Clause.forall_of_ofRecord (fun cs hcs => Clause.forall_of_decodeAt hP 1 js hcs) h
  · cases h

/-- Whatever is decoded has values in canonical form. -/
theorem Payload.canonical_of_decode {j : Json} {p : Payload} (h : decode j = .ok p) :
    ∀ c ∈ p.conditions, c.Canonical :=
  forall_of_decode (fun _ _ => Condition.canonical_of_decode) h

/-- An edit brings in values in canonical form only. -/
def Edit.Canonical : Edit → Prop
  | .addCondition _ c => c.Canonical
  | .updateCondition _ u => u.Canonical
  | _ => True

def Origin.Canonical : Origin → Prop
  | .empty _ => True
  | .restored p => ∀ c ∈ p.conditions, c.Canonical

theorem Node.conditions_shape (r : NodeId) (ns : List Node) :
    Clause.conditions (shape ns) = (entries r ns).filterMap Entry.condition? := by
  fun_induction shape ns generalizing r with
  | case1 => simp [Clause.conditions, entries]
  | case2 i c ns ih => simp [Clause.conditions, entries, Entry.condition?, ih r]
  | case3 i op cs ns ihc ihn =>
    simp [Clause.conditions, entries, ihc i, ihn r, List.filterMap_cons, Entry.condition?]

namespace Tree

variable {t t' : Tree} {old new : List Entry} {f : Payload}

/-- All values in the tree are in canonical form. -/
def Canonical (t : Tree) : Prop :=
  ∀ e ∈ t.entries, ∀ c, e.condition? = some c → c.Canonical

theorem canonical_iff (t : Tree) :
    t.Canonical ↔ ∀ c ∈ Clause.conditions (Node.shape t.children), c.Canonical := by
  rw [Node.conditions_shape t.rootId]
  simp only [List.mem_filterMap]
  constructor
  · rintro h c ⟨e, he, hc⟩
    exact h e he c hc
  · intro h e he c hc
    exact h c ⟨e, he, hc⟩

namespace Canonical

theorem ofOrigin (start : Nat) (supply : Supply) {origin : Origin} (h : origin.Canonical) :
    (Tree.ofOrigin start supply origin).Canonical := by
  cases origin with
  | empty operator =>
    intro e he
    simp [Tree.ofOrigin, entries, Tree.new, Node.entries] at he
  | restored p =>
    obtain ⟨-, hshape⟩ := shape_ofPayload p start supply
    rw [canonical_iff, Tree.ofOrigin, hshape]
    exact h

theorem of_spliced (h : t.Canonical) (hs : Spliced old new t t')
    (hnew : ∀ e ∈ new, ∀ c, e.condition? = some c → c.Canonical) : t'.Canonical := by
  obtain ⟨-, -, before, after, hold, hafter⟩ := hs
  intro e he
  rw [hafter, List.mem_append, List.mem_append] at he
  rcases he with (he | he) | he
  · exact h e (by simp [hold, he])
  · exact hnew e he
  · exact h e (by simp [hold, he])

theorem edit {e : Edit} (h : t.Canonical) (he : e.Canonical) : (t.edit e).Canonical := by
  obtain ⟨old, new, hs, heffect⟩ := edit_effect t e
  cases heffect with
  | nothing hnext => exact h.of_spliced hs (by simp)
  | @addedLeaf p c q hnext =>
    have hc : c.Canonical := he
    exact h.of_spliced hs (by simpa [Entry.condition?] using hc)
  | addedGroup q hnext => exact h.of_spliced hs (by simp [Entry.condition?])
  | @updatedLeaf i u q c hnext =>
    have hc : c.Canonical := by
      obtain ⟨-, -, before, after, hold, -⟩ := hs
      exact h ⟨i, q, .leaf c⟩ (by simp [hold]) c rfl
    have hupdated := ConditionUpdate.canonical_updated hc he
    exact h.of_spliced hs (by simpa [Entry.condition?] using hupdated)
  | updatedGroup q before hnext => exact h.of_spliced hs (by simp [Entry.condition?])
  | cut q n hid hnext => exact h.of_spliced hs (by simp)
  | cleared hnext => exact h.of_spliced hs (by simp)

theorem run {edits : List Edit} (h : t.Canonical) (hedits : ∀ e ∈ edits, e.Canonical) :
    (t.run edits).Canonical := by
  induction edits generalizing t with
  | nil => exact h
  | cons e edits ih =>
    have he := h.edit (hedits e List.mem_cons_self)
    exact ih he fun d hd => hedits d (List.mem_cons_of_mem _ hd)

/-- What is sent has values in canonical form. -/
theorem payload? (h : t.Canonical) (hf : t.payload? = some f) :
    ∀ c ∈ f.conditions, c.Canonical := by
  rw [payload?_eq] at hf
  obtain ⟨-, rfl⟩ := Payload.ofClauses?_eq_some_iff.mp hf
  intro c hc
  rw [Payload.conditions, Clause.conditions_normal] at hc
  obtain ⟨d, hd, rfl⟩ := List.mem_map.mp hc
  exact Condition.canonical_sent ((canonical_iff t).mp h d hd)

end Canonical

end Tree

end RecordLogic.Filter
