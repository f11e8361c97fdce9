import RecordLogic.Proofs.Formula.Basic
import RecordLogic.Proofs.Table

namespace RecordLogic

namespace Value

variable {v : Value} {name : String}

/-- What is found when properties are read one after the other. -/
def readPath (path : List String) (v : Value) : Value :=
  path.foldl (fun w name => w.read name) v

@[simp]
theorem readPath_nil (v : Value) : v.readPath [] = v := rfl

@[simp]
theorem readPath_cons (name : String) (path : List String) (v : Value) :
    v.readPath (name :: path) = (v.read name).readPath path := rfl

theorem read_of_primitive (h : v.isObjectLike = false) (name : String) : v.read name = v := by
  cases v with
  | date | array | object => contradiction
  | undefined | null | bool | number | text => rfl

/-- A property lies inside its value or is a number or undefined. -/
theorem read_ne_self (h : v.isObjectLike) (name : String) : v.read name ≠ v := by
  cases v with
  | undefined | null | bool | number | text => simp [isObjectLike] at h
  | date t => simp [read, property?]
  | array items =>
    simp only [read, property?]
    split
    · simp
    · intro heq
      cases hitem : (Number.readWord? 10 name.toList).bind (items[·]?) with
      | none => simp [hitem] at heq
      | some item =>
        obtain ⟨i, -, hi⟩ := Option.bind_eq_some_iff.mp hitem
        have hsize := List.sizeOf_lt_of_mem (List.mem_of_getElem? hi)
        have hitem_eq : item = array items := by simpa [hitem] using heq
        rw [hitem_eq, array.sizeOf_spec] at hsize
        omega
  | object entries =>
    intro heq
    cases hentry : Entries.find? name entries with
    | none => simp [read, property?, hentry] at heq
    | some item =>
      have hsize := List.sizeOf_lt_of_mem (Entries.mem_of_find? hentry)
      have hitem_eq : item = object entries := by simpa [read, property?, hentry] using heq
      rw [hitem_eq, Prod.mk.sizeOf_spec, object.sizeOf_spec] at hsize
      omega

theorem read_eq_self_iff : v.read name = v ↔ v.isObjectLike = false := by
  refine ⟨fun heq => ?_, fun h => read_of_primitive h name⟩
  cases hobject : v.isObjectLike with
  | false => rfl
  | true => exact absurd heq (read_ne_self hobject name)

end Value

namespace Formula

/-- A node at the end of a path of properties: it names the first one, and each member node around
it the next. A node is given here up to the property that it names, and so is the outermost one. -/
def Expr.access (base : Option String → Expr) : List String → Option String → Expr
  | [] => base
  | name :: path => access (fun p => .member p [base (some name)]) path

namespace Evaluator

open Formula.Expr (access)

variable {ev : Evaluator} {ctx : Context} {height : Nat} {node : Option String → Expr} {v : Value}

/-- A node that gives a value without calls, whatever property it names, where `height` levels below
it are within the limit. -/
structure Gives (ev : Evaluator) (ctx : Context) (height : Nat) (node : Option String → Expr)
    (v : Value) : Prop where
  property_eq : ∀ p, (node p).property = p
  value : ∀ {depth} p, depth + height ≤ ev.options.maxDepth → ev.evalAt ctx depth (node p) = pure v

theorem Gives.identifier (ev : Evaluator) (ctx : Context) (name : String) :
    Gives ev ctx 0 (.identifier · name) (ctx.formValue name) where
  property_eq _ := rfl
  value {depth} p h := by
    have hd : ¬ev.options.maxDepth < depth := by omega
    rw [evalAt, if_neg hd]

/-- A member node reads the property that the node below it names from the value of that node. -/
theorem evalAt_member_single {depth : Nat} {e : Expr} {name : String} (p : Option String)
    (hproperty : e.property = some name) (hd : ¬ev.options.maxDepth < depth)
    (hvalue : ev.evalAt ctx (depth + 1) e = pure v) :
    ev.evalAt ctx depth (.member p [e]) = pure (v.read name) := by
  rw [evalAt_member _ _ hd, evalFirst, hvalue, pure_bind]
  simp [readFrom, hproperty]

theorem Gives.member (h : Gives ev ctx height node v) (name : String) :
    Gives ev ctx (height + 1) (fun p => .member p [node (some name)]) (v.read name) where
  property_eq _ := rfl
  value {depth} p hlimit := by
    have hvalue : ev.evalAt ctx (depth + 1) (node (some name)) = pure v :=
      h.value (some name) (by omega)
    exact evalAt_member_single p (h.property_eq _) (by omega) hvalue

/-- The property of a system identifier is read by the identifier and by the member node around
it. -/
theorem Gives.member_system (ev : Evaluator) (ctx : Context) (name property : String) :
    Gives ev ctx 1 (fun p => .member p [.system (some property) name])
      ((ctx.systemValue name).readPath [property, property]) where
  property_eq _ := rfl
  value {depth} p hlimit := by
    have hd : ¬ev.options.maxDepth < depth + 1 := by omega
    have hvalue : ev.evalAt ctx (depth + 1) (.system (some property) name) =
        pure ((ctx.systemValue name).read property) := by
      rw [evalAt, if_neg hd]
    exact evalAt_member_single p rfl (by omega) hvalue

theorem Gives.access (h : Gives ev ctx height node v) (path : List String) :
    Gives ev ctx (height + path.length) (access node path) (v.readPath path) := by
  induction path generalizing node height v with
  | nil => exact h
  | cons name path ih =>
    have hrest := ih (h.member name)
    rwa [Nat.add_right_comm, Nat.add_assoc] at hrest

/-- From a form identifier a path reads each of its properties once. From a system identifier it
reads the first one twice. That makes no difference where the first property is no object-like
value, and for a path of one property only there. -/
theorem eval_access (ev : Evaluator) (ctx : Context) (name property : String) (path : List String)
    (p : Option String) (h : (property :: path).length ≤ ev.options.maxDepth) :
    let form := ctx.formValue name
    let system := ctx.systemValue name
    let atSystem := ev.eval ctx (access (.system · name) (property :: path) p)
    ev.eval ctx (access (.identifier · name) (property :: path) p) =
        pure (form.readPath (property :: path)) ∧
      atSystem = pure (system.readPath (property :: property :: path)) ∧
      ((system.read property).isObjectLike = false →
        atSystem = pure (system.readPath (property :: path))) ∧
      (path = [] → atSystem = pure (system.readPath (property :: path)) →
        (system.read property).isObjectLike = false) := by
  intro form system atSystem
  have hform : ev.eval ctx (access (.identifier · name) (property :: path) p) =
      pure (form.readPath (property :: path)) :=
    ((Gives.identifier ev ctx name).access (property :: path)).value p (by omega)
  have hsystem : atSystem = pure (system.readPath (property :: property :: path)) := by
    have hfirst := Gives.member_system ev ctx name property
    exact (hfirst.access path).value p (by simpa [Nat.add_comm] using h)
  refine ⟨hform, hsystem, fun hprimitive => ?_, ?_⟩
  · rw [hsystem, Value.readPath_cons, Value.readPath_cons, Value.readPath_cons,
      Value.read_of_primitive hprimitive]
  · rintro rfl honce
    have houtcome := congrArg Run.outcome (hsystem.symm.trans honce)
    exact Value.read_eq_self_iff.mp (Except.ok.inj houtcome)

/-- A path through objects and into an array, as long as the limit allows. -/
theorem eval_access_address :
    let ev : Evaluator := ⟨.utc, Table.empty, { maxDepth := 3 }⟩
    let lines : Value := .array [.text "Unit 4", .text "1 Main St"]
    let customer : Value := .object [("address", .object [("lines", lines)])]
    let ctx : Context :=
      ⟨Table.ofList [("customer", customer)], Table.ofList [("REGION", .text "emea")]⟩
    let path : List String := ["address", "lines", "1"]
    path.length ≤ ev.options.maxDepth ∧
      (ev.eval ctx (access (.identifier · "customer") path none)).outcome =
        .ok (.text "1 Main St") ∧
      (ev.eval ctx (access (.system · "REGION") path none)).outcome = .ok (.text "emea") := by
  intro ev lines customer ctx path
  have hlength : path.length ≤ ev.options.maxDepth := by decide
  obtain ⟨hform, -, -, -⟩ :=
    eval_access ev ctx "customer" "address" ["lines", "1"] none hlength
  obtain ⟨-, -, hsystem, -⟩ := eval_access ev ctx "REGION" "address" ["lines", "1"] none hlength
  exact ⟨hlength, congrArg Run.outcome hform, congrArg Run.outcome (hsystem rfl)⟩

/-- The manager of the user is looked for in the manager. -/
theorem system_property_read_twice :
    let user : Value := .object [("manager", .object [("email", .text "ada@example.com")])]
    let ctx : Context := ⟨Table.ofList [("user", user)], Table.ofList [("CURRENT_USER", user)]⟩
    let ev := standard .utc
    (ev.eval ctx (access (.identifier · "user") ["manager"] none)).outcome =
        .ok (user.readPath ["manager"]) ∧
      (ev.eval ctx (access (.system · "CURRENT_USER") ["manager"] none)).outcome =
        .ok .undefined ∧
      (ev.eval ctx (access (.system · "CURRENT_USER") ["manager"] none)).outcome ≠
        .ok (user.readPath ["manager"]) := by
  intro user ctx ev
  refine ⟨rfl, rfl, ?_⟩
  intro honce
  cases honce

end Evaluator

end Formula

end RecordLogic
