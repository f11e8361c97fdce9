import RecordLogic.Formula.Wire
import RecordLogic.Proofs.Formula.Names
import RecordLogic.Proofs.Json.Record
import RecordLogic.Proofs.Value.Normal

namespace RecordLogic.Formula.Expr

open Json (Record)

variable {e e' : Expr} {es : List Expr} {r : Record}

/-- The types that have a meaning. -/
def knownTypes : List String :=
  ["Literal", "Identifier", "SystemIdentifier", "BinaryExpression", "LogicalExpression",
    "CallExpression", "MemberExpression", "AssignmentExpression"]

/-- What a node of its own can hold after it was read: the value of a literal is absent or what a
document gave, a callee is not empty and a type without a meaning is none that has one. -/
def Readable : Expr → Prop
  | literal _ v => v.isUndefined = true ∨ v.WellKeyed ∧ v.IsData (·.isFinite = true)
  | call _ callee _ => callee ≠ some ""
  | unsupported _ type => type ∉ knownTypes
  | _ => True

/-- The fields that a node is written with, given the documents of its arguments. -/
def wireFields (e : Expr) (args : List Json) : List (String × Option Json) :=
  [("type", some (.text e.typeName))] ++ e.ownFields ++
    [("args", if args.isEmpty then none else some (.array args)),
      ("property", e.property.map fun p => Json.ofFields [("name", some (.text p))])]

theorem encode_eq (e : Expr) : e.encode = Json.ofFields (e.wireFields (encodeAll e.children)) := by
  cases e <;> simp only [encode, children, encodeAll] <;> rfl

theorem decodeArgs_eq (entries : List (String × Json)) : decodeArgs entries =
    match entries.lookup "args" with
    | some j => decodeList j
    | none => .ok [] := by
  induction entries with
  | nil => simp [decodeArgs]
  | cons entry entries ih =>
    obtain ⟨k, j⟩ := entry
    rw [decodeArgs]
    by_cases hk : k = "args"
    · subst hk
      simp
    · rw [if_neg hk, ih, List.lookup_cons, beq_false_of_ne (Ne.symm hk)]

theorem exists_record (e : Expr) {args : List Json} (h : decodeAll args = .ok es) :
    ∃ r, decode (Json.ofFields (e.wireFields args)) = ofRecord r es ∧
      ∀ name, r.lookup name = ((e.wireFields args).lookup name).join := by
  obtain ⟨r, hr, hlookup⟩ := Json.record_ofFields fields (e.wireFields args)
    (by cases e <;> simp [wireFields, ownFields, fields])
    (by cases e <;> simp [wireFields, ownFields])
  refine ⟨r, ?_, hlookup⟩
  have hargs : r.lookup "args" = if args.isEmpty then none else some (.array args) := by
    rw [hlookup]
    cases e <;> simp [wireFields, ownFields, List.lookup_cons]
  rw [Json.ofFields] at hr ⊢
  rw [Json.lookup_of_record_object hr (by simp [fields])] at hargs
  have hes : decodeArgs (Entries.ofList ((e.wireFields args).filterMap fun f => f.2.map (f.1, ·))) =
      .ok es := by
    rw [decodeArgs_eq, hargs]
    cases args with
    | nil => simpa [decodeAll] using h
    | cons j js => simpa [decodeList] using h
  rw [decode, hr, hes]
  rfl

theorem decodeProperty_ofFields (p : String) :
    decodeProperty (Json.ofFields [("name", some (.text p))]) = .ok p := by
  obtain ⟨r, hr, hlookup⟩ := Json.record_ofFields ⟨["name"], 1⟩ [("name", some (.text p))]
    (by simp) (by simp)
  have hname : r.required "name" Json.Decode.text = .ok p :=
    Record.required_of_lookup (hlookup "name") rfl
  simp only [decodeProperty, hr, bind, Except.bind, hname]

def ownName : Expr → Option String
  | identifier _ name | system _ name => some name
  | _ => none

def ownOperator : Expr → Option String
  | binary _ operator _ | logical _ operator _ => some operator
  | _ => none

def ownCallee : Expr → Option String
  | call _ callee _ => callee
  | _ => none

def ownValue : Expr → Value
  | literal _ v => v
  | _ => .undefined

/-- The node that a type with its fields makes. -/
def ofParts (property : Option String) (type name operator : String) (callee : Option String)
    (value : Value) (args : List Expr) : Expr :=
  match type with
  | "Literal" => literal property value
  | "Identifier" => identifier property name
  | "SystemIdentifier" => system property name
  | "BinaryExpression" => binary property operator args
  | "LogicalExpression" => logical property operator args
  | "CallExpression" => call property (callee.filter (· ≠ "")) args
  | "MemberExpression" => member property args
  | "AssignmentExpression" => assignment property args
  | _ => unsupported property type

theorem ofParts_of_unknown {type : String} (h : type ∉ knownTypes) (p : Option String)
    (name operator : String) (callee : Option String) (v : Value) :
    ofParts p type name operator callee v es = unsupported p type := by
  rw [ofParts] <;> rintro rfl <;> exact h (by simp [knownTypes])

/-- A node is made of its type, its own fields and its arguments. -/
theorem same_ofParts (he : e.Readable) (hes : sameAll e.children es = true) {v : Value}
    (hv : e.ownValue.same v = true) :
    e.same (ofParts e.property e.typeName (e.ownName.getD "") (e.ownOperator.getD "") e.ownCallee v
      es) = true := by
  cases e with
  | literal p w => simpa [ofParts, typeName, same, property, ownValue] using hv
  | identifier p name => simp [ofParts, typeName, same, property, ownName]
  | system p name => simp [ofParts, typeName, same, property, ownName]
  | binary p operator args =>
    simpa [ofParts, typeName, same, property, ownOperator, children] using hes
  | logical p operator args =>
    simpa [ofParts, typeName, same, property, ownOperator, children] using hes
  | call p callee args =>
    have hcallee : callee.filter (· ≠ "") = callee := by
      cases callee with
      | none => rfl
      | some s =>
        have hne : s ≠ "" := fun h => he (congrArg some h)
        simp [hne]
    simp only [ofParts, typeName, property, ownCallee, hcallee]
    simpa [same, children] using hes
  | member p args => simpa [ofParts, typeName, same, property, children] using hes
  | assignment p args => simpa [ofParts, typeName, same, property, children] using hes
  | unsupported p type =>
    rw [typeName, ofParts_of_unknown he]
    simp [same, property]

/-- The value that is read for a node differs from its own in the sign of zeros at most. -/
theorem exists_value (he : e.Readable) {args : List Json}
    (hr : r.lookup "value" = ((e.wireFields args).lookup "value").join) :
    ∃ v, r.defaulted "value" .undefined Value.decode = .ok v ∧ e.ownValue.same v = true := by
  cases e with
  | literal p v =>
    rcases he with hundefined | ⟨hkeyed, hdata⟩
    · cases v <;> simp only [Value.isUndefined, Bool.false_eq_true] at hundefined
      refine ⟨.undefined, Record.defaulted_of_lookup hr (by simp) ?_, rfl⟩
      simp [wireFields, ownFields, List.lookup_cons, Value.isUndefined]
    · have hdefined : v.isUndefined = false := by
        cases v <;> simp [Value.IsData, Value.isUndefined] at hdata ⊢
      refine ⟨v.normal, Record.defaulted_of_lookup hr ?_ ?_, Value.same_normal v hdata⟩
      · simp [wireFields, ownFields, List.lookup_cons, hdefined]
      · simp [wireFields, ownFields, List.lookup_cons, hdefined, Value.decode,
          Value.ofJson_toJson v hkeyed]
  | _ =>
    refine ⟨.undefined, Record.defaulted_of_lookup hr (by simp) ?_, rfl⟩
    simp [wireFields, ownFields, List.lookup_cons]

/-- A node is read with the type and the fields that it was written with; of a literal only the sign
of zeros is lost. -/
theorem ofRecord_same (he : e.Readable) {args : List Json}
    (hr : ∀ name, r.lookup name = ((e.wireFields args).lookup name).join)
    (hes : sameAll e.children es = true) :
    ∃ e', ofRecord r es = .ok e' ∧ e.same e' = true := by
  obtain ⟨v, hvalue, hv⟩ := exists_value he (hr "value")
  have htype : r.required "type" Json.Decode.text = .ok e.typeName := by
    refine Record.required_of_lookup (j := .text e.typeName) ((hr "type").trans ?_) rfl
    simp [wireFields]
  have htext : ∀ name own, ((e.wireFields args).lookup name).join = own.map .text →
      r.optional name Json.Decode.text = .ok own := fun name own h =>
    Record.optional_of_lookup ((hr name).trans h) fun x _ => ⟨by simp, rfl⟩
  have hname : r.optional "name" Json.Decode.text = .ok e.ownName := by
    apply htext
    cases e <;> simp [wireFields, ownFields, List.lookup_cons, ownName]
  have hoperator : r.optional "operator" Json.Decode.text = .ok e.ownOperator := by
    apply htext
    cases e <;> simp [wireFields, ownFields, List.lookup_cons, ownOperator]
  have hcallee : r.optional "callee" Json.Decode.text = .ok e.ownCallee := by
    apply htext
    cases e <;> simp [wireFields, ownFields, List.lookup_cons, ownCallee]
  have hproperty : r.optional "property" decodeProperty = .ok e.property := by
    have hwritten : ((e.wireFields args).lookup "property").join =
        e.property.map fun p => Json.ofFields [("name", some (.text p))] := by
      cases e <;> simp [wireFields, ownFields, List.lookup_cons, property]
    exact Record.optional_of_lookup ((hr "property").trans hwritten) fun p _ =>
      ⟨by simp [Json.ofFields], decodeProperty_ofFields p⟩
  refine ⟨_, ?_, same_ofParts he hes hv⟩
  simp only [ofRecord, htype, hvalue, hname, hoperator, hcallee, hproperty, bind, Except.bind]
  rfl

theorem decodeAll_encodeAll (h : ∀ c ∈ es, ∃ c', decode c.encode = .ok c' ∧ c.same c' = true) :
    ∃ es', decodeAll (encodeAll es) = .ok es' ∧ sameAll es es' = true := by
  induction es with
  | nil => exact ⟨[], by simp [encodeAll, decodeAll], by simp [sameAll]⟩
  | cons c es ih =>
    obtain ⟨c', hc, hsame⟩ := h c List.mem_cons_self
    obtain ⟨es', hes, hsames⟩ := ih fun d hd => h d (List.mem_cons_of_mem _ hd)
    refine ⟨c' :: es', ?_, by rw [sameAll, hsame, hsames]; rfl⟩
    rw [encodeAll, decodeAll, hc, hes]
    rfl

theorem decode_encode (h : ∀ n ∈ e.nodes, n.Readable) :
    ∃ e', decode e.encode = .ok e' ∧ e.same e' = true := by
  induction e using childrenInduction with
  | node e ih =>
    have hchildren : ∀ c ∈ e.children, ∃ c', decode c.encode = .ok c' ∧ c.same c' = true :=
      fun c hc => ih c hc fun n hn => h n (nodes_subset hc hn)
    obtain ⟨es, hes, hsame⟩ := decodeAll_encodeAll hchildren
    obtain ⟨r, hdecode, hlookup⟩ := exists_record e hes
    rw [encode_eq, hdecode]
    exact ofRecord_same (h e (mem_nodes_self e)) hlookup hsame

theorem readable_ofParts {p : Option String} {type name operator : String}
    {callee : Option String} {v : Value}
    (hv : v.isUndefined = true ∨ v.WellKeyed ∧ v.IsData (·.isFinite = true)) :
    (ofParts p type name operator callee v es).Readable ∧
      (ofParts p type name operator callee v es).children ⊆ es := by
  rw [ofParts.eq_def]
  split
  case h_1 => exact ⟨hv, List.nil_subset _⟩
  case h_6 => exact ⟨by simp [Readable, Option.filter_eq_some_iff], List.Subset.refl _⟩
  case h_9 => exact ⟨by simp_all [Readable, knownTypes], List.nil_subset _⟩
  all_goals exact ⟨trivial, by simp [children]⟩

theorem readable_of_ofRecord (hr : ∀ j, r.lookup "value" = some j → j.Finite)
    (h : ofRecord r es = .ok e) : e.Readable ∧ e.children ⊆ es := by
  obtain ⟨type, -, h⟩ := Json.bind_eq_ok.mp h
  obtain ⟨v, hvalue, h⟩ := Json.bind_eq_ok.mp h
  obtain ⟨name, -, h⟩ := Json.bind_eq_ok.mp h
  obtain ⟨operator, -, h⟩ := Json.bind_eq_ok.mp h
  obtain ⟨callee, -, h⟩ := Json.bind_eq_ok.mp h
  obtain ⟨property, -, h⟩ := Json.bind_eq_ok.mp h
  cases h
  refine readable_ofParts ?_
  rw [Record.defaulted] at hvalue
  split at hvalue
  · cases hvalue
    exact Or.inl rfl
  · rename_i j hj
    cases hvalue
    exact Or.inr ⟨Value.wellKeyed_ofJson j, Value.isData_ofJson j (hr j hj)⟩

theorem mem_nodesAll_iff {n : Expr} : n ∈ nodesAll es ↔ ∃ c ∈ es, n ∈ c.nodes := by
  induction es with
  | nil => simp [nodesAll]
  | cons c es ih => simp [nodesAll, ih]

theorem finite_of_record {j v : Json} {name : String} (hj : j.Finite)
    (h : Json.record fields j = .ok r) (hv : r.lookup name = some v) : v.Finite := by
  rw [← Entries.find?_eq_lookup] at hv
  have hmem := Entries.mem_of_find? hv
  cases j with
  | object entries =>
    rw [Json.Finite, Json.finiteEntries_iff] at hj
    simp only [Json.record] at h
    split at h
    · cases h
    · cases h
      exact hj _ (List.mem_filter.mp hmem).1
  | array items =>
    rw [Json.Finite, Json.finiteItems_iff] at hj
    simp only [Json.record] at h
    split at h
    · cases h
      exact hj v (List.of_mem_zip hmem).2
    · cases h
  | null | bool b | integer n | float x | text s => simp [Json.record] at h

theorem readable_nodes {j : Json} (hj : j.Finite) (hr : Json.record fields j = .ok r)
    (hes : ∀ c ∈ es, ∀ n ∈ c.nodes, n.Readable) (h : ofRecord r es = .ok e) :
    ∀ n ∈ e.nodes, n.Readable := by
  obtain ⟨he, hsubset⟩ := readable_of_ofRecord (fun v hv => finite_of_record hj hr hv) h
  intro n hn
  rw [nodes_eq, List.mem_cons, mem_nodesAll_iff] at hn
  rcases hn with rfl | ⟨c, hc, hn⟩
  · exact he
  · exact hes c (hsubset hc) n hn

mutual

theorem readable_of_decode (j : Json) (hj : j.Finite) {e : Expr} (h : decode j = .ok e) :
    ∀ n ∈ e.nodes, n.Readable := by
  cases j with
  | object entries =>
    rw [decode] at h
    obtain ⟨r, hr, h⟩ := Json.bind_eq_ok.mp h
    obtain ⟨args, hargs, h⟩ := Json.bind_eq_ok.mp h
    rw [Json.Finite] at hj
    exact readable_nodes (by rwa [Json.Finite]) hr (readable_of_decodeArgs entries hj hargs) h
  | array items =>
    rw [decode] at h
    obtain ⟨r, hr, h⟩ := Json.bind_eq_ok.mp h
    obtain ⟨args, hargs, h⟩ := Json.bind_eq_ok.mp h
    rw [Json.Finite] at hj
    exact readable_nodes (by rwa [Json.Finite]) hr (readable_of_decodeArgsAt 5 items hj hargs) h
  | null | bool b | integer n | float x | text s => simp [decode] at h

theorem readable_of_decodeArgs (entries : List (String × Json)) (hj : Json.FiniteEntries entries)
    {es : List Expr} (h : decodeArgs entries = .ok es) : ∀ c ∈ es, ∀ n ∈ c.nodes, n.Readable := by
  match entries with
  | [] =>
    rw [decodeArgs] at h
    cases h
    simp
  | (k, j) :: entries =>
    rw [Json.FiniteEntries] at hj
    rw [decodeArgs] at h
    split at h
    · exact readable_of_decodeList j hj.1 h
    · exact readable_of_decodeArgs entries hj.2 h

theorem readable_of_decodeArgsAt (skip : Nat) (js : List Json) (hj : Json.FiniteItems js)
    {es : List Expr} (h : decodeArgsAt skip js = .ok es) : ∀ c ∈ es, ∀ n ∈ c.nodes, n.Readable := by
  match skip, js with
  | _, [] =>
    rw [decodeArgsAt] at h
    cases h
    simp
  | 0, j :: _ =>
    rw [Json.FiniteItems] at hj
    rw [decodeArgsAt] at h
    exact readable_of_decodeList j hj.1 h
  | skip + 1, _ :: js =>
    rw [Json.FiniteItems] at hj
    rw [decodeArgsAt] at h
    exact readable_of_decodeArgsAt skip js hj.2 h

theorem readable_of_decodeList (j : Json) (hj : j.Finite) {es : List Expr}
    (h : decodeList j = .ok es) : ∀ c ∈ es, ∀ n ∈ c.nodes, n.Readable := by
  cases j with
  | array js =>
    rw [Json.Finite] at hj
    rw [decodeList] at h
    exact readable_of_decodeAll js hj h
  | object es | null | bool b | integer n | float x | text s => simp [decodeList] at h

theorem readable_of_decodeAll (js : List Json) (hj : Json.FiniteItems js) {es : List Expr}
    (h : decodeAll js = .ok es) : ∀ c ∈ es, ∀ n ∈ c.nodes, n.Readable := by
  match js with
  | [] =>
    rw [decodeAll] at h
    cases h
    simp
  | j :: js =>
    rw [Json.FiniteItems] at hj
    rw [decodeAll] at h
    obtain ⟨c, hc, h⟩ := Json.bind_eq_ok.mp h
    obtain ⟨cs, hcs, h⟩ := Json.bind_eq_ok.mp h
    cases h
    rw [List.forall_mem_cons]
    exact ⟨readable_of_decode j hj.1 hc, readable_of_decodeAll js hj.2 hcs⟩

end

/-- A formula that was read from a document is written as a document that is read as the same
formula, whatever its nodes. -/
theorem decode_encode_same {j : Json} (hj : j.Finite) (h : decode j = .ok e) :
    ∃ e', decode e.encode = .ok e' ∧ e.same e' = true :=
  decode_encode (readable_of_decode j hj h)

theorem decode_encode_same_nested :
    let j : Json := .object [("type", .text "CallExpression"), ("callee", .text ""),
      ("property", .object [("name", .text "email")]),
      ("args", .array [.object [("type", .text "Literal"), ("value", .null)],
        .object [("type", .text "Literal")],
        .object [("type", .text "Literal"), ("value", .object [("b", .array [.integer 1, .null]),
          ("a", .float (-0)), ("b", .float 2.5)])],
        .object [("type", .text "BinaryExpression"), ("args", .array [.array [.text "Literal"]])],
        .object [("type", .text "Conditional"), ("name", .text "x")]])]
    let e : Expr := call (some "email") none [literal none .null, literal none .undefined,
      literal none (.object [("a", .number (-0)), ("b", .number 2.5)]),
      binary none "" [literal none .undefined], unsupported none "Conditional"]
    j.Finite ∧ decode j = .ok e ∧ ∃ e', decode e.encode = .ok e' ∧ e.same e' = true := by
  intro j e
  have hj : j.Finite := by
    have hone : (Float.ofInt 1).isFinite = true := by decide
    have hhalf : (2.5 : Float).isFinite = true := by decide
    have hzero : (-0 : Float).isFinite = true := by decide
    simp [j, Json.Finite, Json.FiniteEntries, Json.FiniteItems, hone, hhalf, hzero]
  have he : decode j = .ok e := by
    simp only [j, e]
    rfl
  exact ⟨hj, he, decode_encode_same hj he⟩

end RecordLogic.Formula.Expr
