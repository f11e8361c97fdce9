import RecordLogic.Proofs.Command.Failures
import RecordLogic.Proofs.Number.Whole

namespace RecordLogic

namespace Number

variable {x : Float} {n : Int}

theorem exact_neg_zero : Exact.ofFloat (-0) = .finite true 0 (-1074) := by
  decide

/-- Of the whole numbers below zero only the negative zero has no digit but zero. -/
theorem wholePart_eq_zero_iff {m : Nat} {e : Int} (hx : Exact.ofFloat x = .finite true m e)
    (hw : isWhole m e = true) : wholePart m e = 0 ↔ x = -0 := by
  constructor
  · intro hzero
    obtain rfl := eq_zero_of_wholePart hw hzero
    obtain rfl : e = -1074 := by
      have hbounds := bounds_of_finite hx
      omega
    exact eq_of_finite hx exact_neg_zero
  · intro heq
    rw [heq, exact_neg_zero, Exact.finite.injEq] at hx
    obtain ⟨-, rfl, rfl⟩ := hx
    rw [wholePart, if_neg (by decide), Nat.zero_div]

/-- The text of a whole number of at most 21 digits is the text of the integer, but that zero keeps
its sign. -/
theorem text_of_whole? (h : whole? x = some n) (hlt : n.natAbs < 10 ^ 21) :
    text x = if x = -0 then "-0" else toString n := by
  obtain ⟨negative, m, e, hx, hw, hn⟩ := exists_of_whole? h
  have hsize : wholePart m e < 1_000_000_000_000_000_000_000 := by
    have hnat : n.natAbs = wholePart m e := by split at hn <;> omega
    omega
  have htext : text x = withSign negative (toString (wholePart m e)) := by
    simp only [text, hx, hw, hsize, decide_true, Bool.and_self, ↓reduceIte]
  rw [htext]
  cases negative with
  | false =>
    have hne : x ≠ -0 := by
      intro heq
      rw [heq, exact_neg_zero, Exact.finite.injEq] at hx
      cases hx.1
    rw [if_neg hne, hn]
    rfl
  | true =>
    rw [hn]
    cases hpart : wholePart m e with
    | zero =>
      rw [if_pos ((wholePart_eq_zero_iff hx hw).mp hpart)]
      rfl
    | succ k =>
      have hne : x ≠ -0 := by
        intro heq
        rw [(wholePart_eq_zero_iff hx hw).mpr heq] at hpart
        cases hpart
      rw [if_neg hne]
      rfl

end Number

namespace Command

variable {w : Workspace} {r : EvalRequest} {x : Float} {n : Int}

/-- Where the evaluation gives a value, the command comes to showing it. -/
theorem runEval_of_evaluates (st : Style) {v : Value} (h : Evaluates w r (.ok v)) :
    runEval w st r = showValue st v := by
  obtain ⟨s, expr, form, user, hs, hexpr, hform, huser, hv⟩ := h
  have hsettings : (loadSettings w).mapError CommandError.settings = .ok s :=
    mapError_eq_ok_iff.mpr hs
  have hvalue : (r.outcome w s expr form user).mapError CommandError.evaluation = .ok v :=
    mapError_eq_ok_iff.mpr hv
  have hdocument := readDocument_eq_ok_iff.mpr ⟨hexpr, rfl⟩
  have hvalues := readOptional_of_standsAt hform
  have huserValue := readOptional_of_standsAt huser
  rw [List.nil_append] at hdocument
  rw [List.singleton_append] at hvalues
  rw [EvalRequest.outcome] at hvalue
  simp only [runEval, inputAfter_nil, hsettings, hdocument, hvalues, huserValue, hvalue,
    Procedure.attempt_ok_bind]

theorem output_of_evaluates {f : Flags} {v : Value} (h : Evaluates w r (.ok v)) :
    (Invocation.run ⟨f, .eval r⟩ w).output =
      ((showValue (styleOf w f) v).perform {}).2.output := by
  rw [Invocation.output_run, Invocation.procedure, runTask, runEval_of_evaluates _ h]

theorem toJson_of_whole? (hwhole : Number.whole? x = some n)
    (hsafe : n.natAbs ≤ Value.maxSafe) : (Value.number x).toJson = .integer n := by
  rw [Value.toJson, Value.numberJson, hwhole]
  exact if_pos hsafe

/-- The lines of a result that is an integer. -/
theorem pretty_result (n : Int) :
    (Json.ofFields [("result", some (.integer n)), ("type", some (.text "number"))]).pretty =
      "\x7b\n  \"result\": " ++ toString n ++ ",\n  \"type\": \"number\"\n\x7d" := by
  have hentries : Entries.ofList [("result", Json.integer n), ("type", .text "number")] =
      [("result", .integer n), ("type", .text "number")] :=
    Entries.ofList_of_sorted ((Entries.sorted_iff _).mpr
      (by decide : List.Pairwise (· < ·) ["result", "type"]))
  have hresult : Json.stringText "result" = "\"result\"" := by decide
  have htype : Json.stringText "type" = "\"type\"" := by decide
  have hnumber : Json.stringText "number" = "\"number\"" := by decide
  simp only [Json.ofFields, List.filterMap_cons, List.filterMap_nil, Option.map_some, hentries,
    Json.pretty, Json.prettyAt, Json.prettyEntries, Json.block, hresult, htype, hnumber]
  apply String.toList_inj.mp
  simp

theorem shown_of_whole? (hwhole : Number.whole? x = some n) (hsafe : n.natAbs ≤ Value.maxSafe) :
    shown (.number x) = if x = -0 then "-0" else toString n := by
  rw [Value.maxSafe] at hsafe
  rw [shown, Value.toText, Number.text_of_whole? hwhole (by omega)]
  all_goals simp

/-- A whole number that doubles hold exactly is shown with the digits and the sign that it has in
the document, but that the terminal shows the sign of zero and the document does not. -/
theorem whole_result_shown (hwhole : Number.whole? x = some n)
    (hsafe : n.natAbs ≤ Value.maxSafe) :
    let shownText := if x = -0 then "-0" else toString n
    shown (.number x) = shownText ∧ (Value.number x).toJson.compact = toString n ∧
      (shown (.number x) = (Value.number x).toJson.compact ↔ x ≠ -0) ∧
      ∀ (w : Workspace) (r : EvalRequest) (f : Flags), Evaluates w r (.ok (.number x)) →
        let plain : Flags := { f with json := false, quiet := false }
        (Invocation.run ⟨plain, .eval r⟩ w).output =
          lines [shownText ++ " " ++ (styleOf w plain).dimmed "(number)"] ∧
        (Invocation.run ⟨{ f with json := true }, .eval r⟩ w).output =
          lines ["\x7b\n  \"result\": " ++ toString n ++ ",\n  \"type\": \"number\"\n\x7d"] := by
  intro shownText
  have hshown : shown (.number x) = shownText := shown_of_whole? hwhole hsafe
  have hjson : (Value.number x).toJson = .integer n := toJson_of_whole? hwhole hsafe
  have hcompact : (Value.number x).toJson.compact = toString n := by
    rw [hjson, Json.compact]
  refine ⟨hshown, hcompact, ?_, ?_⟩
  · rw [hshown, hcompact]
    by_cases hzero : x = -0
    · have hn : n = 0 := by
        rw [hzero, Number.whole?_of_beq_zero (by decide)] at hwhole
        exact (Option.some.inj hwhole).symm
      have hsign : "-0" ≠ toString (0 : Int) := by decide
      simpa [shownText, hzero, hn] using hsign
    · simp [shownText, hzero]
  · intro w r f hvalue plain
    have hplain : (styleOf w plain).json = false := rfl
    have hloud : (styleOf w plain).quiet = false := rfl
    have hflag : (styleOf w { f with json := true }).json = true := rfl
    constructor
    · rw [output_of_evaluates hvalue, showValue, hshown]
      simp [hplain, hloud, Value.typeName]
    · rw [output_of_evaluates hvalue, showValue, hjson]
      simp [hflag, Value.typeName, printJson, pretty_result]

def number? : Value → Option Float
  | .number x => some x
  | _ => none

theorem number?_eq_some_iff {v : Value} : number? v = some x ↔ v = .number x := by
  cases v <;> simp [number?]

/-- A world with one file. -/
def Workspace.ofFile (path text : String) : Workspace :=
  { look := fun p => if p = path then .file text else .missing
    input := ""
    environment := Table.ofList [("RK_CONFIG", "config.toml")]
    zone := .utc
    now := .ofMillis 0 }

/-- The negative number of the largest magnitude. -/
theorem whole_result_shown_largest :
    let text := "\x7b\"type\": \"BinaryExpression\", \"operator\": \"-\", \"args\": [" ++
      "\x7b\"type\": \"Literal\", \"value\": 0\x7d, " ++
      "\x7b\"type\": \"Literal\", \"value\": 9007199254740991\x7d]\x7d"
    let w := Workspace.ofFile "e.json" text
    let r : EvalRequest := { expr := "e.json" }
    (Invocation.run ⟨{ noColor := true }, .eval r⟩ w).output = "-9007199254740991 (number)\n" ∧
      (Invocation.run ⟨{ noColor := true, json := true }, .eval r⟩ w).output =
        "\x7b\n  \"result\": -9007199254740991,\n  \"type\": \"number\"\n\x7d\n" := by
  intro text w r
  let x := Float.ofInt (-9007199254740991)
  have hread : (do
      let expr ← meaning? Formula.Expr.decode text
      let v ← (r.outcome w {} expr (.object []) .undefined).toOption
      number? v) = some x := by decide +kernel
  have hwhole : Number.whole? x = some (-9007199254740991) := by decide +kernel
  have hnegative : x ≠ -0 := by decide +kernel
  have hload : loadSettings w = .ok {} := eq_ok_of_toOption_eq_some (by decide +kernel)
  obtain ⟨expr, hexpr, hrest⟩ := Option.bind_eq_some_iff.mp hread
  obtain ⟨v, hv, hx⟩ := Option.bind_eq_some_iff.mp hrest
  obtain rfl := number?_eq_some_iff.mp hx
  have hvalue : Evaluates w r (.ok (.number x)) :=
    ⟨{}, expr, .object [], .undefined, hload, ⟨text, rfl, meaning?_eq_some_iff.mp hexpr⟩, rfl, rfl,
      eq_ok_of_toOption_eq_some hv⟩
  obtain ⟨-, -, -, hruns⟩ := whole_result_shown hwhole (by decide)
  obtain ⟨hplain, hjson⟩ := hruns w r { noColor := true } hvalue
  rw [if_neg hnegative] at hplain
  exact ⟨hplain, hjson⟩

/-- The terminal shows the sign of zero. -/
theorem negative_zero_shown_apart :
    Number.whole? (-0) = some 0 ∧ shown (.number (-0)) = "-0" ∧
      (Value.number (-0)).toJson.compact = "0" := by
  have hzero : Number.whole? (-0) = some 0 := Number.whole?_of_beq_zero (by decide)
  refine ⟨hzero, ?_, ?_⟩
  · rw [shown_of_whole? hzero (by decide), if_pos rfl]
  · rw [toJson_of_whole? hzero (by decide), Json.compact]
    rfl

end Command

end RecordLogic
