import RecordLogic.Formula.Operator
import RecordLogic.Proofs.Value.Order

namespace RecordLogic.Formula

open BinaryOperator (equal less lessEqual greater greaterEqual)
open Number (Unordered)
open Value (Equated)

variable {zone : Time.Zone} {a b : Value} {rel : Float → Float → Bool}

theorem orderKeys_swap (zone : Time.Zone) (a b : Value) :
    orderKeys zone b a = (orderKeys zone a b).swap := by
  rw [orderKeys, orderKeys]
  cases a.asDate? zone <;> cases b.asDate? zone <;> rfl

/-- A comparison of two values is the mirrored comparison of the two the other way around. -/
theorem ordered_swap (zone : Time.Zone) (rel : Float → Float → Bool) (a b : Value) :
    ordered zone rel a b = ordered zone (fun x y => rel y x) b a := by
  rw [ordered, ordered, orderKeys_swap zone a b]
  rfl

theorem orderKeys_of_none (h : a.asDate? zone = none ∨ b.asDate? zone = none) :
    orderKeys zone a b = (a.toNumber, b.toNumber) := by
  rw [orderKeys.eq_def]
  split
  · rename_i hb ha
    simp_all
  · rfl

theorem asDate?_of_isNumeric (h : a.isNumeric = true) : a.asDate? zone = none := by
  cases a <;> first | rfl | cases h

theorem toNumber_of_isTextual (h : a.isTextual = true) : a.toNumber = Number.ofText a.toText := by
  cases a with
  | text s => rw [Value.toNumber, Value.toText]
  | array items => rw [Value.toNumber]
  | object entries =>
    have hnan : Number.nan = Number.ofText "[object Object]" := by decide
    rw [Value.toText, Value.toNumber, hnan]
  | _ => cases h

/-- Texts that look like dates are compared as instants, all other texts by their numbers; values of
one text are compared alike. -/
theorem orderKeys_of_texts (ha : a.isTextual = true) (hb : b.isTextual = true)
    (h : a.toText = b.toText) : (orderKeys zone a b).1 = (orderKeys zone a b).2 := by
  have hnumber : a.toNumber = b.toNumber := by
    rw [toNumber_of_isTextual ha, toNumber_of_isTextual hb, h]
  rw [orderKeys.eq_def]
  split
  · rename_i s t hs ht
    cases a <;> cases b <;> simp_all [Value.asDate?, Value.toText, Value.isTextual]
  · exact hnumber

theorem isNaN_nan : Number.nan.isNaN = true := by
  decide

theorem unordered_of_isNullish (ha : a.isNullish = true) (hb : b.isNullish = true) :
    Unordered a.toNumber b.toNumber := by
  cases a with
  | undefined => exact Number.unordered_of_isNaN isNaN_nan _
  | null =>
    cases b with
    | undefined => exact (Number.unordered_of_isNaN isNaN_nan _).symm
    | null => exact Number.unordered_self _
    | _ => cases hb
  | _ => cases ha

/-- Loosely equal values are compared by numbers of which neither is less. -/
theorem unordered_orderKeys (h : a.looseEq zone b = true) :
    Unordered (orderKeys zone a b).1 (orderKeys zone a b).2 := by
  cases Value.equated_of_looseEq h with
  | nullish hleft hright =>
    have hdate : a.asDate? zone = none := by cases a <;> first | rfl | cases hleft
    rw [orderKeys_of_none (Or.inl hdate)]
    exact unordered_of_isNullish hleft hright
  | numbers _ hnumeric h =>
    have hdate : a.asDate? zone = none ∨ b.asDate? zone = none :=
      ((Bool.or_eq_true ..).mp hnumeric).imp asDate?_of_isNumeric asDate?_of_isNumeric
    rw [orderKeys_of_none hdate]
    exact Number.unordered_of_beq h
  | instants hs ht hmillis _ =>
    rw [orderKeys, hs, ht]
    simp only [hmillis]
    exact Number.unordered_self _
  | texts hleft hright h =>
    rw [orderKeys_of_texts hleft hright h]
    exact Number.unordered_self _
  | arrays =>
    rw [orderKeys_of_none (Or.inl rfl)]
    have hitem := Value.unordered_itemText h
    rwa [Value.itemText_eq_of_textual rfl, Value.itemText_eq_of_textual rfl] at hitem
  | objects =>
    rw [orderKeys_of_none (Or.inl rfl)]
    exact Number.unordered_of_isNaN isNaN_nan _

/-- The four orderings and loose equality fit together on all values: the mirrored orderings agree,
and of two values of which one is less than the other no other order and no equality holds. -/
theorem comparisons_coherent (zone : Time.Zone) (a b : Value) :
    less.apply zone a b = greater.apply zone b a ∧
      lessEqual.apply zone a b = greaterEqual.apply zone b a ∧
      (less.apply zone a b = .bool true → lessEqual.apply zone a b = .bool true ∧
        lessEqual.apply zone b a = .bool false ∧ equal.apply zone a b = .bool false) := by
  have hmirror (rel : Float → Float → Bool) :
      Value.bool (ordered zone rel a b) = .bool (ordered zone (fun x y => rel y x) b a) :=
    congrArg Value.bool (ordered_swap zone rel a b)
  refine ⟨hmirror _, hmirror _, fun hless => ?_⟩
  have hlt : (orderKeys zone a b).1 < (orderKeys zone a b).2 := by
    simpa [BinaryOperator.apply, ordered] using hless
  refine ⟨?_, ?_, ?_⟩
  · simpa [BinaryOperator.apply, ordered] using Number.le_of_lt hlt
  · have hnot := Number.not_le_of_lt hlt
    simpa [BinaryOperator.apply, ordered, orderKeys_swap zone a b] using hnot
  · rw [BinaryOperator.apply]
    cases hequal : a.looseEq zone b with
    | false => rfl
    | true => exact absurd hlt (unordered_orderKeys hequal).1

theorem comparisons_coherent_nested :
    let a : Value := .array [.array [.number 0.1]]
    let b : Value := .text " 0x1 "
    less.apply .utc a b = .bool true ∧ lessEqual.apply .utc b a = .bool false ∧
      equal.apply .utc a b = .bool false := by
  intro a b
  have hless : less.apply .utc a b = .bool true := by
    rw [BinaryOperator.apply, Value.bool.injEq]
    decide +kernel
  have hcoherent := (comparisons_coherent .utc a b).2.2 hless
  exact ⟨hless, hcoherent.2⟩

end RecordLogic.Formula
