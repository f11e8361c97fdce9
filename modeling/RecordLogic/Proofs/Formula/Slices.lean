import Mathlib
import RecordLogic.Proofs.Formula.Calls
import RecordLogic.Proofs.Number.Truncate

namespace RecordLogic

variable {x : Float} {n : Nat}

/-- A count is the number without its fraction, but no more than a word holds. -/
theorem Number.toCount_of_truncate? (h : truncate? x = some (n : Int)) :
    toCount x = min n maxWord := by
  cases hx : Exact.ofFloat x with
  | nan => simp [truncate?, hx] at h
  | infinite negative => simp [truncate?, hx] at h
  | finite negative m e =>
    rw [truncate?_of_finite hx, Option.some.injEq] at h
    cases negative with
    | false =>
      obtain rfl : wholePart m e = n := by simpa using h
      simp only [toCount, hx]
    | true =>
      obtain rfl : n = 0 := by simp at h; omega
      simp only [toCount, hx, Nat.zero_min]

namespace Formula

variable {zone : Time.Zone} {s : String} {v w : Value} {rest : Arguments} {cs : List Char}

namespace Arguments

theorem text_text (s : String) (rest : Arguments) : text (.text s :: rest) 0 = s := by
  have harg : arg (.text s :: rest) 0 = .text s := rfl
  rw [text, harg, Value.toText]
  rfl

theorem count_of_defined {args : Arguments} {i default : Nat} (hv : args.arg i = v)
    (hdefined : v.isUndefined = false) : args.count i default = Number.toCount v.toNumber := by
  rw [count, hv, hdefined]
  rfl

theorem isUndefined_of_truncate? {n : Int} (h : Number.truncate? v.toNumber = some n) :
    v.isUndefined = false := by
  cases v with
  | undefined =>
    have hnone : Number.truncate? Number.nan = none := by decide
    rw [Value.toNumber, hnone] at h
    cases h
  | _ => rfl

theorem count_of_truncate? {args : Arguments} {i default : Nat} (hv : args.arg i = v)
    (h : Number.truncate? v.toNumber = some (n : Int)) (hn : n ≤ Number.maxWord) :
    args.count i default = n := by
  rw [count_of_defined hv (isUndefined_of_truncate? h), Number.toCount_of_truncate? h,
    Nat.min_eq_left hn]

end Arguments

theorem left_text (s : String) (rest : Arguments) :
    left (.text s :: rest) =
      .text (String.ofList (s.toList.take (Arguments.count (.text s :: rest) 1 1))) := by
  rw [left, Arguments.text_text]

theorem right_text (s : String) (rest : Arguments) :
    right (.text s :: rest) = .text (String.ofList
      (s.toList.drop (s.length - Arguments.count (.text s :: rest) 1 1))) := by
  rw [right, Arguments.text_text, String.length_toList]

theorem substring_text (s : String) (rest : Arguments) :
    substring (.text s :: rest) = .text (String.ofList
      ((s.toList.drop (Arguments.count (.text s :: rest) 1 0)).take
        (Arguments.count (.text s :: rest) 2 Number.maxWord))) := by
  rw [substring, Arguments.text_text]

theorem len_text (s : String) : len [.text s] = .number (Float.ofNat s.length) := by
  have harg : Arguments.arg [.text s] 0 = .text s := rfl
  rw [len, harg]
  simp only [Value.toText]

/-- Without a length a slice goes to the end, as no text in memory is longer than a word counts. -/
theorem substring_rest (hs : s.length ≤ Number.maxWord) (v : Value) :
    substring [.text s, v] =
      .text (String.ofList (s.toList.drop (Arguments.count [.text s, v] 1 0))) := by
  have hcount : Arguments.count [.text s, v] 2 Number.maxWord = Number.maxWord := rfl
  have hlength : (s.toList.drop (Arguments.count [.text s, v] 1 0)).length ≤ Number.maxWord := by
    rw [List.length_drop, String.length_toList]
    omega
  rw [substring_text, hcount, List.take_of_length_le hlength]

theorem truncate?_number {n : Nat} (hn : n < 2 ^ 53) :
    Number.truncate? (Value.number (Float.ofNat n)).toNumber = some (n : Int) := by
  rw [Value.toNumber, Number.truncate?_ofNat hn]
  rfl

/-- A text that is no longer than a word counts, as every text in memory, is cut into what lies left
of a place and what begins there, whatever value but undefined gives the place; into three parts by
two places that are whole numbers; and into a first part and a last one of `n` characters. All
lengths are numbers of characters. -/
theorem slices_partition (zone : Time.Zone) (hs : s.length ≤ Number.maxWord) :
    let call := (Registry.builtin zone).call
    let number (n : Nat) : Value := .number (Float.ofNat n)
    (∀ c : Value, c.isUndefined = false → ∃ a b, call "LEFT" [.text s, c] = .ok (.text a) ∧
      call "SUBSTRING" [.text s, c] = .ok (.text b) ∧ a ++ b = s) ∧
    (∀ i l : Nat, i + l < 2 ^ 53 → ∃ a b c, call "LEFT" [.text s, number i] = .ok (.text a) ∧
      call "SUBSTRING" [.text s, number i, number l] = .ok (.text b) ∧
      call "SUBSTRING" [.text s, number (i + l)] = .ok (.text c) ∧ a ++ b ++ c = s ∧
      call "LEN" [.text b] = .ok (number (min l (s.length - min i s.length)))) ∧
    ∀ n ≤ s.length, ∀ v w : Value, Number.truncate? v.toNumber = some ((s.length - n : Nat) : Int) →
      Number.truncate? w.toNumber = some (n : Int) →
      ∃ a b, call "LEFT" [.text s, v] = .ok (.text a) ∧ call "RIGHT" [.text s, w] = .ok (.text b) ∧
        a ++ b = s := by
  intro call number
  have hcall : ∀ (b : Builtin) args, call b.name args = b.apply zone args :=
    Registry.call_builtin zone
  have hleft : ∀ args, call "LEFT" args = .ok (left args) := hcall .left
  have hright : ∀ args, call "RIGHT" args = .ok (right args) := hcall .right
  have hsubstring : ∀ args, call "SUBSTRING" args = .ok (substring args) := hcall .substring
  have hlen : ∀ args, call "LEN" args = .ok (len args) := hcall .len
  have hmax : ∀ k < 2 ^ 53, k ≤ Number.maxWord := by
    intro k hk
    rw [Number.maxWord]
    omega
  refine ⟨?_, ?_, ?_⟩
  · intro c hc
    let k := Number.toCount c.toNumber
    have hcount : ∀ default, Arguments.count [.text s, c] 1 default = k := by
      intro default
      exact Arguments.count_of_defined rfl hc
    refine ⟨String.ofList (s.toList.take k), String.ofList (s.toList.drop k), ?_, ?_, ?_⟩
    · rw [hleft, left_text, hcount]
    · rw [hsubstring, substring_rest hs, hcount]
    · rw [← String.ofList_append, List.take_append_drop, String.ofList_toList]
  · intro i l hil
    have hcount : ∀ k < 2 ^ 53, ∀ rest default,
        Arguments.count (.text s :: number k :: rest) 1 default = k := by
      intro k hk rest default
      exact Arguments.count_of_truncate? rfl (truncate?_number hk) (hmax k hk)
    have hlength : Arguments.count [.text s, number i, number l] 2 Number.maxWord = l :=
      Arguments.count_of_truncate? rfl (truncate?_number (by omega)) (hmax l (by omega))
    let middle := (s.toList.drop i).take l
    refine ⟨String.ofList (s.toList.take i), String.ofList middle,
      String.ofList (s.toList.drop (i + l)), ?_, ?_, ?_, ?_, ?_⟩
    · rw [hleft, left_text, hcount i (by omega)]
    · rw [hsubstring, substring_text, hcount i (by omega), hlength]
    · rw [hsubstring, substring_rest hs, hcount (i + l) hil]
    · rw [← String.ofList_append, ← String.ofList_append, List.append_assoc, ← List.drop_drop,
        List.take_append_drop, List.take_append_drop, String.ofList_toList]
    · have hmiddle : middle.length = min l (s.length - min i s.length) := by
        rw [List.length_take, List.length_drop, String.length_toList]
        omega
      rw [hlen, len_text, String.length_ofList, hmiddle]
  · intro n hn v w hv hw
    let k := s.length - n
    have hplace : Arguments.count [.text s, v] 1 1 = k :=
      Arguments.count_of_truncate? rfl hv (by omega)
    have hlength : Arguments.count [.text s, w] 1 1 = n :=
      Arguments.count_of_truncate? rfl hw (by omega)
    refine ⟨String.ofList (s.toList.take k), String.ofList (s.toList.drop k), ?_, ?_, ?_⟩
    · rw [hleft, left_text, hplace]
    · rw [hright, right_text, hlength]
    · rw [← String.ofList_append, List.take_append_drop, String.ofList_toList]

/-- Some characters take more than one byte; places are infinite, whole or have a fraction. -/
theorem slices_partition_accents :
    let s := "naïve 👍"
    let call := (Registry.builtin .utc).call
    let number (n : Nat) : Value := .number (Float.ofNat n)
    s.length ≤ Number.maxWord ∧ s.length = 7 ∧ s.utf8ByteSize = 11 ∧
      (∃ a b, call "LEFT" [.text s, .number (-Number.infinity)] = .ok (.text a) ∧
        call "SUBSTRING" [.text s, .number (-Number.infinity)] = .ok (.text b) ∧ a ++ b = s) ∧
      (∃ a b c, call "LEFT" [.text s, number 2] = .ok (.text a) ∧
        call "SUBSTRING" [.text s, number 2, number 9] = .ok (.text b) ∧
        call "SUBSTRING" [.text s, number 11] = .ok (.text c) ∧ a ++ b ++ c = s ∧
        call "LEN" [.text b] = .ok (number 5)) ∧
      Number.truncate? (Value.number 6.5).toNumber = some 6 ∧
      Number.truncate? (Value.text " 1 ").toNumber = some 1 ∧
      ∃ a b, call "LEFT" [.text s, .number 6.5] = .ok (.text a) ∧
        call "RIGHT" [.text s, .text " 1 "] = .ok (.text b) ∧ a ++ b = s := by
  intro s call number
  have hlength : s.length = 7 := by decide
  have hmax : s.length ≤ Number.maxWord := by decide
  have hplace : Number.truncate? (Value.number 6.5).toNumber = some 6 := by decide
  have hcount : Number.truncate? (Value.text " 1 ").toNumber = some 1 := by decide +kernel
  obtain ⟨hany, hwhole, hright⟩ := slices_partition .utc hmax
  have hparts := hwhole 2 9 (by decide)
  have hfive : min 9 (s.length - min 2 s.length) = 5 := by
    rw [hlength]
    rfl
  rw [hfive] at hparts
  have hends := hright 1 (by omega) (.number 6.5) (.text " 1 ")
  rw [hlength] at hends
  exact ⟨hmax, hlength, by decide, hany _ rfl, hparts, hplace, hcount, hends hplace hcount⟩

end Formula

end RecordLogic
