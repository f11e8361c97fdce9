import Mathlib
import RecordLogic.Proofs.Number.Literal
import RecordLogic.Proofs.Number.NotNaN
import RecordLogic.Value.Coercion

namespace RecordLogic.Number

variable {cs ds : List Char} {c : Char} {l : Literal} {base m n : Nat}

/-- The texts that write a number: none at all, infinity with or without a sign, decimal literals
and literals with a base. -/
inductive IsNumeral : List Char → Prop where
  | empty : IsNumeral []
  | infinity {sign : List Char} {negative : Bool} : IsSign sign negative →
    IsNumeral (sign ++ "Infinity".toList)
  | decimal {cs : List Char} {l : Literal} : l.Written cs → IsNumeral cs
  | based {cs : List Char} {n : Nat} : IsBased cs n → IsNumeral cs

/-- A literal with a base that has a plus sign before its digits. -/
@[mk_iff isPlusBased_iff_exists]
inductive IsPlusBased : List Char → Nat → Prop where
  | mk {mark : Char} {base n : Nat} {ds : List Char} : (mark, base) ∈ baseMarks → ds ≠ [] →
    Denotes base ds n → IsPlusBased ('0' :: mark :: '+' :: ds) n

theorem takeBase?_eq_some_iff : takeBase? cs = some (base, ds) ↔
    ∃ mark, (mark, base) ∈ baseMarks ∧ cs = '0' :: mark :: ds := by
  constructor
  · intro h
    rw [takeBase?.eq_def] at h
    split at h <;> cases h <;> exact ⟨_, by decide, rfl⟩
  · rintro ⟨mark, hmark, rfl⟩
    simp only [baseMarks, List.mem_cons, Prod.mk.injEq, List.not_mem_nil, or_false] at hmark
    rcases hmark with
      ⟨rfl, rfl⟩ | ⟨rfl, rfl⟩ | ⟨rfl, rfl⟩ | ⟨rfl, rfl⟩ | ⟨rfl, rfl⟩ | ⟨rfl, rfl⟩ <;> rfl

theorem base_le_of_mem {mark : Char} (h : (mark, base) ∈ baseMarks) : base ≤ 16 := by
  have hall : ∀ p ∈ baseMarks, p.2 ≤ 16 := by decide
  exact hall _ h

theorem Denotes.lookup (h : Denotes base cs n) : ∀ c ∈ cs, (digitValues.lookup c).isSome := by
  induction h with
  | nil => simp
  | @snoc cs c n d _ hlookup _ ih =>
    intro c' hmem
    rcases List.mem_append.mp hmem with hmem | hmem
    · exact ih c' hmem
    · obtain rfl := List.mem_singleton.mp hmem
      rw [hlookup]
      rfl

/-- A word is digits with at most one plus sign before them, and not too large. -/
theorem readWord?_eq_some_iff (hbase : base ≤ 16) : readWord? base cs = some n ↔
    n ≤ maxWord ∧ ∃ ds, ds ≠ [] ∧ Denotes base ds n ∧ (cs = ds ∨ cs = '+' :: ds) := by
  have hplus {ds : List Char} : ¬Denotes base ('+' :: ds) n := fun h => by
    have hlookup := h.lookup '+' List.mem_cons_self
    cases hlookup
  rw [readWord?.eq_def, Option.filter_eq_some_iff, decide_eq_true_eq, and_comm]
  refine and_congr_right fun _ => ?_
  split
  · rename_i rest
    rw [ofBaseDigits?_eq_some_iff hbase]
    constructor
    · rintro ⟨hne, hdigits⟩
      exact ⟨rest, hne, hdigits, Or.inr rfl⟩
    · rintro ⟨ds, hne, hdigits, rfl | heq⟩
      · exact absurd hdigits hplus
      · cases heq
        exact ⟨hne, hdigits⟩
  · rename_i hother
    rw [ofBaseDigits?_eq_some_iff hbase]
    constructor
    · rintro ⟨hne, hdigits⟩
      exact ⟨cs, hne, hdigits, Or.inl rfl⟩
    · rintro ⟨ds, hne, hdigits, rfl | heq⟩
      · exact ⟨hne, hdigits⟩
      · exact absurd heq (hother ds)

/-- A literal by what stands behind its base: digits, or digits with something before them. -/
theorem exists_takeBase?_iff (before : List Char) :
    (∃ mark base ds, (mark, base) ∈ baseMarks ∧ ds ≠ [] ∧ Denotes base ds n ∧
        cs = '0' :: mark :: (before ++ ds)) ↔
      ∃ base ds, takeBase? cs = some (base, before ++ ds) ∧ ds ≠ [] ∧ Denotes base ds n := by
  constructor
  · rintro ⟨mark, base, ds, hmark, hne, hdigits, rfl⟩
    exact ⟨base, ds, takeBase?_eq_some_iff.mpr ⟨mark, hmark, rfl⟩, hne, hdigits⟩
  · rintro ⟨base, ds, htake, hne, hdigits⟩
    obtain ⟨mark, hmark, rfl⟩ := takeBase?_eq_some_iff.mp htake
    exact ⟨mark, base, ds, hmark, hne, hdigits, rfl⟩

theorem isBased_iff :
    IsBased cs n ↔ ∃ base ds, takeBase? cs = some (base, ds) ∧ ds ≠ [] ∧ Denotes base ds n :=
  (isBased_iff_exists cs n).trans (exists_takeBase?_iff [])

theorem isPlusBased_iff : IsPlusBased cs n ↔
    ∃ base ds, takeBase? cs = some (base, '+' :: ds) ∧ ds ≠ [] ∧ Denotes base ds n :=
  (isPlusBased_iff_exists cs n).trans (exists_takeBase?_iff ['+'])

/-- The digits after a base are read as a word exactly if the text is a literal with that base, or
one with a plus sign, of a number that 64 bits hold. -/
theorem readWord?_of_takeBase? (h : takeBase? cs = some (base, ds)) :
    readWord? base ds = some n ↔ n ≤ maxWord ∧ (IsBased cs n ∨ IsPlusBased cs n) := by
  obtain ⟨mark, hmark, -⟩ := takeBase?_eq_some_iff.mp h
  rw [readWord?_eq_some_iff (base_le_of_mem hmark), isBased_iff, isPlusBased_iff, h]
  simp only [Option.some.injEq, Prod.mk.injEq]
  refine and_congr_right fun _ => ?_
  constructor
  · rintro ⟨cs', hne, hdigits, rfl | rfl⟩
    · exact Or.inl ⟨base, ds, ⟨rfl, rfl⟩, hne, hdigits⟩
    · exact Or.inr ⟨base, cs', ⟨rfl, rfl⟩, hne, hdigits⟩
  · rintro (⟨_, _, ⟨rfl, rfl⟩, hne, hdigits⟩ | ⟨_, cs', ⟨rfl, rfl⟩, hne, hdigits⟩)
    · exact ⟨ds, hne, hdigits, Or.inl rfl⟩
    · exact ⟨cs', hne, hdigits, Or.inr rfl⟩

theorem IsBased.unique (hm : IsBased cs m) (hn : IsBased cs n) : m = n := by
  obtain ⟨base, ds, htake, hne, hdigits⟩ := isBased_iff.mp hm
  obtain ⟨base', ds', htake', -, hdigits'⟩ := isBased_iff.mp hn
  obtain ⟨mark, hmark, -⟩ := takeBase?_eq_some_iff.mp htake
  have hbase := base_le_of_mem hmark
  rw [htake, Option.some.injEq, Prod.mk.injEq] at htake'
  obtain ⟨rfl, rfl⟩ := htake'
  have hread := (ofBaseDigits?_eq_some_iff hbase).mpr ⟨hne, hdigits⟩
  rw [(ofBaseDigits?_eq_some_iff hbase).mpr ⟨hne, hdigits'⟩] at hread
  exact (Option.some.inj hread).symm

theorem takeBase?_of_written (h : l.Written cs) : takeBase? cs = none := by
  rw [Option.eq_none_iff_forall_ne_some]
  rintro ⟨base, ds⟩ htake
  obtain ⟨mark, hmark, rfl⟩ := takeBase?_eq_some_iff.mp htake
  have hchars := List.all_eq_true.mp h.all_isLiteralChar mark (by simp)
  have hall : ∀ p ∈ baseMarks, isLiteralChar p.1 = false := by decide
  rw [hall _ hmark] at hchars
  cases hchars

theorem ofTrimmed_of_takeBase? (h : takeBase? cs = some (base, ds)) :
    ofTrimmed cs = ((readWord? base ds).map Float.ofNat).getD nan := by
  obtain ⟨mark, -, rfl⟩ := takeBase?_eq_some_iff.mp h
  simp [ofTrimmed, h]

theorem ofTrimmed_of_written (h : l.Written cs) : ofTrimmed cs = l.toFloat := by
  have hnil : cs ≠ [] := by
    rintro rfl
    have hread := readLiteral?_eq_some_iff.mpr h
    cases hread
  have hletter {c : Char} (hc : isLiteralChar c = false) : c ∉ cs := by
    intro hmem
    rw [List.all_eq_true.mp h.all_isLiteralChar c hmem] at hc
    cases hc
  have hne {ds : List Char} (hds : 'n' ∈ ds) : cs ≠ ds := by
    rintro rfl
    exact hletter (by decide) hds
  rw [ofTrimmed, if_neg (by simpa using hnil), if_neg, if_neg (hne (by decide)),
    takeBase?_of_written h, readLiteral?_eq_some_iff.mpr h]
  · rfl
  · simp only [Bool.or_eq_true, decide_eq_true_eq, not_or]
    exact ⟨hne (by decide), hne (by decide)⟩

theorem ofTrimmed_of_based (hn : n ≤ maxWord) (h : IsBased cs n ∨ IsPlusBased cs n) :
    ofTrimmed cs = Float.ofNat n := by
  obtain ⟨base, ds, htake⟩ : ∃ base ds, takeBase? cs = some (base, ds) := by
    rcases h with h | h
    · obtain ⟨base, ds, htake, -⟩ := isBased_iff.mp h
      exact ⟨base, ds, htake⟩
    · obtain ⟨base, ds, htake, -⟩ := isPlusBased_iff.mp h
      exact ⟨base, _, htake⟩
  rw [ofTrimmed_of_takeBase? htake, (readWord?_of_takeBase? htake).mpr ⟨hn, h⟩]
  rfl

theorem isNaN_ofTrimmed_of_takeBase? (h : takeBase? cs = some (base, ds)) :
    (ofTrimmed cs).isNaN = false ↔ ∃ n ≤ maxWord, IsBased cs n ∨ IsPlusBased cs n := by
  constructor
  · intro hnumber
    rw [ofTrimmed_of_takeBase? h] at hnumber
    cases hread : readWord? base ds with
    | none =>
      rw [hread] at hnumber
      cases hnumber
    | some n => exact ⟨n, (readWord?_of_takeBase? h).mp hread⟩
  · rintro ⟨n, hn, hbased⟩
    rw [ofTrimmed_of_based hn hbased]
    exact isNaN_ofScientific n false 0

theorem isNumeral_of_ofTrimmed (htake : takeBase? cs = none) (h : (ofTrimmed cs).isNaN = false) :
    IsNumeral cs := by
  rw [ofTrimmed, htake] at h
  split at h
  · rename_i hempty
    rw [List.isEmpty_iff.mp hempty]
    exact .empty
  split at h
  · rename_i hinfinity
    rw [Bool.or_eq_true, decide_eq_true_eq, decide_eq_true_eq] at hinfinity
    rcases hinfinity with rfl | rfl
    · exact .infinity .none
    · exact .infinity .plus
  split at h
  · rename_i hinfinity
    rw [hinfinity]
    exact .infinity .minus
  · cases hread : readLiteral? cs with
    | none =>
      rw [hread] at h
      cases h
    | some l => exact .decimal (readLiteral?_eq_some_iff.mp hread)

theorem isNaN_ofTrimmed_iff : (ofTrimmed cs).isNaN = false ↔
    (IsNumeral cs ∧ ∀ n, IsBased cs n → n ≤ maxWord) ∨ ∃ n ≤ maxWord, IsPlusBased cs n := by
  constructor
  · intro h
    cases htake : takeBase? cs with
    | none =>
      refine Or.inl ⟨isNumeral_of_ofTrimmed htake h, fun n hbased => ?_⟩
      obtain ⟨_, _, hsome, -⟩ := isBased_iff.mp hbased
      rw [htake] at hsome
      cases hsome
    | some prefixed =>
      obtain ⟨n, hn, hbased | hplus⟩ := (isNaN_ofTrimmed_of_takeBase? htake).mp h
      · exact Or.inl ⟨.based hbased, fun m hm => hm.unique hbased ▸ hn⟩
      · exact Or.inr ⟨n, hn, hplus⟩
  · rintro (⟨hnumeral, hfits⟩ | ⟨n, hn, hplus⟩)
    · cases hnumeral with
      | empty => decide
      | infinity hsign => cases hsign <;> decide
      | decimal hwritten =>
        rw [ofTrimmed_of_written hwritten]
        exact isNaN_toFloat _
      | based hbased =>
        rw [ofTrimmed_of_based (hfits _ hbased) (Or.inl hbased)]
        exact isNaN_ofScientific _ false 0
    · rw [ofTrimmed_of_based hn (Or.inr hplus)]
      exact isNaN_ofScientific n false 0

/-- The characters of texts that write a number. -/
def isNumeralChar (c : Char) : Bool :=
  isLiteralChar c || (digitValues.lookup c).isSome || (baseMarks.lookup c).isSome ||
    "Infinity".toList.contains c

theorem Denotes.all_isNumeralChar (h : Denotes base cs n) : cs.all isNumeralChar = true := by
  rw [List.all_eq_true]
  intro c hc
  simp [isNumeralChar, h.lookup c hc]

theorem all_isNumeralChar_of_takeBase? (htake : takeBase? cs = some (base, ds))
    (hds : ds.all isNumeralChar = true) : cs.all isNumeralChar = true := by
  obtain ⟨mark, hmark, rfl⟩ := takeBase?_eq_some_iff.mp htake
  have hall : ∀ p ∈ baseMarks, isNumeralChar p.1 = true := by decide
  rw [List.all_cons, List.all_cons, hall _ hmark, hds]
  rfl

theorem IsNumeral.all_isNumeralChar (h : IsNumeral cs) : cs.all isNumeralChar = true := by
  cases h with
  | empty => rfl
  | infinity hsign => cases hsign <;> decide
  | decimal hwritten =>
    have hall := List.all_eq_true.mp hwritten.all_isLiteralChar
    rw [List.all_eq_true]
    intro c hc
    simp [isNumeralChar, hall c hc]
  | based hbased =>
    obtain ⟨base, ds, htake, -, hdigits⟩ := isBased_iff.mp hbased
    exact all_isNumeralChar_of_takeBase? htake hdigits.all_isNumeralChar

theorem IsPlusBased.all_isNumeralChar (h : IsPlusBased cs n) : cs.all isNumeralChar = true := by
  obtain ⟨base, ds, htake, -, hdigits⟩ := isPlusBased_iff.mp h
  apply all_isNumeralChar_of_takeBase? htake
  rw [List.all_cons, hdigits.all_isNumeralChar]
  rfl

/-- A text with a character that no numeral has is no number. -/
theorem isNaN_ofText_of_mem {s : String} (hmem : c ∈ s.toList) (hc : isNumeralChar c = false)
    (hblank : Text.isBlank c = false) : (ofText s).isNaN = true := by
  have htrimmed : c ∈ Text.trimmed s.toList := Text.mem_trimmed hblank hmem
  have hnot : ¬(Text.trimmed s.toList).all isNumeralChar = true := by
    intro hall
    rw [List.all_eq_true.mp hall c htrimmed] at hc
    cases hc
  rw [ofText]
  by_contra hnumber
  rw [Bool.not_eq_true, isNaN_ofTrimmed_iff] at hnumber
  rcases hnumber with ⟨hnumeral, -⟩ | ⟨n, -, hplus⟩
  · exact hnot hnumeral.all_isNumeralChar
  · exact hnot hplus.all_isNumeralChar

end RecordLogic.Number

namespace RecordLogic.Value

open Number

/-- A text is a number exactly if it is, without the blanks around it, a numeral of which 64 bits
hold the number behind a base, or such a literal with a plus sign behind its base. The literals with
a base give the nearest double. -/
theorem toNumber_text_numeral (s : String) :
    ((text s).toNumber.isNaN = false ↔
      (IsNumeral (Text.trimmed s.toList) ∧ ∀ n, IsBased (Text.trimmed s.toList) n → n ≤ maxWord) ∨
        ∃ n ≤ maxWord, IsPlusBased (Text.trimmed s.toList) n) ∧
      ∀ n ≤ maxWord, IsBased (Text.trimmed s.toList) n ∨ IsPlusBased (Text.trimmed s.toList) n →
        Nearest n (text s).toNumber := by
  refine ⟨isNaN_ofTrimmed_iff, fun n hn hbased => ?_⟩
  rw [toNumber, ofText, ofTrimmed_of_based hn hbased]
  exact nearest_ofNat hn

/-- The largest word has 64 bits, of which a double keeps 53; the nearest one is a power of two. -/
theorem toNumber_text_largest_word :
    let s := " 0xFFFFFFFFFFFFFFFF"
    IsBased (Text.trimmed s.toList) maxWord ∧ Nearest maxWord (text s).toNumber ∧
      (text s).toNumber = 18_446_744_073_709_551_616 := by
  intro s
  have hbased : IsBased (Text.trimmed s.toList) maxWord := by
    have htake : takeBase? (Text.trimmed s.toList) = some (16, "FFFFFFFFFFFFFFFF".toList) := by
      decide
    have hdigits : "FFFFFFFFFFFFFFFF".toList ≠ [] ∧
        Denotes 16 "FFFFFFFFFFFFFFFF".toList maxWord :=
      (ofBaseDigits?_eq_some_iff (by decide)).mp (by decide)
    exact isBased_iff.mpr ⟨16, _, htake, hdigits⟩
  have hnearest := (toNumber_text_numeral s).2 maxWord (le_refl _) (Or.inl hbased)
  exact ⟨hbased, hnearest, by decide +kernel⟩

/-- Numbers that need more than 64 bits are NaN although they are written as documented, and a plus
sign behind the base is taken although it is not. -/
theorem toNumber_text_not_documented :
    IsNumeral (Text.trimmed "0x10000000000000000".toList) ∧
      (text "0x10000000000000000").toNumber.isNaN = true ∧
      ¬IsNumeral (Text.trimmed "0x+1A".toList) ∧ (text "0x+1A").toNumber.isNaN = false := by
  refine ⟨?_, by decide +kernel, ?_, by decide +kernel⟩
  · have htake : takeBase? (Text.trimmed "0x10000000000000000".toList) =
        some (16, "10000000000000000".toList) := by decide
    have hdigits : "10000000000000000".toList ≠ [] ∧
        Denotes 16 "10000000000000000".toList (2 ^ 64) :=
      (ofBaseDigits?_eq_some_iff (by decide)).mp (by decide)
    exact .based (isBased_iff.mpr ⟨16, _, htake, hdigits⟩)
  · have htrimmed : Text.trimmed "0x+1A".toList = "0x+1A".toList := by decide
    rw [htrimmed]
    generalize hcs : "0x+1A".toList = cs
    intro h
    cases h with
    | empty => cases hcs
    | infinity hsign => cases hsign <;> cases hcs
    | decimal hwritten =>
      have hread := readLiteral?_eq_some_iff.mpr hwritten
      rw [← hcs] at hread
      cases hread
    | based hbased =>
      obtain ⟨base, ds, htake, hdigits⟩ := isBased_iff.mp hbased
      rw [← hcs] at htake
      cases htake
      have hread := (ofBaseDigits?_eq_some_iff (by decide)).mpr hdigits
      cases hread

end RecordLogic.Value
