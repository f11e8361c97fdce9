import Mathlib.Order.Bounds.Defs
import RecordLogic.Text.Distance

namespace RecordLogic.Text

/-- One text comes from another by inserting, deleting or replacing one character. -/
inductive Edit : List Char → List Char → Prop where
  | insert (x : Char) (a : List Char) : Edit a (x :: a)
  | delete (x : Char) (a : List Char) : Edit (x :: a) a
  | replace (x y : Char) (a : List Char) : Edit (x :: a) (y :: a)
  | keep (x : Char) {a b : List Char} (h : Edit a b) : Edit (x :: a) (x :: b)

/-- One text comes from another by this number of edits. -/
inductive Edits : Nat → List Char → List Char → Prop where
  | none (a : List Char) : Edits 0 a a
  | snoc {n : Nat} {a b c : List Char} (h : Edits n a b) (last : Edit b c) : Edits (n + 1) a c

variable {a b c : List Char} {n m : Nat}

namespace Edit

theorem append_left (h : Edit a b) (s : List Char) : Edit (s ++ a) (s ++ b) := by
  induction s with
  | nil => exact h
  | cons x s ih => exact .keep x ih

theorem append_right (h : Edit a b) (s : List Char) : Edit (a ++ s) (b ++ s) := by
  induction h with
  | insert x a => exact .insert x (a ++ s)
  | delete x a => exact .delete x (a ++ s)
  | replace x y a => exact .replace x y (a ++ s)
  | keep x _ ih => exact .keep x ih

theorem reverse (h : Edit a b) : Edit a.reverse b.reverse := by
  induction h with
  | insert x a => simpa using (Edit.insert x []).append_left a.reverse
  | delete x a => simpa using (Edit.delete x []).append_left a.reverse
  | replace x y a => simpa using (Edit.replace x y []).append_left a.reverse
  | keep x _ ih => simpa using ih.append_right [x]

end Edit

namespace Edits

theorem cons (first : Edit a b) (h : Edits n b c) : Edits (n + 1) a c := by
  induction h with
  | none b => exact (none a).snoc first
  | snoc _ last ih => exact (ih first).snoc last

theorem keep (x : Char) (h : Edits n a b) : Edits n (x :: a) (x :: b) := by
  induction h with
  | none a => exact none (x :: a)
  | snoc _ last ih => exact ih.snoc (.keep x last)

theorem reverse (h : Edits n a b) : Edits n a.reverse b.reverse := by
  induction h with
  | none a => exact none a.reverse
  | snoc _ last ih => exact ih.snoc last.reverse

theorem reverse_iff : Edits n a.reverse b.reverse ↔ Edits n a b := by
  refine ⟨fun h => ?_, reverse⟩
  rw [← List.reverse_reverse a, ← List.reverse_reverse b]
  exact h.reverse

theorem min (h : Edits n a b) (h' : Edits m a b) : Edits (min n m) a b := by
  rcases Nat.le_total n m with hle | hle
  · rwa [Nat.min_eq_left hle]
  · rwa [Nat.min_eq_right hle]

end Edits

/-- The least number of edits, by what they do with the first characters. -/
def leastEdits : List Char → List Char → Nat
  | [], b => b.length
  | a, [] => a.length
  | x :: a, y :: b =>
    min (min (leastEdits a (y :: b) + 1) (leastEdits (x :: a) b + 1))
      (leastEdits a b + if x = y then 0 else 1)

@[simp] theorem leastEdits_nil_left (b : List Char) : leastEdits [] b = b.length := by
  rw [leastEdits]

@[simp] theorem leastEdits_nil_right (a : List Char) : leastEdits a [] = a.length := by
  cases a with
  | nil => rw [leastEdits]
  | cons x a => rw [leastEdits]; simp

theorem leastEdits_cons_cons (x y : Char) (a b : List Char) :
    leastEdits (x :: a) (y :: b) =
      min (min (leastEdits a (y :: b) + 1) (leastEdits (x :: a) b + 1))
        (leastEdits a b + if x = y then 0 else 1) := by
  rw [leastEdits]

theorem leastEdits_self (a : List Char) : leastEdits a a = 0 := by
  induction a with
  | nil => simp
  | cons x a ih => simp [leastEdits_cons_cons, ih]

theorem leastEdits_cons_left_le (x : Char) (a b : List Char) :
    leastEdits (x :: a) b ≤ leastEdits a b + 1 := by
  cases b with
  | nil => simp
  | cons y b =>
    rw [leastEdits_cons_cons]
    omega

theorem leastEdits_cons_right_le (y : Char) (a b : List Char) :
    leastEdits a (y :: b) ≤ leastEdits a b + 1 := by
  cases a with
  | nil => simp
  | cons x a =>
    rw [leastEdits_cons_cons]
    omega

/-- So many edits are enough. -/
theorem edits_leastEdits (a b : List Char) : Edits (leastEdits a b) a b := by
  fun_induction leastEdits a b with
  | case1 b =>
    induction b with
    | nil => exact .none []
    | cons y b ih => exact ih.snoc (.insert y b)
  | case2 a ha =>
    clear ha
    induction a with
    | nil => exact .none []
    | cons x a ih => exact ih.cons (.delete x a)
  | case3 x a y b ihdelete ihinsert ihboth =>
    have hboth : Edits (leastEdits a b + if x = y then 0 else 1) (x :: a) (y :: b) := by
      split
      · rename_i hxy
        subst hxy
        exact ihboth.keep x
      · exact (ihboth.keep y).cons (.replace x y a)
    have hdelete : Edits (leastEdits a (y :: b) + 1) (x :: a) (y :: b) :=
      ihdelete.cons (.delete x a)
    have hinsert : Edits (leastEdits (x :: a) b + 1) (x :: a) (y :: b) :=
      ihinsert.snoc (.insert y b)
    exact (hdelete.min hinsert).min hboth

/-- One more edit adds at most one. -/
theorem leastEdits_le_of_edit (h : Edit b c) (a : List Char) :
    leastEdits a c ≤ leastEdits a b + 1 := by
  induction h generalizing a with
  | insert y b => exact leastEdits_cons_right_le y a b
  | delete y b =>
    induction a with
    | nil => simp; omega
    | cons x a ih =>
      have hleft := leastEdits_cons_left_le x a b
      rw [leastEdits_cons_cons]
      omega
  | replace y z b =>
    induction a with
    | nil => simp
    | cons x a ih =>
      rw [leastEdits_cons_cons, leastEdits_cons_cons]
      split <;> split <;> omega
  | @keep y b c _ ihb =>
    induction a with
    | nil => simpa using ihb []
    | cons x a ih =>
      have hboth := ihb a
      have hright := ihb (x :: a)
      rw [leastEdits_cons_cons, leastEdits_cons_cons]
      omega

theorem leastEdits_le_of_edits (h : Edits n a b) : leastEdits a b ≤ n := by
  induction h with
  | none a => exact Nat.le_of_eq (leastEdits_self a)
  | snoc _ last ih => exact Nat.le_trans (leastEdits_le_of_edit last _) (Nat.succ_le_succ ih)

/-- A row of the table: how far a text is from `before` and from `before` with the first characters
of another text put in front, one by one. -/
def distancesFrom (a before : List Char) : List Char → List Nat
  | [] => [leastEdits a before]
  | y :: b => leastEdits a before :: distancesFrom a (y :: before) b

theorem distancesFrom_eq_cons (a before b : List Char) :
    ∃ row, distancesFrom a before b = leastEdits a before :: row := by
  cases b with
  | nil => exact ⟨[], rfl⟩
  | cons y b => exact ⟨distancesFrom a (y :: before) b, rfl⟩

theorem cons_nextRow (x : Char) (a before b : List Char) :
    leastEdits (x :: a) before ::
        nextRow x (leastEdits (x :: a) before) b (distancesFrom a before b) =
      distancesFrom (x :: a) before b := by
  induction b generalizing before with
  | nil => simp [nextRow, distancesFrom]
  | cons y b ih =>
    obtain ⟨row, hrow⟩ := distancesFrom_eq_cons a (y :: before) b
    have hnext := ih (y :: before)
    rw [hrow] at hnext
    rw [distancesFrom, distancesFrom, hrow, nextRow, ← leastEdits_cons_cons, hnext]

theorem distancesFrom_nil (before b : List Char) :
    distancesFrom [] before b = List.range' before.length (b.length + 1) := by
  induction b generalizing before with
  | nil => simp [distancesFrom, List.range']
  | cons y b ih =>
    rw [distancesFrom, ih, leastEdits_nil_left]
    exact List.range'_succ.symm

theorem getLastD_distancesFrom (a before b : List Char) (n : Nat) :
    (distancesFrom a before b).getLastD n = leastEdits a (b.reverse ++ before) := by
  induction b generalizing before n with
  | nil => rfl
  | cons y b ih =>
    rw [distancesFrom, List.getLastD_cons, ih]
    simp

/-- By induction on the text that is still to be read: the row belongs to what has been read, the
latest character first. -/
theorem foldl_nextRow (a read b : List Char) :
    a.foldl (fun row x => (row.headD 0 + 1) :: nextRow x (row.headD 0 + 1) b row)
        (distancesFrom read [] b) =
      distancesFrom (a.reverse ++ read) [] b := by
  induction a generalizing read with
  | nil => rfl
  | cons x a ih =>
    obtain ⟨row, hrow⟩ := distancesFrom_eq_cons read [] b
    have hhead : (distancesFrom read [] b).headD 0 + 1 = leastEdits (x :: read) [] := by
      simp [hrow]
    rw [List.foldl_cons, hhead, cons_nextRow, ih, List.reverse_cons, List.append_assoc]
    rfl

theorem distance_eq_leastEdits (a b : List Char) :
    distance a b = leastEdits a.reverse b.reverse := by
  have hstart : List.range (b.length + 1) = distancesFrom [] [] b := by
    rw [distancesFrom_nil, List.range_eq_range']
    rfl
  rw [distance, hstart, foldl_nextRow, getLastD_distancesFrom, List.append_nil, List.append_nil]

/-- The distance of two texts is the least number of edits from one to the other. -/
theorem isLeast_distance (a b : List Char) : IsLeast {n | Edits n a b} (distance a b) := by
  rw [distance_eq_leastEdits]
  constructor
  · exact Edits.reverse_iff.mp (edits_leastEdits a.reverse b.reverse)
  · intro n hn
    exact leastEdits_le_of_edits hn.reverse

example : distance "kitten".toList "sitting".toList = 3 := by decide

end RecordLogic.Text
