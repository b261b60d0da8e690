import Mathlib.Data.List.Basic

/-!
# Sliding windows

The last `n` items of a sequence, kept up by adding an item and dropping what
is then too much. What is kept depends on the sequence alone, `lastOf_push`,
and as long as the window is at most full one item comes in for at most one
that goes out, `push_cases`.
-/

namespace Lib

universe u

variable {α : Type u} {n : Nat} {l : List α}

/-- The last `n` items. -/
def lastOf (n : Nat) (l : List α) : List α := l.drop (l.length - n)

theorem length_lastOf_le (n : Nat) (l : List α) : (lastOf n l).length ≤ n := by
  unfold lastOf
  rw [List.length_drop]
  omega

theorem lastOf_of_le (h : l.length ≤ n) : lastOf n l = l := by
  unfold lastOf
  rw [Nat.sub_eq_zero_of_le h, List.drop_zero]

/-- Keeping the window up is looking at the end of the whole sequence. -/
theorem lastOf_push (n : Nat) (l : List α) (a : α) :
    lastOf n (lastOf n l ++ [a]) = lastOf n (l ++ [a]) := by
  unfold lastOf
  rw [List.length_append, List.length_drop, List.length_append, List.length_singleton]
  obtain hle | hlt := Nat.le_total l.length n
  · rw [Nat.sub_eq_zero_of_le hle, List.drop_zero, Nat.sub_zero]
  · have hdrop : l.drop (l.length - n) ++ [a] = (l ++ [a]).drop (l.length - n) :=
      (List.drop_append_of_le_length (by omega)).symm
    rw [hdrop, List.drop_drop]
    congr 1
    omega

/-- A new item takes a free place, or the place of the oldest one. -/
theorem push_cases (hn : 0 < n) (h : l.length ≤ n) (a : α) :
    (l.length < n ∧ lastOf n (l ++ [a]) = l ++ [a]) ∨
      l.length = n ∧ ∃ oldest rest, l = oldest :: rest ∧ lastOf n (l ++ [a]) = rest ++ [a] := by
  obtain hlt | heq := Nat.lt_or_eq_of_le h
  · refine .inl ⟨hlt, lastOf_of_le ?_⟩
    rw [List.length_append, List.length_singleton]
    omega
  · cases l with
    | nil => exact absurd heq (by simp; omega)
    | cons oldest rest =>
        refine .inr ⟨heq, oldest, rest, rfl, ?_⟩
        unfold lastOf
        rw [List.length_append, ← heq, List.length_singleton, Nat.add_sub_cancel_left]
        rfl

end Lib
