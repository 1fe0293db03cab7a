import Mathlib.Tactic.Common
import Mathlib.Data.List.Basic

/-! How far two lists agree, and when cutting makes them equal. -/
namespace CLib

variable {α : Type} [DecidableEq α]

/-- The length of the longest common prefix. -/
def agreeLength : List α → List α → Nat
  | a :: left, b :: right => if a = b then agreeLength left right + 1 else 0
  | _, _ => 0

theorem agreeLength_append (before left right : List α) :
    agreeLength (before ++ left) (before ++ right) = before.length + agreeLength left right := by
  induction before with
  | nil => exact (Nat.zero_add _).symm
  | cons a before ih =>
      rw [List.cons_append, List.cons_append, agreeLength, if_pos rfl, ih, List.length_cons]
      omega

/-- Cut to a length, two lists are equal only where they agree so far. -/
theorem take_eq_take_iff (length : Nat) (left right : List α) :
    left.take length = right.take length ↔ left = right ∨ length ≤ agreeLength left right := by
  induction left generalizing length right with
  | nil =>
      cases right with
      | nil => simp
      | cons b right => cases length <;> simp [agreeLength]
  | cons a left ih =>
      cases right with
      | nil => cases length <;> simp [agreeLength]
      | cons b right =>
          cases length with
          | zero => simp
          | succ length =>
              rw [List.take_succ_cons, List.take_succ_cons, List.cons.injEq, List.cons.injEq,
                agreeLength, ih]
              by_cases hHead : a = b
              · simp [hHead]
              · simp [hHead]

end CLib
