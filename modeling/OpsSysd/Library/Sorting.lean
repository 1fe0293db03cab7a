import OpsSysd.Library.CString

/-! `strcmp` as an order of strings, and `qsort` by what it promises: the same
elements, ascending, in any order where the comparison leaves one open. -/
namespace CLib

def strcmp (a b : CString) : Int := strncmp a b (a.length + 1)

/-- A string is not behind another in the order of the bytes. -/
def CString.Le (a b : CString) : Prop := a.bytes ≤ b.bytes

/-- With room for the terminator the comparison is the lexicographic order. -/
theorem strncmpBytes_le_zero {left right : List UInt8} (hLeft : 0 ∉ left) :
    strncmpBytes (left.length + 1) left right ≤ 0 ↔ left ≤ right := by
  induction left generalizing right with
  | nil =>
      refine iff_of_true ?_ (List.nil_le right)
      cases right with
      | nil => exact Int.le_refl 0
      | cons b right => exact Int.neg_nonpos_of_nonneg (Int.natCast_nonneg _)
  | cons a left ih =>
      obtain ⟨hHead, hTail⟩ := not_or.mp (List.mem_cons.not.mp hLeft)
      cases right with
      | nil =>
          have hPositive : a.toNat ≠ 0 := fun h => hHead (UInt8.toNat_inj.mp h).symm
          refine iff_of_false ?_ (List.not_le.mpr (List.nil_lt_cons a left))
          simp only [strncmpBytes]
          omega
      | cons b right =>
          rw [List.length_cons, strncmpBytes, List.cons_le_cons_iff]
          by_cases hSame : a = b
          · subst hSame
            rw [if_pos rfl, ih hTail]
            simp
          · have hDiffer : a.toNat ≠ b.toNat := fun h => hSame (UInt8.toNat_inj.mp h)
            rw [if_neg hSame, UInt8.lt_iff_toNat_lt]
            simp only [hSame, false_and, or_false]
            omega

/-- `strcmp` decides the order of the strings. -/
theorem strcmp_le_zero (a b : CString) : strcmp a b ≤ 0 ↔ a.Le b := strncmpBytes_le_zero a.noNul

/-- It decides any two strings. -/
theorem strcmp_total (a b : CString) : strcmp a b ≤ 0 ∨ strcmp b a ≤ 0 := by
  rw [strcmp_le_zero, strcmp_le_zero]
  exact List.le_total a.bytes b.bytes

/-- And it is transitive. -/
theorem strcmp_trans {a b c : CString} (hFirst : strcmp a b ≤ 0) (hSecond : strcmp b c ≤ 0) :
    strcmp a c ≤ 0 := by
  rw [strcmp_le_zero] at *
  exact List.le_trans hFirst hSecond

/-- `qsort`, with a comparison that orders the elements. -/
structure Qsort where
  sort {Element : Type} (compare : Element → Element → Int) (elements : List Element) : List Element
  perm {Element : Type} (compare : Element → Element → Int) (elements : List Element) :
    (sort compare elements).Perm elements
  sorted {Element : Type} {compare : Element → Element → Int}
    (hTotal : ∀ a b, compare a b ≤ 0 ∨ compare b a ≤ 0)
    (hTrans : ∀ a b c, compare a b ≤ 0 → compare b c ≤ 0 → compare a c ≤ 0)
    (elements : List Element) : (sort compare elements).Pairwise fun a b => compare a b ≤ 0

/-- One that leaves equal elements as they are. -/
def Qsort.stable : Qsort where
  sort compare elements := elements.mergeSort fun a b => compare a b ≤ 0
  perm compare elements := List.mergeSort_perm _ _
  sorted {_ compare} hTotal hTrans elements := by
    have hSorted := @List.pairwise_mergeSort _ (fun a b => decide (compare a b ≤ 0))
      (by simpa using hTrans) (by simpa using hTotal) elements
    simpa using hSorted

/-- Elements sorted by their names. -/
theorem Qsort.ascending {Element : Type} (qsort : Qsort) (name : Element → CString)
    (elements : List Element) :
    (qsort.sort (fun a b => strcmp (name a) (name b)) elements).Pairwise
      fun a b => (name a).Le (name b) := by
  have hSorted := qsort.sorted (fun a b => strcmp_total (name a) (name b))
    (fun a b c hFirst hSecond => strcmp_trans hFirst hSecond) elements
  exact hSorted.imp fun h => (strcmp_le_zero _ _).mp h

end CLib
