import Mathlib.Tactic.Common
import Mathlib.Data.List.Basic
import Mathlib.Data.List.Infix

/-! Occurrences of one list in another, over any alphabet: the first one, and two
ways to take all of them out, by searching on in what is left and by a scan. -/
namespace Occurrence

variable {α : Type} [DecidableEq α]

/-- The position of the first occurrence. -/
def search (pattern : List α) : List α → Option Nat
  | [] => if pattern = [] then some 0 else none
  | letter :: rest =>
      if pattern <+: letter :: rest then some 0 else (search pattern rest).map Nat.succ

/-- The pattern occurs in the text. -/
def Occurs (pattern text : List α) : Prop := ∃ before after, text = before ++ pattern ++ after

/-- The pattern occurs at the start of the text, if it occurs at all. -/
def OnlyAtStart (pattern text : List α) : Prop :=
  ∀ before after, text = before ++ pattern ++ after → before = []

section Search

variable {pattern text : List α} {index : Nat}

/-- A pattern that the text begins with is found at its start. -/
theorem search_eq_zero (hPrefix : pattern <+: text) : search pattern text = some 0 := by
  cases text with
  | nil => rw [search, if_pos (List.prefix_nil.mp hPrefix)]
  | cons letter rest => rw [search, if_pos hPrefix]

/-- Where a pattern is found it stands. -/
theorem prefix_drop_of_search (h : search pattern text = some index) : pattern <+: text.drop index := by
  induction text generalizing index with
  | nil =>
      rw [search] at h
      split at h
      · rename_i hNil
        rw [hNil]
        exact List.nil_prefix
      · exact nomatch h
  | cons letter rest ih =>
      rw [search] at h
      split at h
      · rename_i hPrefix
        obtain rfl := Option.some.inj h
        exact hPrefix
      · obtain ⟨later, hLater, rfl⟩ := Option.map_eq_some_iff.mp h
        exact ih hLater

/-- A text around its first occurrence. -/
theorem split_of_search (h : search pattern text = some index) :
    text = text.take index ++ (pattern ++ text.drop (index + pattern.length)) := by
  obtain ⟨after, hAfter⟩ := prefix_drop_of_search h
  have hRest : text.drop (index + pattern.length) = after := by
    rw [← List.drop_drop, ← hAfter, List.drop_left]
  rw [hRest, hAfter, List.take_append_drop]

/-- It is not found exactly if it does not occur. -/
theorem search_eq_none : search pattern text = none ↔ ¬ Occurs pattern text := by
  induction text with
  | nil =>
      rw [search]
      split
      · rename_i hNil
        exact iff_of_false nofun fun h => h ⟨[], [], by simp [hNil]⟩
      · rename_i hNil
        refine iff_of_true rfl ?_
        rintro ⟨before, after, hText⟩
        have hAll : before = [] ∧ pattern = [] ∧ after = [] := by simpa using hText
        exact hNil hAll.2.1
  | cons letter rest ih =>
      rw [search]
      split
      · rename_i hPrefix
        obtain ⟨after, hAfter⟩ := hPrefix
        exact iff_of_false nofun fun h => h ⟨[], after, hAfter.symm⟩
      · rename_i hPrefix
        rw [Option.map_eq_none_iff, ih]
        refine not_congr ⟨?_, ?_⟩
        · rintro ⟨before, after, rfl⟩
          exact ⟨letter :: before, after, rfl⟩
        · rintro ⟨before, after, hText⟩
          cases before with
          | nil => exact absurd ⟨after, hText.symm⟩ hPrefix
          | cons first before => exact ⟨before, after, (List.cons.inj hText).2⟩

/-- A pattern that is not found past the first letter occurs at the start only. -/
theorem onlyAtStart_of_search_tail (h : search pattern text.tail = none) :
    OnlyAtStart pattern text := by
  rintro before after rfl
  cases before with
  | nil => rfl
  | cons letter before => exact absurd ⟨before, after, rfl⟩ (search_eq_none.mp h)

/-- An occurrence lies inside the text. -/
theorem length_of_search (h : search pattern text = some index) :
    index + pattern.length ≤ text.length ∨ pattern = [] := by
  by_cases hNil : pattern = []
  · exact .inr hNil
  · have hLength := (prefix_drop_of_search h).length_le
    rw [List.length_drop] at hLength
    have hPositive := List.length_pos_iff.mpr hNil
    exact .inl (by omega)

end Search

/-- Take out the first occurrence and search on from where it was. -/
def removeAll (pattern : List α) (hPattern : pattern ≠ []) (text : List α) : List α :=
  match _hSearch : search pattern text with
  | none => text
  | some index =>
      text.take index ++ removeAll pattern hPattern (text.drop (index + pattern.length))
  termination_by text.length
  decreasing_by
    have hInside := (length_of_search _hSearch).resolve_right hPattern
    have hPositive := List.length_pos_iff.mpr hPattern
    rw [List.length_drop]
    omega

/-- Scan the text and leave out every occurrence met. -/
def replaceAll (pattern : List α) (hPattern : pattern ≠ []) : List α → List α
  | [] => []
  | letter :: rest =>
      if pattern <+: letter :: rest then
        replaceAll pattern hPattern ((letter :: rest).drop pattern.length)
      else letter :: replaceAll pattern hPattern rest
  termination_by text => text.length
  decreasing_by
  · have hPositive := List.length_pos_iff.mpr hPattern
    rw [List.length_drop, List.length_cons]
    omega
  · exact Nat.lt_succ_self _

section Removal

variable {pattern text : List α} (hPattern : pattern ≠ [])

/-- A pattern at the start is taken off. -/
theorem replaceAll_of_startsWith (hPrefix : pattern <+: text) :
    replaceAll pattern hPattern text = replaceAll pattern hPattern (text.drop pattern.length) := by
  cases text with
  | nil => exact absurd (List.prefix_nil.mp hPrefix) hPattern
  | cons letter rest => rw [replaceAll, if_pos hPrefix]

/-- The scan passes what comes before the first occurrence. -/
theorem replaceAll_of_search {index : Nat} (h : search pattern text = some index) :
    replaceAll pattern hPattern text =
      text.take index ++ replaceAll pattern hPattern (text.drop (index + pattern.length)) := by
  induction text generalizing index with
  | nil =>
      rw [search, if_neg hPattern] at h
      exact nomatch h
  | cons letter rest ih =>
      rw [search] at h
      split at h
      · rename_i hPrefix
        obtain rfl := Option.some.inj h
        rw [replaceAll_of_startsWith hPattern hPrefix, Nat.zero_add]
        rfl
      · rename_i hPrefix
        obtain ⟨later, hLater, rfl⟩ := Option.map_eq_some_iff.mp h
        rw [replaceAll, if_neg hPrefix, ih hLater, List.take_succ_cons, Nat.succ_add,
          List.drop_succ_cons]
        rfl

/-- A text without the pattern stays as it is. -/
theorem replaceAll_of_not_occurs (h : search pattern text = none) :
    replaceAll pattern hPattern text = text := by
  induction text with
  | nil => rw [replaceAll]
  | cons letter rest ih =>
      rw [search] at h
      split at h
      · exact nomatch h
      · rename_i hPrefix
        rw [replaceAll, if_neg hPrefix, ih (Option.map_eq_none_iff.mp h)]

/-- So it does under repeated removal. -/
theorem removeAll_of_not_occurs (h : search pattern text = none) :
    removeAll pattern hPattern text = text := by
  rw [removeAll]
  split
  · rfl
  · rename_i hSome
    exact nomatch h.symm.trans hSome

/-- What stands before the first occurrence stays. -/
theorem removeAll_of_search {index : Nat} (h : search pattern text = some index) :
    removeAll pattern hPattern text =
      text.take index ++ removeAll pattern hPattern (text.drop (index + pattern.length)) := by
  rw [removeAll]
  split
  · rename_i hNone
    exact nomatch h.symm.trans hNone
  · rename_i found hFound
    obtain rfl : index = found := Option.some.inj (h.symm.trans hFound)
    rfl

/-- Both ways come to the same. -/
theorem removeAll_eq_replaceAll (text : List α) :
    removeAll pattern hPattern text = replaceAll pattern hPattern text := by
  induction text using removeAll.induct pattern hPattern with
  | case1 text hSearch =>
      rw [removeAll_of_not_occurs hPattern hSearch, replaceAll_of_not_occurs hPattern hSearch]
  | case2 text index hSearch ih =>
      rw [removeAll_of_search hPattern hSearch, replaceAll_of_search hPattern hSearch, ih]

/-- A pattern that occurs as a prefix only is cut off. -/
theorem removeAll_prefix (hOnly : OnlyAtStart pattern (pattern ++ text)) :
    removeAll pattern hPattern (pattern ++ text) = text := by
  have hSearch : search pattern (pattern ++ text) = some 0 :=
    search_eq_zero (List.prefix_append pattern text)
  have hRest : search pattern text = none := by
    refine search_eq_none.mpr ?_
    rintro ⟨before, after, rfl⟩
    have hBefore := hOnly (pattern ++ before) after (by simp)
    exact hPattern (List.append_eq_nil_iff.mp hBefore).1
  rw [removeAll_of_search hPattern hSearch, Nat.zero_add, List.drop_left,
    removeAll_of_not_occurs hPattern hRest]
  rfl

/-- What is left of a text is a part of it. -/
theorem removeAll_sublist (text : List α) : (removeAll pattern hPattern text).Sublist text := by
  induction text using removeAll.induct pattern hPattern with
  | case1 text hSearch => rw [removeAll_of_not_occurs hPattern hSearch]
  | case2 text index hSearch ih =>
      have hLater : (text.drop (index + pattern.length)).Sublist (text.drop index) :=
        List.drop_sublist_drop_left text (Nat.le_add_right _ _)
      have hParts := (ih.trans hLater).append_left (text.take index)
      rw [removeAll_of_search hPattern hSearch]
      rwa [List.take_append_drop] at hParts

end Removal
end Occurrence
