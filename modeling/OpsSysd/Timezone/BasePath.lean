import OpsSysd.Library.Buffer
import OpsSysd.Timezone.Validator

/-! The prefix removal of the CLI in the buffer it works on. The string is moved
down over each occurrence, and the search goes on from where the occurrence was. -/
namespace OpsSysd.Timezone

open CLib

/-- The loop of `remove_base_path`, for so many rounds at most: the block when the
loop ends, and nothing when it has not ended by then. -/
def removeBasePathLoop (basePath : CString) : Nat → List UInt8 → Nat → Option (List UInt8)
  | 0, _, _ => none
  | fuel + 1, buffer, fullPath => match strstr buffer fullPath basePath with
      | none => some buffer
      | some found =>
          let tail := found + basePath.length
          removeBasePathLoop basePath fuel
            (memmove buffer found tail (1 + (stringAt buffer tail).length)) found

section Loop

variable {basePath : CString}

/-- One round in a block where the string from `before` on is still to be
searched: the occurrence is gone, and nothing in front of it is looked at again. -/
theorem removeBasePathLoop_step (hBase : basePath.bytes ≠ []) {fuel index : Nat}
    (before rest behind : List UInt8) (hNul : 0 ∉ rest)
    (hSearch : Occurrence.search basePath.bytes rest = some index) :
    ∃ moved, moved.length = basePath.length ∧
      removeBasePathLoop basePath (fuel + 1) (before ++ (rest ++ 0 :: behind)) before.length =
        removeBasePathLoop basePath fuel
          ((before ++ rest.take index) ++
            (rest.drop (index + basePath.length) ++ 0 :: (moved ++ behind)))
          (before ++ rest.take index).length := by
  let passed := before ++ rest.take index
  let tail := rest.drop (index + basePath.length)
  have hTailNul : 0 ∉ tail := fun h => hNul (List.mem_of_mem_drop h)
  have hIndex : (rest.take index).length = index := by
    rw [List.length_take]
    have hInside := (Occurrence.prefix_drop_of_search hSearch).length_le
    have hLength := List.length_pos_iff.mpr hBase
    rw [List.length_drop] at hInside
    omega
  have hFound : before.length + index = passed.length := by rw [List.length_append, hIndex]
  have hBlock : before ++ (rest ++ 0 :: behind) =
      passed ++ (basePath.bytes ++ ((tail ++ [0]) ++ behind)) := by
    conv_lhs => rw [Occurrence.split_of_search hSearch]
    simp [passed, tail, CString.length]
  have hStrstr : strstr (before ++ (rest ++ 0 :: behind)) before.length basePath =
      some passed.length := by
    rw [strstr, stringAt_of_terminated hNul, hSearch, Option.map_some, hFound]
  have hString : (stringAt (before ++ (rest ++ 0 :: behind))
      (passed.length + basePath.length)).bytes = tail := by
    have hAt := @stringAt_of_terminated (passed ++ basePath.bytes) tail behind hTailNul
    rw [List.length_append] at hAt
    rw [hBlock]
    simpa [CString.length] using hAt
  have hMoved := memmove_down passed basePath.bytes (tail ++ [0]) behind
  refine ⟨(basePath.bytes ++ (tail ++ [0])).drop (tail ++ [0]).length, ?_, ?_⟩
  · simp [CString.length]
  · rw [removeBasePathLoop, hStrstr]
    have hCount : 1 + (stringAt (before ++ (rest ++ 0 :: behind))
        (passed.length + basePath.length)).length = (tail ++ [0]).length := by
      rw [CString.length, hString, List.length_append, List.length_singleton, Nat.add_comm]
    simp only [hCount]
    rw [hBlock, CString.length, hMoved]
    simp [passed, tail, CString.length]

/-- The loop ends within as many rounds as there are bytes to search, and what is
behind `before` is then free of what a scan would have left out. -/
theorem removeBasePathLoop_eq (hBase : basePath.bytes ≠ []) (fuel : Nat)
    (before rest behind : List UInt8) (hNul : 0 ∉ rest) (hFuel : rest.length < fuel) :
    ∃ moved,
      removeBasePathLoop basePath fuel (before ++ (rest ++ 0 :: behind)) before.length =
        some (before ++ (Occurrence.replaceAll basePath.bytes hBase rest ++
          0 :: (moved ++ behind))) ∧
      (Occurrence.replaceAll basePath.bytes hBase rest).length + moved.length = rest.length := by
  induction fuel generalizing before rest behind with
  | zero => exact absurd hFuel (Nat.not_lt_zero _)
  | succ fuel ih =>
      cases hSearch : Occurrence.search basePath.bytes rest with
      | none =>
          have hStrstr : strstr (before ++ (rest ++ 0 :: behind)) before.length basePath = none := by
            rw [strstr, stringAt_of_terminated hNul, hSearch, Option.map_none]
          have hSame := Occurrence.replaceAll_of_not_occurs hBase hSearch
          rw [removeBasePathLoop, hStrstr, hSame]
          exact ⟨[], by simp, by simp⟩
      | some index =>
          have hSplit := congrArg List.length (Occurrence.split_of_search hSearch)
          have hLength := List.length_pos_iff.mpr hBase
          rw [List.length_append, List.length_append] at hSplit
          obtain ⟨shifted, hShifted, hRound⟩ :=
            @removeBasePathLoop_step basePath hBase fuel index before rest behind hNul hSearch
          obtain ⟨moved, hRest, hMoved⟩ := ih (before ++ rest.take index)
            (rest.drop (index + basePath.length)) (shifted ++ behind)
            (fun h => hNul (List.mem_of_mem_drop h)) (by rw [CString.length]; omega)
          refine ⟨moved ++ shifted, ?_, ?_⟩
          · rw [hRound, hRest, Occurrence.replaceAll_of_search hBase hSearch]
            simp [CString.length]
          · rw [CString.length] at hMoved hShifted
            rw [Occurrence.replaceAll_of_search hBase hSearch, List.length_append,
              List.length_append, hShifted]
            omega

/-- Removal in place is replacement: the loop ends, writes nothing outside the
string, and leaves what a scan from left to right would. What stands before the
first occurrence stays, also where it makes an occurrence with what follows. -/
theorem removeBasePath_in_place (text basePath : CString) (hBase : basePath.bytes ≠ [])
    (behind : List UInt8) (fuel : Nat) (hFuel : text.length < fuel) :
    ∃ block, removeBasePathLoop basePath fuel (text.bytes ++ 0 :: behind) 0 = some block ∧
      block.length = (text.bytes ++ 0 :: behind).length ∧ behind <:+ block ∧
      (stringAt block 0).bytes = Occurrence.replaceAll basePath.bytes hBase text.bytes ∧
      ∀ index, Occurrence.search basePath.bytes text.bytes = some index →
        (stringAt block 0).bytes = text.bytes.take index ++ Occurrence.replaceAll basePath.bytes hBase
          (text.bytes.drop (index + basePath.length)) := by
  obtain ⟨moved, hLoop, hLength⟩ :=
    removeBasePathLoop_eq hBase fuel [] text.bytes behind text.noNul hFuel
  have hNul : 0 ∉ Occurrence.replaceAll basePath.bytes hBase text.bytes := by
    rw [← Occurrence.removeAll_eq_replaceAll]
    exact fun h => text.noNul ((Occurrence.removeAll_sublist hBase text.bytes).subset h)
  have hString := @stringAt_of_terminated [] _ (moved ++ behind) hNul
  refine ⟨_, hLoop, ?_, ?_, hString, ?_⟩
  · simp only [List.nil_append, List.length_append, List.length_cons]
    omega
  · exact ⟨Occurrence.replaceAll basePath.bytes hBase text.bytes ++ 0 :: moved, by simp⟩
  · intro index hSearch
    exact hString.trans (Occurrence.replaceAll_of_search hBase hSearch)

/-- An occurrence that the removal of another one makes is left. -/
theorem made_occurrence_stays :
    ∃ block, removeBasePathLoop (.lit "ab") 5 ((CString.lit "aabb").bytes ++ [0]) 0 = some block ∧
      (stringAt block 0).bytes = (CString.lit "ab").bytes := by
  obtain ⟨block, hLoop, -, -, hString, -⟩ :=
    removeBasePath_in_place (.lit "aabb") (.lit "ab") (by decide) [] 5 (by decide)
  have hReplaced : Occurrence.replaceAll (CString.lit "ab").bytes (by decide)
      (CString.lit "aabb").bytes = (CString.lit "ab").bytes := by
    have hText : (CString.lit "aabb").bytes = [97, 97, 98, 98] := by decide
    have hPattern : (CString.lit "ab").bytes = [97, 98] := by decide
    simp [hText, hPattern, Occurrence.replaceAll]
  exact ⟨block, hLoop, hString.trans hReplaced⟩

end Loop

/-- In the block of a path the loop does what the walk takes it to do, which is
also what the validator does. -/
theorem removeBasePathLoop_path (path : CString) (behind : List UInt8) :
    ∃ block, removeBasePathLoop basePath (path.length + 1) (path.bytes ++ 0 :: behind) 0 =
        some block ∧ stringAt block 0 = removeBasePath path ∧ stringAt block 0 = replacePath path := by
  obtain ⟨moved, hLoop, -⟩ := removeBasePathLoop_eq basePath_ne_nil (path.length + 1) [] path.bytes
    behind path.noNul (Nat.lt_succ_self _)
  have hString : stringAt ([] ++ ((replacePath path).bytes ++ 0 :: (moved ++ behind))) 0 =
      replacePath path := stringAt_eq (replacePath path) [] (moved ++ behind)
  refine ⟨_, hLoop, hString.trans ?_, hString⟩
  apply CString.ext
  exact (Occurrence.removeAll_eq_replaceAll basePath_ne_nil path.bytes).symm

end OpsSysd.Timezone
