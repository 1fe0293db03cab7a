import OpsSysd.Daemon.Interfaces
import OpsSysd.Library.Decimal
import Mathlib.Algebra.Order.BigOperators.Group.List
import Mathlib.Algebra.Order.Group.Nat

/-! The speeds of a port as text. Each number goes through a buffer of ten bytes
and is appended with a bound that is the size of the whole destination. -/
namespace OpsSysd.Daemon

open CLib

/-- The numbers with commas between them. -/
def commaJoined : List Int → CString
  | [] => .lit ""
  | [speed] => decimal speed
  | speed :: next :: speeds => decimal speed ++ (.lit "," ++ commaJoined (next :: speeds))

/-- The numbers between the commas of a text. -/
def readSpeeds (text : CString) : Option (List Int) :=
  if text.bytes = [] then some []
  else (text.bytes.splitOn 44).mapM fun bytes => ofDecimal (.cut bytes)

/-- The text is what it should be where that fits, and stays inside the buffer
in any case. -/
structure SpeedsRoundTrip (len : Nat) (speeds : List Int) : Prop where
  rendered : (commaJoined speeds).length < len →
    sysdGetSpeedsString len speeds = commaJoined speeds
  readBack : (commaJoined speeds).length < len →
    readSpeeds (sysdGetSpeedsString len speeds) = some speeds
  inside : (sysdGetSpeedsString len speeds).length < len

/-- The number of characters of a number. -/
def decimalWidth (n : Int) : Nat := (toString n).length

/-- The same with the comma before it, if it has one. -/
def pieceWidths : List Int → List Nat
  | [] => []
  | speed :: speeds => decimalWidth speed :: speeds.map fun later => decimalWidth later + 1

/-- What the widths must be: nothing is cut, or there is too much in any case, and
what is left after the cuts is inside the buffer. -/
structure SpeedsFit (len : Nat) (speeds : List Int) : Prop where
  uncut : (∀ width ∈ pieceWidths speeds, width ≤ 9) ∨ len ≤ (pieceWidths speeds).sum
  total : ((pieceWidths speeds).map (min (min len 9))).sum < len

section Pieces

/-- Strings one behind the other. -/
def concatStrings : List CString → CString
  | [] => .lit ""
  | text :: texts => text ++ concatStrings texts

theorem length_concatStrings (texts : List CString) :
    (concatStrings texts).length = (texts.map CString.length).sum := by
  induction texts with
  | nil => rfl
  | cons text texts ih =>
      rw [concatStrings, CString.length_append, ih, List.map_cons, List.sum_cons]

theorem length_concatStrings_take_le (bound : Nat) (texts : List CString) :
    (concatStrings (texts.map (CString.take bound))).length ≤ (concatStrings texts).length := by
  induction texts with
  | nil => exact Nat.le_refl _
  | cons text texts ih =>
      simp only [List.map_cons, concatStrings, CString.length_append, CString.length_take]
      omega

/-- Cutting the strings changes the whole unless it changes none of them. -/
theorem concatStrings_take_eq_iff {bound : Nat} {texts : List CString} :
    concatStrings (texts.map (CString.take bound)) = concatStrings texts ↔
      ∀ text ∈ texts, text.length ≤ bound := by
  induction texts with
  | nil => exact ⟨fun _ => nofun, fun _ => rfl⟩
  | cons text texts ih =>
      simp only [List.map_cons, concatStrings, List.forall_mem_cons]
      constructor
      · intro hSame
        have hLengths := congrArg CString.length hSame
        have hRest := length_concatStrings_take_le bound texts
        simp only [CString.length_append, CString.length_take] at hLengths
        have hFirst : text.length ≤ bound := by omega
        rw [CString.take_of_length_le hFirst, CString.append_cancel] at hSame
        exact ⟨hFirst, ih.mp hSame⟩
      · intro ⟨hFirst, hRest⟩
        rw [CString.take_of_length_le hFirst, ih.mpr hRest]

/-- The texts from an index on. -/
def speedTexts : Nat → List Int → List CString
  | _, [] => []
  | i, speed :: speeds => speedText i speed :: speedTexts (i + 1) speeds

/-- The loop appends each piece, cut to nine characters. -/
theorem appendSpeeds_eq (len i : Nat) (speedStr : CString) (speeds : List Int) :
    appendSpeeds len i speedStr speeds =
      speedStr ++ concatStrings ((speedTexts i speeds).map (CString.take (min len 9))) := by
  induction speeds generalizing i speedStr with
  | nil => exact CString.ext (List.append_nil _).symm
  | cons speed speeds ih =>
      rw [appendSpeeds, ih, strncat, snprintf, CString.take_take, CString.append_assoc]
      rfl

/-- The string is made of the cut pieces. -/
theorem sysdGetSpeedsString_eq (len : Nat) (speeds : List Int) :
    sysdGetSpeedsString len speeds =
      concatStrings ((speedTexts 0 speeds).map (CString.take (min len 9))) :=
  appendSpeeds_eq len 0 (.lit "") speeds

/-- The list that is meant is made of the whole ones. -/
theorem commaJoined_eq (speeds : List Int) :
    commaJoined speeds = concatStrings (speedTexts 0 speeds) := by
  have hLater (i : Nat) (speed : Int) (later : List Int) :
      concatStrings (speedTexts (i + 1) (speed :: later)) =
        .lit "," ++ commaJoined (speed :: later) := by
    induction later generalizing i speed with
    | nil => exact CString.ext (List.append_nil _)
    | cons next later ih =>
        rw [speedTexts, concatStrings, ih, commaJoined, speedText, if_neg (Nat.succ_ne_zero i),
          CString.append_assoc]
  cases speeds with
  | nil => rfl
  | cons speed speeds =>
      cases speeds with
      | nil => exact CString.ext (List.append_nil _).symm
      | cons next speeds =>
          rw [commaJoined, speedTexts, concatStrings, hLater]
          rfl

theorem chars_decimal (n : Int) : (decimal n).chars = (toString n).toList :=
  CString.chars_lit (ascii_toString n)

/-- A number is as wide as its digits and its sign. -/
theorem length_decimal (n : Int) : (decimal n).length = decimalWidth n := by
  have hLength := congrArg List.length (chars_decimal n)
  rwa [CString.chars, List.length_map] at hLength

theorem decimalWidth_pos (n : Int) : 0 < decimalWidth n := by
  rw [decimalWidth, ← String.length_toList, toList_toString]
  split
  · exact List.length_pos_of_ne_nil Nat.toDigits_ne_nil
  · exact Nat.succ_pos _

theorem length_speedTexts (speeds : List Int) :
    (speedTexts 0 speeds).map CString.length = pieceWidths speeds := by
  have hComma : (CString.lit ",").length = 1 := by decide
  have hLater (i : Nat) (later : List Int) : (speedTexts (i + 1) later).map CString.length =
      later.map fun speed => decimalWidth speed + 1 := by
    induction later generalizing i with
    | nil => rfl
    | cons speed later ih =>
        rw [speedTexts, List.map_cons, List.map_cons, ih, speedText, if_neg (Nat.succ_ne_zero i),
          CString.length_append, length_decimal, hComma, Nat.add_comm]
  cases speeds with
  | nil => rfl
  | cons speed speeds =>
      rw [speedTexts, List.map_cons, hLater, speedText, if_pos rfl, length_decimal, pieceWidths]

/-- The list is as long as its pieces. -/
theorem length_commaJoined (speeds : List Int) :
    (commaJoined speeds).length = (pieceWidths speeds).sum := by
  rw [commaJoined_eq, length_concatStrings, length_speedTexts]

/-- The string is as long as the cut ones. -/
theorem length_sysdGetSpeedsString (len : Nat) (speeds : List Int) :
    (sysdGetSpeedsString len speeds).length = ((pieceWidths speeds).map (min (min len 9))).sum := by
  rw [sysdGetSpeedsString_eq, length_concatStrings, ← length_speedTexts, List.map_map, List.map_map]
  exact congrArg List.sum (List.map_congr_left fun text _ => CString.length_take _ _)

end Pieces

section ReadBack

/-- No comma is written for a number. -/
theorem comma_not_mem_decimal (n : Int) : 44 ∉ (decimal n).bytes := by
  intro hMem
  have hComma : ',' ∈ (toString n).toList := by
    rw [← chars_decimal]
    exact List.mem_map_of_mem hMem
  have hDigit (m : Nat) : ',' ∉ Nat.toDigits 10 m := fun h =>
    absurd (Nat.isDigit_of_mem_toDigits (by decide) (by decide) h) (by decide)
  rw [toList_toString] at hComma
  split at hComma
  · exact hDigit _ hComma
  · cases hComma with
    | tail _ hRest => exact hDigit _ hRest

theorem commaJoined_bytes (speeds : List Int) :
    (commaJoined speeds).bytes = [44].intercalate (speeds.map fun speed => (decimal speed).bytes) := by
  induction speeds with
  | nil => rfl
  | cons speed speeds ih =>
      cases speeds with
      | nil => rw [commaJoined, List.map_singleton, List.intercalate_singleton]
      | cons next speeds =>
          rw [commaJoined, CString.append_bytes, CString.append_bytes, ih]
          simp only [List.map_cons, List.intercalate_cons_cons, List.append_assoc]
          rfl

/-- The numbers are read back from between the commas. -/
theorem readSpeeds_commaJoined (speeds : List Int) : readSpeeds (commaJoined speeds) = some speeds := by
  cases speeds with
  | nil => rfl
  | cons speed speeds =>
      have hText : (commaJoined (speed :: speeds)).bytes ≠ [] := by
        intro hEmpty
        have hLength := length_commaJoined (speed :: speeds)
        rw [CString.length, hEmpty, pieceWidths, List.sum_cons, List.length_nil] at hLength
        have hPositive := decimalWidth_pos speed
        omega
      have hPieces : ∀ bytes ∈ (speed :: speeds).map fun later => (decimal later).bytes, 44 ∉ bytes := by
        intro bytes hMem
        obtain ⟨later, -, rfl⟩ := List.mem_map.mp hMem
        exact comma_not_mem_decimal later
      rw [readSpeeds, if_neg hText, commaJoined_bytes,
        List.splitOn_intercalate 44 hPieces (List.cons_ne_nil _ _), List.mapM_map]
      simp only [Function.comp_def, CString.cut_bytes_self, decimal, ofDecimal_toString]
      change (speed :: speeds).mapM (fun later => (pure (id later) : Option Int)) = _
      rw [List.mapM_pure, List.map_id]
      rfl

end ReadBack

/-- The text of the speeds is right exactly where their widths fit. -/
theorem speedsRoundTrip_iff (len : Nat) (speeds : List Int) :
    SpeedsRoundTrip len speeds ↔ SpeedsFit len speeds := by
  have hSame : sysdGetSpeedsString len speeds = commaJoined speeds ↔
      ∀ width ∈ pieceWidths speeds, width ≤ min len 9 := by
    rw [sysdGetSpeedsString_eq, commaJoined_eq, concatStrings_take_eq_iff, ← length_speedTexts,
      List.forall_mem_map]
  constructor
  · rintro ⟨hRendered, _, hInside⟩
    refine ⟨?_, length_sysdGetSpeedsString len speeds ▸ hInside⟩
    rcases Nat.lt_or_ge (pieceWidths speeds).sum len with hFits | hLong
    · have hWidths := hSame.mp (hRendered (length_commaJoined speeds ▸ hFits))
      exact .inl fun width hWidth => Nat.le_trans (hWidths width hWidth) (Nat.min_le_right _ _)
    · exact .inr hLong
  · rintro ⟨hUncut, hTotal⟩
    have hRendered (hFits : (commaJoined speeds).length < len) :
        sysdGetSpeedsString len speeds = commaJoined speeds := by
      rw [length_commaJoined] at hFits
      have hNarrow := hUncut.resolve_right (Nat.not_le.mpr hFits)
      refine hSame.mpr fun width hWidth => Nat.le_min.mpr ⟨?_, hNarrow width hWidth⟩
      exact Nat.le_of_lt (Nat.lt_of_le_of_lt (List.le_sum_of_mem hWidth) hFits)
    refine ⟨hRendered, fun hFits => ?_, ?_⟩
    · rw [hRendered hFits]
      exact readSpeeds_commaJoined speeds
    · rwa [length_sysdGetSpeedsString]

/-- The last digit of a speed of ten digits is lost. -/
theorem tenDigits_not_roundTrip : ¬ SpeedsRoundTrip speedsBufferSize [1000000000] := by
  intro hRound
  have hFits : (commaJoined [1000000000]).length < speedsBufferSize := by decide
  have hSame := hRound.rendered hFits
  exact absurd hSame (by decide)

end OpsSysd.Daemon
