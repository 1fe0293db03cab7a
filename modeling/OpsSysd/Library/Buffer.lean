import OpsSysd.Library.CString
import OpsSysd.Library.Occurrence

/-! A block of memory as the list of its bytes, and the string functions that
work in place on it. -/
namespace CLib

/-- A `size_t` assigned to an `int`: its low 32 bits, with a sign. -/
def toInt (size : Nat) : Int :=
  if size % 2 ^ 32 < 2 ^ 31 then (size % 2 ^ 32 : Nat) else (size % 2 ^ 32 : Nat) - 2 ^ 32

/-- A size below 2^31 is itself as an `int`. -/
theorem toInt_of_lt {size : Nat} (h : size < 2 ^ 31) : toInt size = size := by
  unfold toInt
  split <;> omega

/-- A size as an `int` is never larger. -/
theorem toInt_le (size : Nat) : toInt size ≤ size := by
  unfold toInt
  split <;> omega

/-- A size that does not fit leaves less by at least the range of an `int`. -/
theorem toInt_of_le {size : Nat} (h : 2 ^ 31 ≤ size) : toInt size ≤ size - 2 ^ 32 := by
  unfold toInt
  split <;> omega

/-- The string at an index: up to the first NUL from there on. -/
def stringAt (buffer : List UInt8) (start : Nat) : CString := CString.cut (buffer.drop start)

/-- `strstr` from an index of a block: the index of the occurrence. -/
def strstr (buffer : List UInt8) (start : Nat) (pattern : CString) : Option Nat :=
  (Occurrence.search pattern.bytes (stringAt buffer start).bytes).map (start + ·)

/-- `memmove` inside a block: the bytes are taken before any is stored. -/
def memmove (buffer : List UInt8) (dest source count : Nat) : List UInt8 :=
  buffer.take dest ++ (buffer.drop source).take count ++ buffer.drop (dest + count)

section Strings

variable {before text after : List UInt8}

/-- The string at a place is what stands there up to its terminator. -/
theorem stringAt_eq (text : CString) (before after : List UInt8) :
    stringAt (before ++ (text.bytes ++ 0 :: after)) before.length = text := by
  rw [stringAt, List.drop_left, CString.cut_append_nul, CString.cut_bytes_self]

/-- A terminated string may be read from any of its bytes on. -/
theorem stringAt_of_terminated (h : 0 ∉ text) :
    (stringAt (before ++ (text ++ 0 :: after)) before.length).bytes = text :=
  congrArg CString.bytes (stringAt_eq ⟨text, h⟩ before after)

/-- Bytes moved down over a gap: what was behind them stays where it was. -/
theorem memmove_down (before gap moved behind : List UInt8) :
    memmove (before ++ (gap ++ (moved ++ behind))) before.length (before.length + gap.length)
        moved.length =
      before ++ (moved ++ ((gap ++ moved).drop moved.length ++ behind)) := by
  have hSource : (before ++ (gap ++ (moved ++ behind))).drop (before.length + gap.length) =
      moved ++ behind := by
    rw [← List.drop_drop, List.drop_left, List.drop_left]
  have hBehind : (before ++ (gap ++ (moved ++ behind))).drop (before.length + moved.length) =
      (gap ++ moved).drop moved.length ++ behind := by
    rw [← List.drop_drop, List.drop_left, ← List.append_assoc]
    exact List.drop_append_of_le_length (by rw [List.length_append]; exact Nat.le_add_left _ _)
  rw [memmove, List.take_left, hSource, List.take_left, hBehind, List.append_assoc]

end Strings
end CLib
