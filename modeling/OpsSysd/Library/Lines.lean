import Mathlib.Tactic.Common
import Mathlib.Data.List.Basic

/-! The lines of a text, and reading them one after the other. -/
namespace CLib

def newline : UInt8 := 10

/-- A line: what stands in front of its terminator, and whether it has one. Only
a line with something in it can do without. -/
structure Line where
  text : List UInt8
  terminated : Bool
  noNewline : newline ∉ text
  filled : terminated = true ∨ text ≠ []

/-- The line as it stands in the text. -/
def Line.bytes (line : Line) : List UInt8 :=
  if line.terminated then line.text ++ [newline] else line.text

/-- An empty line. -/
def Line.empty : Line := ⟨[], true, List.not_mem_nil, .inl rfl⟩

/-- A last line of one byte. -/
def Line.last (byte : UInt8) (h : byte ≠ newline) : Line :=
  ⟨[byte], false, fun hMem => h (List.mem_singleton.mp hMem).symm, .inr (List.cons_ne_nil _ _)⟩

def Line.cons (byte : UInt8) (h : byte ≠ newline) (line : Line) : Line :=
  ⟨byte :: line.text, line.terminated,
    fun hMem => (List.mem_cons.mp hMem).elim (fun hHead => h hHead.symm) line.noNewline,
    .inr (List.cons_ne_nil _ _)⟩

/-- All lines of a text. -/
def lines : List UInt8 → List Line
  | [] => []
  | byte :: rest =>
      if h : byte = newline then .empty :: lines rest
      else match lines rest with
        | [] => [.last byte h]
        | line :: more => line.cons byte h :: more

/-- `getline`: the first line with its terminator, and the text after it. At the
end of the text there is none. -/
def getline : List UInt8 → Option (List UInt8 × List UInt8)
  | [] => none
  | byte :: rest =>
      if byte = newline then some ([byte], rest)
      else match getline rest with
        | none => some ([byte], [])
        | some (line, after) => some (byte :: line, after)

section Reading

variable {text rest bytes : List UInt8} {line : Line} {more : List Line}

/-- Each line makes the rest shorter. -/
theorem getline_length (h : getline text = some (bytes, rest)) : rest.length < text.length := by
  induction text generalizing bytes with
  | nil => cases h
  | cons byte text ih =>
      rw [getline] at h
      split at h
      · cases h
        exact Nat.lt_succ_self _
      · split at h
        · cases h
          exact Nat.succ_pos _
        · rename_i line after hRest
          cases h
          exact Nat.lt_succ_of_lt (ih hRest)

@[simp] theorem Line.bytes_empty : Line.empty.bytes = [newline] := rfl

@[simp] theorem Line.bytes_last (byte : UInt8) (h : byte ≠ newline) :
    (Line.last byte h).bytes = [byte] := rfl

@[simp] theorem Line.bytes_cons (byte : UInt8) (h : byte ≠ newline) (line : Line) :
    (line.cons byte h).bytes = byte :: line.bytes := by
  cases hTerminated : line.terminated <;> simp [Line.bytes, Line.cons, hTerminated]

/-- Only the empty text has no lines. -/
theorem lines_eq_nil : lines text = [] ↔ text = [] := by
  cases text with
  | nil => simp [lines]
  | cons byte text =>
      rw [lines]
      split
      · simp
      · split <;> simp

/-- Reading takes the lines in their order. -/
theorem getline_of_lines (h : lines text = line :: more) :
    ∃ rest, getline text = some (line.bytes, rest) ∧ lines rest = more := by
  induction text generalizing line more with
  | nil => cases h
  | cons byte text ih =>
      rw [lines] at h
      rw [getline]
      split at h
      · rename_i hByte
        cases h
        rw [if_pos hByte, hByte]
        exact ⟨text, rfl, rfl⟩
      · rename_i hByte
        rw [if_neg hByte]
        split at h
        · rename_i hNone
          cases h
          rw [lines_eq_nil.mp hNone]
          exact ⟨[], rfl, rfl⟩
        · rename_i first later hRest
          cases h
          obtain ⟨rest, hGetline, hLines⟩ := ih hRest
          rw [hGetline, Line.bytes_cons]
          exact ⟨rest, rfl, hLines⟩

/-- Lines run out together with the text. -/
theorem getline_eq_none : getline text = none ↔ lines text = [] := by
  constructor
  · intro h
    cases hLines : lines text with
    | nil => rfl
    | cons line more =>
        obtain ⟨rest, hGetline, -⟩ := getline_of_lines hLines
        cases h.symm.trans hGetline
  · intro h
    rw [lines_eq_nil.mp h, getline]

/-- The lines make up the text. -/
theorem flatMap_lines (text : List UInt8) : (lines text).flatMap Line.bytes = text := by
  induction text with
  | nil => rfl
  | cons byte text ih =>
      rw [lines]
      split
      · rename_i hByte
        rw [List.flatMap_cons, ih, Line.bytes_empty, hByte]
        rfl
      · split
        · rename_i hNone
          simp [lines_eq_nil.mp hNone]
        · rename_i line more hRest
          rw [hRest, List.flatMap_cons] at ih
          rw [List.flatMap_cons, Line.bytes_cons, List.cons_append, ih]

/-- The bytes of the lines are those of the text. -/
theorem mem_of_mem_lines {byte : UInt8} (hLine : line ∈ lines text) (h : byte ∈ line.bytes) :
    byte ∈ text := by
  rw [← flatMap_lines text]
  exact List.mem_flatMap.mpr ⟨line, hLine, h⟩

/-- No line is empty. -/
theorem Line.bytes_ne_nil (line : Line) : line.bytes ≠ [] := by
  rw [Line.bytes]
  split
  · simp
  · rename_i hTerminated
    exact line.filled.resolve_left hTerminated

end Reading
end CLib
