import Mathlib.Tactic.Common
import Mathlib.Algebra.Group.Int.Defs
import Mathlib.Algebra.GroupWithZero.Nat
import Mathlib.Data.List.Basic
import Mathlib.Data.List.DropRight

/-! C strings and the byte-level string functions of the C library. A string
is the list of its bytes before the terminator, so it never contains a NUL. -/
namespace CLib

/-- The bytes of a NUL-terminated string, without the terminator. -/
@[ext] structure CString where
  bytes : List UInt8
  noNul : 0 ∉ bytes
  deriving DecidableEq

namespace CString

/-- Read a buffer as a C string: everything before the first NUL. -/
def cut (buffer : List UInt8) : CString where
  bytes := buffer.takeWhile (· ≠ 0)
  noNul := fun h => by simpa using List.mem_takeWhile_imp h

/-- A string literal of the source. -/
def lit (text : String) : CString := cut (text.toList.map fun c => c.toNat.toUInt8)

instance : Inhabited CString := ⟨⟨[], by simp⟩⟩

def empty : CString := ⟨[], List.not_mem_nil⟩

def length (s : CString) : Nat := s.bytes.length

instance : Append CString where
  append a b := ⟨a.bytes ++ b.bytes, by simp [a.noNul, b.noNul]⟩

@[simp] theorem append_bytes (a b : CString) : (a ++ b).bytes = a.bytes ++ b.bytes := rfl

@[simp] theorem length_append (a b : CString) : (a ++ b).length = a.length + b.length :=
  List.length_append

theorem append_assoc (a b c : CString) : a ++ b ++ c = a ++ (b ++ c) :=
  CString.ext (List.append_assoc _ _ _)

/-- Strings with one beginning are equal exactly if their ends are. -/
theorem append_cancel {a b c : CString} : a ++ b = a ++ c ↔ b = c := by
  rw [CString.ext_iff, CString.ext_iff, append_bytes, append_bytes, List.append_cancel_left_eq]

def take (n : Nat) (s : CString) : CString :=
  ⟨s.bytes.take n, fun h => s.noNul (List.mem_of_mem_take h)⟩

@[simp] theorem take_bytes (n : Nat) (s : CString) : (s.take n).bytes = s.bytes.take n := rfl

@[simp] theorem length_take (n : Nat) (s : CString) : (s.take n).length = min n s.length :=
  List.length_take

/-- A string that is short enough is not cut. -/
theorem take_of_length_le {n : Nat} {s : CString} (h : s.length ≤ n) : s.take n = s :=
  CString.ext (List.take_of_length_le h)

theorem take_take (m n : Nat) (s : CString) : (s.take n).take m = s.take (min m n) :=
  CString.ext List.take_take

@[simp] theorem cut_bytes_self (s : CString) : cut s.bytes = s := by
  apply CString.ext
  have hAll : ∀ b ∈ s.bytes, b ≠ 0 := fun b hb h0 => s.noNul (h0 ▸ hb)
  simpa [cut, List.takeWhile_eq_self_iff] using hAll

/-- Bytes after a NUL are not part of the string. -/
theorem cut_append_nul (before after : List UInt8) :
    cut (before ++ 0 :: after) = cut before := by
  apply CString.ext
  induction before with
  | nil => simp [cut]
  | cons b before ih =>
      by_cases hb : b = 0
      · simp [cut, hb]
      · simpa [cut, hb] using ih

end CString

/-- `strncmp`: the difference at the first of at most `n` positions where the
strings differ. A string that ends is followed by its NUL. -/
def strncmpBytes : Nat → List UInt8 → List UInt8 → Int
  | 0, _, _ => 0
  | _ + 1, [], [] => 0
  | _ + 1, a :: _, [] => a.toNat
  | _ + 1, [], b :: _ => - (b.toNat : Int)
  | n + 1, a :: left, b :: right =>
      if a = b then strncmpBytes n left right else (a.toNat : Int) - b.toNat

def strncmp (a b : CString) (n : Nat) : Int := strncmpBytes n a.bytes b.bytes

/-- Comparing as many bytes as a string has asks whether it is a prefix. -/
theorem strncmp_length_eq_zero (a b : CString) :
    strncmp a b a.length = 0 ↔ a.bytes <+: b.bytes := by
  obtain ⟨left, hLeft⟩ := a
  obtain ⟨right, hRight⟩ := b
  change strncmpBytes left.length left right = 0 ↔ left <+: right
  clear hRight
  induction left generalizing right with
  | nil => simp [strncmpBytes]
  | cons x left ih =>
      have hx : x ≠ 0 := fun h => hLeft (by simp [h])
      cases right with
      | nil =>
          have hPositive : x.toNat ≠ 0 := fun h => hx (UInt8.toNat_inj.mp h)
          simpa [strncmpBytes] using hPositive
      | cons y right =>
          by_cases hxy : x = y
          · subst hxy
            simpa [strncmpBytes] using ih (fun h => hLeft (List.mem_cons_of_mem _ h)) right
          · have hDiffer : x.toNat ≠ y.toNat := fun h => hxy (UInt8.toNat_inj.mp h)
            rw [List.length_cons, strncmpBytes, if_neg hxy, List.cons_prefix_cons]
            simp only [hxy, false_and, iff_false]
            omega

/-- Whether two strings agree does not depend on their order. -/
theorem strncmpBytes_eq_zero_comm (n : Nat) (left right : List UInt8) :
    strncmpBytes n left right = 0 ↔ strncmpBytes n right left = 0 := by
  induction n generalizing left right with
  | zero => exact Iff.rfl
  | succ n ih =>
      cases left with
      | nil => cases right <;> simp [strncmpBytes]
      | cons a left =>
          cases right with
          | nil => simp [strncmpBytes]
          | cons b right =>
              by_cases hab : a = b
              · subst hab
                simpa [strncmpBytes] using ih left right
              · have hba : ¬ b = a := fun h => hab h.symm
                simp only [strncmpBytes, if_neg hab, if_neg hba]
                omega

/-- Comparing up to the length of the second string asks whether it is a prefix. -/
theorem strncmp_right_length_eq_zero (a b : CString) :
    strncmp a b b.length = 0 ↔ b.bytes <+: a.bytes := by
  rw [← strncmp_length_eq_zero b a]
  exact strncmpBytes_eq_zero_comm _ _ _

/-- `strcmp(a, b) == 0`. -/
def streq (a b : CString) : Bool := a = b

/-- `strcmp` finds equal strings equal, and no others. -/
@[simp] theorem streq_iff (a b : CString) : streq a b = true ↔ a = b := by simp [streq]

/-- The `n` bytes `strncpy` stores: the source up to its NUL, then padding. -/
def strncpy (source : Nat → UInt8) : Nat → List UInt8
  | 0 => []
  | n + 1 =>
      if source 0 = 0 then List.replicate (n + 1) 0
      else source 0 :: strncpy (fun i => source (i + 1)) n

/-- After the terminator `strncpy` pads. -/
theorem strncpy_of_nul {source : Nat → UInt8} (h : source 0 = 0) (n : Nat) :
    strncpy source (n + 1) = List.replicate (n + 1) 0 := if_pos h

/-- Before it, it copies. -/
theorem strncpy_of_ne {source : Nat → UInt8} (h : source 0 ≠ 0) (n : Nat) :
    strncpy source (n + 1) = source 0 :: strncpy (fun i => source (i + 1)) n := if_neg h

/-- It writes as many bytes as it is told to, whatever the source. -/
@[simp] theorem strncpy_length (source : Nat → UInt8) (n : Nat) :
    (strncpy source n).length = n := by
  induction n generalizing source with
  | zero => rfl
  | succ n ih =>
      rw [strncpy]
      split
      · simp
      · simp [ih]

/-- `strncpy` looks at no byte past the bound. -/
theorem strncpy_congr {source other : Nat → UInt8} {n : Nat}
    (h : ∀ i < n, source i = other i) : strncpy source n = strncpy other n := by
  induction n generalizing source other with
  | zero => rfl
  | succ n ih =>
      rw [strncpy, strncpy, h 0 (Nat.succ_pos n),
        ih fun i hi => h (i + 1) (Nat.succ_lt_succ hi)]

/-- A larger bound only adds bytes at the end. -/
theorem strncpy_succ_take (source : Nat → UInt8) (n : Nat) :
    (strncpy source (n + 1)).take n = strncpy source n := by
  induction n generalizing source with
  | zero => rfl
  | succ n ih =>
      by_cases h : source 0 = 0
      · rw [strncpy_of_nul h, strncpy_of_nul h, List.take_replicate, Nat.min_eq_left (by omega)]
      · rw [strncpy_of_ne h, strncpy_of_ne h, List.take_succ_cons, ih]

/-- Terminated right after the copied bytes, the copy is the source's string. -/
theorem cut_strncpy (bytes after : List UInt8) (source : Nat → UInt8)
    (h : ∀ i (hi : i < bytes.length), source i = bytes[i]) :
    CString.cut (strncpy source bytes.length ++ 0 :: after) = CString.cut bytes := by
  rw [CString.cut_append_nul]
  induction bytes generalizing source with
  | nil => rfl
  | cons b bytes ih =>
      have hHead : source 0 = b := h 0 (Nat.succ_pos _)
      have hTail := ih (fun i => source (i + 1)) fun i hi => h (i + 1) (Nat.succ_lt_succ hi)
      rw [List.length_cons]
      by_cases hb : b = 0
      · rw [strncpy_of_nul (by rw [hHead, hb])]
        simp [CString.cut, hb, List.replicate_succ]
      · rw [strncpy_of_ne (by rwa [hHead]), hHead]
        have hBytes := congrArg CString.bytes hTail
        apply CString.ext
        simpa [CString.cut, hb] using hBytes

/-- A string shorter than the bound is copied whole and padded. -/
theorem strncpy_cstring (text : CString) {bound : Nat} (h : text.length ≤ bound) :
    strncpy (fun i => text.bytes.getD i 0) bound =
      text.bytes ++ List.replicate (bound - text.length) 0 := by
  obtain ⟨bytes, hNul⟩ := text
  change bytes.length ≤ bound at h
  change strncpy (fun i => bytes.getD i 0) bound = bytes ++ List.replicate (bound - bytes.length) 0
  induction bytes generalizing bound with
  | nil =>
      cases bound with
      | zero => rfl
      | succ bound => exact strncpy_of_nul rfl bound
  | cons b bytes ih =>
      obtain ⟨hHead, hTail⟩ := not_or.mp (List.mem_cons.not.mp hNul)
      cases bound with
      | zero => exact absurd h (Nat.not_succ_le_zero _)
      | succ bound =>
          rw [strncpy_of_ne (Ne.symm hHead), List.length_cons, Nat.succ_sub_succ]
          exact congrArg (List.cons b) (ih hTail (Nat.le_of_succ_le_succ h))

/-- `strncat`: at most `n` bytes of the source go behind the string, and the
terminator behind them. The bound says nothing about the room that is left. -/
def strncat (dest source : CString) (n : Nat) : CString := dest ++ source.take n

/-- It appends at most the given number of bytes. -/
theorem strncat_length (dest source : CString) (n : Nat) :
    (strncat dest source n).length = dest.length + min n source.length := by
  rw [strncat, CString.length_append, CString.length_take]

/-- Memory that holds these bytes from an offset on. -/
def Holds (memory : Nat → UInt8) (offset : Nat) (bytes : List UInt8) : Prop :=
  ∀ i (hi : i < bytes.length), memory (offset + i) = bytes[i]

/-- What holds two pieces holds each at its place. -/
theorem Holds.append {memory : Nat → UInt8} {offset : Nat} {first second : List UInt8}
    (h : Holds memory offset (first ++ second)) :
    Holds memory offset first ∧ Holds memory (offset + first.length) second := by
  constructor
  · intro i hi
    have hAt := h i (by simp; omega)
    rwa [List.getElem_append_left hi] at hAt
  · intro i hi
    have hAt := h (first.length + i) (by simp; omega)
    rw [List.getElem_append_right (Nat.le_add_right _ _)] at hAt
    simpa [Nat.add_assoc] using hAt

/-- A list of bytes holds itself. -/
theorem holds_getD (bytes : List UInt8) : Holds (fun i => bytes.getD i 0) 0 bytes := by
  intro i hi
  simp [hi]

/-- Reading memory back gives the bytes it holds. -/
theorem Holds.map_range {memory : Nat → UInt8} {bytes : List UInt8} (h : Holds memory 0 bytes) :
    (List.range bytes.length).map memory = bytes := by
  apply List.ext_getElem (by simp)
  intro i hi hBytes
  have hAt := h i hBytes
  rw [Nat.zero_add] at hAt
  simpa using hAt

end CLib
