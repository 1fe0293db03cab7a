import OpsSysd.Library.CString

/-! Reading back the decimal numbers that `printf` writes. -/
namespace CLib

namespace CString

/-- The bytes as characters. -/
def chars (s : CString) : List Char := s.bytes.map fun byte => Char.ofNat byte.toNat

/-- A literal of ASCII characters is read back as it is written. -/
theorem chars_lit {text : String} (h : ∀ c ∈ text.toList, 0 < c.toNat ∧ c.toNat < 128) :
    (lit text).chars = text.toList := by
  have hByte : ∀ c ∈ text.toList, c.toNat.toUInt8.toNat = c.toNat := by
    intro c hc
    have hSmall : c.toNat < 2 ^ 8 := Nat.lt_trans (h c hc).2 (by decide)
    exact UInt8.toNat_ofNat_of_lt hSmall
  have hBytes : (lit text).bytes = text.toList.map fun c => c.toNat.toUInt8 := by
    refine List.takeWhile_eq_self_iff.mpr fun byte hMem => ?_
    obtain ⟨c, hc, rfl⟩ := List.mem_map.mp hMem
    have hPositive := (h c hc).1
    have hSame := hByte c hc
    simp only [ne_eq, decide_eq_true_eq]
    intro hZero
    rw [hZero] at hSame
    have hNone : (0 : UInt8).toNat = 0 := rfl
    omega
  rw [chars, hBytes, List.map_map]
  refine (List.map_congr_left fun c hc => ?_).trans (List.map_id _)
  rw [Function.comp_apply, hByte c hc, Char.ofNat_toNat]
  rfl

end CString

/-- The value of a nonempty list of digits. -/
def ofDigits (digits : List Char) : Option Nat :=
  if digits ≠ [] ∧ digits.all Char.isDigit = true then some (Nat.ofDigitChars 10 digits 0) else none

/-- The number that a string of digits stands for, with a minus sign perhaps. -/
def ofDecimal (text : CString) : Option Int :=
  match text.chars with
  | '-' :: digits => (ofDigits digits).map fun n : Nat => -(n : Int)
  | digits => (ofDigits digits).map fun n : Nat => (n : Int)

/-- The digits of a number read back as the number. -/
theorem ofDigits_toDigits (n : Nat) : ofDigits (Nat.toDigits 10 n) = some n := by
  have hDigits : Nat.toDigits 10 n ≠ [] ∧ (Nat.toDigits 10 n).all Char.isDigit = true :=
    ⟨Nat.toDigits_ne_nil,
      List.all_eq_true.mpr fun c hc => Nat.isDigit_of_mem_toDigits (by decide) (by decide) hc⟩
  rw [ofDigits, if_pos hDigits, Nat.ofDigitChars_ten_toDigits]

/-- Digits lie between `0` and `9` in ASCII. -/
theorem isDigit_bounds {c : Char} (h : c.isDigit = true) : 48 ≤ c.toNat ∧ c.toNat ≤ 57 := by
  simp only [Char.isDigit, Bool.and_eq_true, decide_eq_true_eq] at h
  exact ⟨h.1, h.2⟩

/-- The characters of a number, as `%d` writes them. -/
theorem toList_toString (n : Int) :
    (toString n).toList =
      if 0 ≤ n then Nat.toDigits 10 n.toNat else '-' :: Nat.toDigits 10 (-n).toNat := by
  rw [Int.toString_eq_repr, Int.repr_eq_if]
  split
  · exact Nat.toList_repr
  · rw [String.toList_append, Nat.toList_repr]
    rfl

/-- A number in decimal has neither NUL nor bytes above 127. -/
theorem ascii_toString (n : Int) : ∀ c ∈ (toString n).toList, 0 < c.toNat ∧ c.toNat < 128 := by
  have hDigit : ∀ m : Nat, ∀ c ∈ Nat.toDigits 10 m, 0 < c.toNat ∧ c.toNat < 128 := by
    intro m c hc
    have := isDigit_bounds (Nat.isDigit_of_mem_toDigits (by decide) (by decide) hc)
    omega
  rw [toList_toString]
  split
  · exact hDigit _
  · intro c hc
    rcases List.mem_cons.mp hc with rfl | hRest
    · decide
    · exact hDigit _ c hRest

/-- What `%d` writes is read back. -/
theorem ofDecimal_toString (n : Int) : ofDecimal (.lit (toString n)) = some n := by
  rw [ofDecimal, CString.chars_lit (ascii_toString n), toList_toString]
  by_cases h : 0 ≤ n
  · rw [if_pos h]
    have hFirst : ∀ rest, Nat.toDigits 10 n.toNat ≠ '-' :: rest := by
      intro rest hSame
      have hMem : '-' ∈ Nat.toDigits 10 n.toNat := hSame ▸ List.mem_cons_self
      exact absurd (Nat.isDigit_of_mem_toDigits (by decide) (by decide) hMem) (by decide)
    split
    case h_1 digits hMinus => exact absurd hMinus (hFirst digits)
    case h_2 =>
      rw [ofDigits_toDigits, Option.map_some, Int.toNat_of_nonneg h]
  · rw [if_neg h]
    simp only [ofDigits_toDigits, Option.map_some, Option.some.injEq]
    omega

/-- A 64-bit number takes at most twenty characters. -/
theorem length_toString_le {n : Int} (hLower : -2 ^ 63 ≤ n) (hUpper : n < 2 ^ 63) :
    (toString n).toList.length ≤ 20 := by
  rw [toList_toString]
  split
  · exact Nat.le_succ_of_le ((Nat.length_toDigits_le_iff (by decide) (by decide)).mpr (by omega))
  · exact Nat.succ_le_succ ((Nat.length_toDigits_le_iff (by decide) (by decide)).mpr (by omega))

end CLib
