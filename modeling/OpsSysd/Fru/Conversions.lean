import OpsSysd.Fru.Sources

/-! The MAC address of the description. Each of its six conversions stores four
bytes where the array has one, so that it runs over its successors, and the last
ones over the date behind the array. What they spoil is assigned again later. -/
namespace OpsSysd.Fru

open CLib

section Text

/-- The eight digits of a word. -/
def wordDigits (word : UInt32) : List (Fin 16) :=
  [28, 24, 20, 16, 12, 8, 4, 0].map fun shift => Fin.ofNat 16 (word.toNat / 2 ^ shift)

/-- Groups as the description writes them. -/
def groupsText : List UInt32 → List UInt8
  | [] => []
  | word :: words => (wordDigits word).map (fun digit : Fin 16 => hexDigit digit) ++
      (if words = [] then [] else 58 :: groupsText words)

/-- One more digit of a number behind those read so far. -/
theorem append_digit (word : Nat) {high low : Nat} (h : high = low + 4) :
    word / 2 ^ high * 16 + word / 2 ^ low % 16 = word / 2 ^ low := by
  rw [h, Nat.pow_add, ← Nat.div_div_eq_div_mul]
  exact Nat.div_add_mod' _ 16

/-- The digits of a word have its value. -/
theorem value_wordDigits (word : UInt32) :
    ((wordDigits word).map Fin.val).foldl (fun value digit => value * 16 + digit) 0 = word.toNat := by
  have hWord := word.toNat_lt
  have hFirst : word.toNat / 2 ^ 28 % 16 = word.toNat / 2 ^ 28 := Nat.mod_eq_of_lt (by omega)
  have hLast : word.toNat / 2 ^ 0 = word.toNat := Nat.div_one _
  simp only [wordDigits, List.map_cons, List.map_nil, List.foldl_cons, List.foldl_nil,
    Fin.val_ofNat, Nat.zero_mul, Nat.zero_add, hFirst]
  rw [append_digit _ (show 28 = 24 + 4 from rfl), append_digit _ (show 24 = 20 + 4 from rfl),
    append_digit _ (show 20 = 16 + 4 from rfl), append_digit _ (show 16 = 12 + 4 from rfl),
    append_digit _ (show 12 = 8 + 4 from rfl), append_digit _ (show 8 = 4 + 4 from rfl),
    append_digit _ (show 4 = 0 + 4 from rfl), hLast]

/-- A group's value does not have to fit the byte it is meant for. -/
theorem scanHex_wordDigits (word : UInt32) {rest : List UInt8}
    (hRest : ∀ byte ∈ rest.head?, hexValue byte = none) :
    scanHex ((wordDigits word).map (fun digit : Fin 16 => hexDigit digit) ++ rest) =
      some (word.toNat, rest) :=
  scanHex_hexDigits _ _ _ hRest (value_wordDigits word) word.toNat_lt

/-- Any six words come from some text. -/
theorem sscanfHex_groupsText (words : List UInt32) :
    sscanfHex words.length (groupsText words) = words.map UInt32.toNat := by
  induction words with
  | nil => rfl
  | cons word words ih =>
      cases words with
      | nil =>
          have hScan := @scanHex_wordDigits word [] (by simp)
          rw [groupsText, if_pos rfl, List.length_singleton, sscanfHex, hScan]
          rfl
      | cons next words =>
          have hScan := @scanHex_wordDigits word (58 :: groupsText (next :: words)) (by
            intro byte hByte
            cases hByte
            rfl)
          rw [groupsText, if_neg (by simp), List.length_cons, sscanfHex, hScan]
          exact congrArg _ ih

/-- No more words are scanned than asked for. -/
theorem sscanfHex_length_le (count : Nat) (text : List UInt8) :
    (sscanfHex count text).length ≤ count := by
  induction count generalizing text with
  | zero => exact Nat.le_refl _
  | succ count ih =>
      rw [sscanfHex]
      split
      · exact Nat.zero_le _
      · rw [List.length_cons]
        exact Nat.succ_le_succ (ih _)
      · exact Nat.succ_le_succ (Nat.zero_le _)

end Text

section Frame

variable {fru other : Memory} {i : Nat}

theorem Memory.store_congr (h : fru i = other i) (offset : Nat) (cells : List Cell) :
    fru.store offset cells i = other.store offset cells i := by
  unfold Memory.store
  rw [h]

/-- Where the date ends. -/
def dateEnd : Nat := Field.offset .manufactureDate + Field.size .manufactureDate

/-- However many groups a text has, their stores end inside the date. -/
theorem conversions_outside (text : List UInt8) (fru : Memory)
    (h : i < Field.offset .baseMacAddress ∨ dateEnd ≤ i) :
    storeWords (Field.offset .baseMacAddress) (sscanfHex 6 text) fru i = fru i := by
  have hCount := sscanfHex_length_le 6 text
  apply storeWords_outside
  cases h with
  | inl hBefore => exact .inl hBefore
  | inr hAfter =>
      simp only [dateEnd, Field.offset, Field.size, manufactureDateLen] at hAfter ⊢
      omega

/-- A byte that the address and the date do not own does not depend on the
address's text. -/
theorem transfer_frame (info : YamlFruInfo) (address : CString) (rand : Nat → Nat) (before : Memory)
    (h : i < Field.offset .baseMacAddress ∨ dateEnd ≤ i) :
    (sysdCfgYamlGetFruInfo (some info) rand before).2 i =
      (sysdCfgYamlGetFruInfo (some { info with baseMacAddress := address }) rand before).2 i := by
  simp only [sysdCfgYamlGetFruInfo, assignString, assignNumber, assignByte, copyString]
  repeat apply Memory.store_congr
  rw [conversions_outside _ _ h, conversions_outside _ _ h]

end Frame

/-- Whatever six words the groups are: of the address the first three bytes are
the low bytes of the first three and the others are drawn, the date and the
country code are the description's up to their lengths, and no byte behind the
date is changed by the conversions or depends on them. -/
theorem conversions_harmless (info : YamlFruInfo) (words : List Nat)
    (hWords : sscanfHex 6 info.baseMacAddress.bytes = words) (hSix : words.length = 6)
    (rand : Nat → Nat) (before : Memory) :
    Field.read .baseMacAddress (sysdCfgYamlGetFruInfo (some info) rand before).2 =
      some (.bytes ((words.take 3).map UInt8.ofNat ++
        [UInt8.ofNat (rand 0 % 256), UInt8.ofNat (rand 1 % 256), UInt8.ofNat (rand 2 % 256)])) ∧
    Field.read .manufactureDate (sysdCfgYamlGetFruInfo (some info) rand before).2 =
      some (.text (info.manufactureDate.take manufactureDateLen)) ∧
    Field.read .countryCode (sysdCfgYamlGetFruInfo (some info) rand before).2 =
      some (.text (info.countryCode.take countryCodeLen)) ∧
    ∀ i, dateEnd ≤ i →
      (∀ fru, storeWords (Field.offset .baseMacAddress) words fru i = fru i) ∧
      ∀ address, (sysdCfgYamlGetFruInfo (some info) rand before).2 i =
        (sysdCfgYamlGetFruInfo (some { info with baseMacAddress := address }) rand before).2 i := by
  have hConverted (fru : Memory) : Field.read .countryCode (storeWords (Field.offset .baseMacAddress)
      (sscanfHex 6 info.baseMacAddress.bytes) fru) = Field.read .countryCode fru :=
    read_storeWords_ne (by simp) (by simp) (sscanfHex_length_le 6 _) fru
  constructor
  · simp only [sysdCfgYamlGetFruInfo]
    simp (disch := decide) only [read_assignString_ne, read_copyString_ne, read_assignNumber_ne]
    rw [hWords, Field.read]
    exact congrArg _ (bytesAt_storeWords hSix _ _ _ _ _)
  constructor
  · simp only [sysdCfgYamlGetFruInfo]
    simp (disch := decide) only [read_assignString_ne, read_assignNumber_ne]
    exact read_copyString_take (.inr rfl) rfl info.manufactureDate
  constructor
  · simp only [sysdCfgYamlGetFruInfo]
    simp (disch := decide) only [read_assignString_ne, read_copyString_ne, read_assignNumber_ne,
      read_assignByte_ne, hConverted]
    exact read_copyString_take (.inl rfl) rfl info.countryCode
  · intro i hAfter
    constructor
    · intro fru
      rw [← hWords]
      exact conversions_outside _ fru (.inr hAfter)
    · intro address
      exact transfer_frame info address rand before (.inr hAfter)

/-- Six groups wider than a byte. -/
def wideGroups : List UInt32 :=
  [0x12345678, 0xffffffff, 0xabcdef01, 0x80000000, 0xdeadbeef, 0xffffff00]

/-- A description with these groups, and with a date that is longer than its array. -/
def wideAddress : YamlFruInfo :=
  { (testRecord 0).yaml with
    countryCode := .lit "USA"
    baseMacAddress := CString.cut (groupsText wideGroups)
    manufactureDate := .lit "09/01/2015 00:00:01 UTC" }

theorem wideAddress_harmless :
    Field.read .baseMacAddress (sysdCfgYamlGetFruInfo (some wideAddress) (· + 7) zeroed).2 =
      some (.bytes [0x78, 0xff, 0x01, 7, 8, 9]) ∧
    Field.read .manufactureDate (sysdCfgYamlGetFruInfo (some wideAddress) (· + 7) zeroed).2 =
      some (.text (.lit "09/01/2015 00:00:01")) := by
  have hNul : 0 ∉ groupsText wideGroups := by decide +kernel
  have hBytes : wideAddress.baseMacAddress.bytes = groupsText wideGroups :=
    congrArg CString.bytes (CString.cut_bytes_self ⟨_, hNul⟩)
  have hText : sscanfHex 6 wideAddress.baseMacAddress.bytes = wideGroups.map UInt32.toNat := by
    rw [hBytes]
    exact sscanfHex_groupsText wideGroups
  have hDate : wideAddress.manufactureDate.take manufactureDateLen = .lit "09/01/2015 00:00:01" := by
    decide +kernel
  have hHarmless := conversions_harmless wideAddress _ hText rfl (· + 7) zeroed
  rw [hDate] at hHarmless
  exact ⟨hHarmless.1, hHarmless.2.1⟩

end OpsSysd.Fru
