import OpsSysd.Library.Buffer
import OpsSysd.Library.Lines

/-! The manufacturer and the product name, as the daemon reads them from the
output of two commands. The terminator of a line is taken off by its position,
and the quotes are by theirs. -/
namespace OpsSysd.Platform

open CLib

/-- The characters the two functions look for. -/
def hash : UInt8 := 35
def quote : UInt8 := 34

/-- The loop of `get_sys_cmd_out`: the buffer it returns. -/
def getSysCmdOutLoop (fd : List UInt8) : Option (List UInt8) :=
  match hLine : getline fd with
  | none => none
  | some (line, rest) =>
      let buf := line ++ [0]
      if buf.getD 0 0 = hash then getSysCmdOutLoop rest
      else if buf.getD 0 0 ≠ 0 then some (buf.set (line.length - 1) 0)
      else getSysCmdOutLoop rest
  termination_by fd.length
  decreasing_by all_goals exact getline_length hLine

/-- `get_sys_cmd_out`, on what `popen` gives. -/
def getSysCmdOut (popen : Option (List UInt8)) : Option (List UInt8) := popen.bind getSysCmdOutLoop

/-- `strip_quotes`, and nothing where it reads in front of the string. -/
def stripQuotes (string : List UInt8) : Option (List UInt8) :=
  let len := toInt (stringAt string 0).length
  if string.getD 0 0 ≠ quote then some string
  else if len < 1 then none
  else
    let last := (len - 1).toNat
    if string.getD last 0 = quote then some (memmove (string.set last 0) 0 1 last) else some string

/-- `get_manuf_and_prodname`, on the outputs of the two commands: the names, and
nothing where it does not end. -/
def getManufAndProdname (manufacturerCmd productNameCmd : Option (List UInt8)) :
    Option (Option (List UInt8) × Option (List UInt8)) :=
  match getSysCmdOut manufacturerCmd with
  | none => some (none, none)
  | some manufacturer => do
      let manufacturer ← stripQuotes manufacturer
      match getSysCmdOut productNameCmd with
      | none => return (some manufacturer, none)
      | some productName => do
          let productName ← stripQuotes productName
          return (some manufacturer, some productName)

/-- The first line that is not a comment. -/
def realLine (output : List UInt8) : Option Line :=
  (lines output).find? fun line => line.text.head? ≠ some hash

/-- A text without its pair of enclosing quotes, if it has one. -/
def unquote (text : List UInt8) : List UInt8 :=
  if text.head? = some quote ∧ text.getLast? = some quote ∧ 2 ≤ text.length then text.tail.dropLast
  else text

section Output

variable {output : List UInt8} {line : Line} {bytes rest : List UInt8}

/-- The first byte of a line says whether it is a comment, also for an empty line. -/
theorem head_bytes_eq_hash (line : Line) :
    line.bytes.head? = some hash ↔ line.text.head? = some hash := by
  rw [Line.bytes]
  split
  · cases line.text with
    | nil => simp [newline, hash]
    | cons byte text => simp
  · exact Iff.rfl

/-- The terminator goes by its position, so a line without one loses its last byte. -/
theorem dropLast_bytes (line : Line) :
    line.bytes.dropLast = if line.terminated then line.text else line.text.dropLast := by
  rw [Line.bytes]
  split
  · exact List.dropLast_concat
  · rfl

theorem set_last_append (h : bytes ≠ []) :
    (bytes ++ [0]).set (bytes.length - 1) 0 = bytes.dropLast ++ [0, 0] := by
  obtain ⟨before, last, rfl⟩ := (List.eq_nil_or_concat bytes).resolve_left h
  simp

/-- Without a line there is no answer. -/
theorem getSysCmdOutLoop_end (h : getline output = none) : getSysCmdOutLoop output = none := by
  rw [getSysCmdOutLoop]
  split
  · rfl
  · rename_i hSome
    cases h.symm.trans hSome

/-- One round: a comment is skipped, any other line is returned. -/
theorem getSysCmdOutLoop_line (h : getline output = some (bytes, rest)) (hFilled : bytes ≠ [])
    (hNul : 0 ∉ bytes) :
    getSysCmdOutLoop output = if bytes.head? = some hash then getSysCmdOutLoop rest
      else some (bytes.dropLast ++ [0, 0]) := by
  have hBuf := set_last_append hFilled
  cases bytes with
  | nil => exact absurd rfl hFilled
  | cons byte bytes =>
      have hByte : byte ≠ 0 := fun hZero => hNul (by simp [hZero])
      rw [getSysCmdOutLoop]
      split
      · rename_i hNone
        cases h.symm.trans hNone
      · rename_i line after hSome
        cases h.symm.trans hSome
        simp only [List.cons_append, List.getD_cons_zero, ne_eq, hByte, not_false_eq_true, if_true,
          List.head?_cons, Option.some.injEq]
        rw [← List.cons_append, hBuf]

/-- The loop passes the comments and returns the first other line less its last byte. -/
theorem getSysCmdOutLoop_eq (hNul : 0 ∉ output) :
    getSysCmdOutLoop output = (realLine output).map fun line => line.bytes.dropLast ++ [0, 0] := by
  have hClean : ∀ line ∈ lines output, 0 ∉ line.bytes :=
    fun line hLine hByte => hNul (mem_of_mem_lines hLine hByte)
  clear hNul
  unfold realLine
  generalize hLines : lines output = all at hClean ⊢
  induction all generalizing output with
  | nil => rw [getSysCmdOutLoop_end (getline_eq_none.mpr hLines), List.find?_nil, Option.map_none]
  | cons line more ih =>
      obtain ⟨hHere, hLater⟩ := List.forall_mem_cons.mp hClean
      obtain ⟨rest, hGetline, hRest⟩ := getline_of_lines hLines
      rw [getSysCmdOutLoop_line hGetline line.bytes_ne_nil hHere, ih hRest hLater]
      by_cases hComment : line.text.head? = some hash
      · rw [if_pos ((head_bytes_eq_hash line).mpr hComment),
          List.find?_cons_of_neg (by simpa using hComment)]
      · rw [if_neg (mt (head_bytes_eq_hash line).mp hComment),
          List.find?_cons_of_pos (by simpa using hComment)]
        rfl

end Output

section Quotes

variable {text behind : List UInt8}

/-- The index of the last byte as `strip_quotes` computes it. -/
def lastIndex (text : List UInt8) : Nat := (toInt text.length - 1).toNat

theorem lastIndex_lt {text : List UInt8} (h : 1 ≤ toInt text.length) :
    lastIndex text < text.length := by
  have hLe := toInt_le text.length
  unfold lastIndex
  omega

/-- The string shifted down over its first byte. -/
theorem stringAt_memmove (first : UInt8) (hNul : 0 ∉ text) (behind : List UInt8) :
    (stringAt (memmove (first :: (text ++ 0 :: behind)) 0 1 (text.length + 1)) 0).bytes = text := by
  have hMoved := memmove_down [] [first] (text ++ [0]) behind
  simp only [List.nil_append, List.length_nil, Nat.zero_add, List.length_cons,
    List.singleton_append, List.append_assoc, List.length_append] at hMoved
  rw [hMoved]
  exact @stringAt_of_terminated [] text _ hNul

/-- What is left of a string that is cut at an index and then shifted. -/
theorem cut_and_shifted (hNul : 0 ∉ text) {index : Nat} (hIndex : index < text.length)
    (behind : List UInt8) :
    (stringAt (memmove ((text ++ 0 :: behind).set index 0) 0 1 index) 0).bytes =
      (text.take index).drop 1 := by
  rw [List.set_append_left _ _ hIndex, List.set_eq_take_append_cons_drop, if_pos hIndex]
  cases text with
  | nil => exact absurd hIndex (Nat.not_lt_zero _)
  | cons first text =>
      cases index with
      | zero => simp [memmove, stringAt, CString.cut]
      | succ index =>
          have hInside : index < text.length := Nat.lt_of_succ_lt_succ hIndex
          have hText : 0 ∉ text.take index :=
            fun h => hNul (List.mem_cons_of_mem _ (List.mem_of_mem_take h))
          have hShifted := stringAt_memmove first hText (text.drop (index + 1) ++ 0 :: behind)
          rw [List.length_take, Nat.min_eq_left hInside.le] at hShifted
          simpa using hShifted

/-- Whether `strip_quotes` takes anything off depends on the byte at that index. -/
theorem stripQuotes_eq (hNul : 0 ∉ text) (behind : List UInt8) :
    (stripQuotes (text ++ 0 :: behind)).map (fun string => (stringAt string 0).bytes) =
      if text.head? ≠ some quote then some text
      else if toInt text.length < 1 then none
      else if text.getD (lastIndex text) 0 = quote then some ((text.take (lastIndex text)).drop 1)
      else some text := by
  have hString : (stringAt (text ++ 0 :: behind) 0).bytes = text :=
    @stringAt_of_terminated [] text behind hNul
  have hFirst : (text ++ 0 :: behind).getD 0 0 = quote ↔ text.head? = some quote := by
    cases text with
    | nil => simp [quote]
    | cons first text => simp
  rw [stripQuotes, CString.length, hString]
  by_cases hHead : text.head? = some quote
  · rw [if_neg (not_not.mpr (hFirst.mpr hHead)), if_neg (not_not.mpr hHead)]
    by_cases hSmall : toInt text.length < 1
    · rw [if_pos hSmall, if_pos hSmall, Option.map_none]
    · have hIndex := lastIndex_lt (Int.not_lt.mp hSmall)
      have hLast : (text ++ 0 :: behind).getD (lastIndex text) 0 = text.getD (lastIndex text) 0 := by
        simp [List.getD_eq_getElem?_getD, List.getElem?_append_left hIndex]
      rw [if_neg hSmall, if_neg hSmall]
      rw [← hLast, ← cut_and_shifted hNul hIndex behind]
      by_cases hQuote : (text ++ 0 :: behind).getD (lastIndex text) 0 = quote
      · rw [if_pos hQuote]
        exact congrArg _ (if_pos hQuote)
      · rw [if_neg hQuote]
        exact (congrArg _ (if_neg hQuote)).trans (congrArg some hString)
  · rw [if_pos (mt hFirst.mp hHead), if_pos hHead, Option.map_some, hString]

/-- Two quotes are taken off, or none. -/
theorem length_unquote (text : List UInt8) :
    (unquote text).length = if text.head? = some quote ∧ text.getLast? = some quote ∧
      2 ≤ text.length then text.length - 2 else text.length := by
  rw [unquote]
  split
  · rw [List.length_dropLast, List.length_tail]
    omega
  · rfl

/-- What `strip_quotes` does is right for this text: it is no lone quote, and
short enough for an `int`, or it has no quote in the two places that matter. -/
def Strippable (text : List UInt8) : Prop :=
  text.head? = some quote →
    (text.length < 2 ^ 31 ∧ text ≠ [quote]) ∨
    (2 ^ 31 ≤ text.length ∧ 1 ≤ toInt text.length ∧ text.getD (lastIndex text) 0 ≠ quote ∧
      text.getLast? ≠ some quote)

/-- A text whose length is an `int` that ends in the byte at the index. -/
theorem getD_lastIndex (hFilled : text ≠ []) (hShort : text.length < 2 ^ 31) :
    text.getD (lastIndex text) 0 = quote ↔ text.getLast? = some quote := by
  have hLength := List.length_pos_iff.mpr hFilled
  have hIndex : lastIndex text = text.length - 1 := by
    rw [lastIndex, toInt_of_lt hShort]
    omega
  rw [hIndex, List.getLast?_eq_getElem?, List.getD_eq_getElem?_getD,
    List.getElem?_eq_getElem (Nat.sub_lt hLength Nat.one_pos)]
  simp

/-- A text below 2^31 bytes is stripped of its quotes, unless it is one quote. -/
theorem stripQuotes_short (hNul : 0 ∉ text) (behind : List UInt8) (hHead : text.head? = some quote)
    (hShort : text.length < 2 ^ 31) :
    (stripQuotes (text ++ 0 :: behind)).map (fun string => (stringAt string 0).bytes) =
      some (unquote text) ↔ text ≠ [quote] := by
  have hFilled : text ≠ [] := by
    intro hNil
    rw [hNil] at hHead
    cases hHead
  have hLength := List.length_pos_iff.mpr hFilled
  have hOne : ¬ toInt text.length < 1 := by
    rw [toInt_of_lt hShort]
    omega
  have hIndex : lastIndex text = text.length - 1 := by
    rw [lastIndex, toInt_of_lt hShort]
    omega
  rw [stripQuotes_eq hNul, if_neg (not_not.mpr hHead), if_neg hOne]
  by_cases hLast : text.getLast? = some quote
  · rw [if_pos ((getD_lastIndex hFilled hShort).mpr hLast), hIndex, ← List.dropLast_eq_take]
    by_cases hTwo : 2 ≤ text.length
    · have hUnquoted : unquote text = text.tail.dropLast := if_pos ⟨hHead, hLast, hTwo⟩
      rw [hUnquoted, ← List.tail_dropLast, List.drop_one]
      refine iff_of_true rfl ?_
      intro hLone
      rw [hLone] at hTwo
      exact absurd hTwo (by decide)
    · obtain ⟨byte, rfl⟩ := List.length_eq_one_iff.mp (show text.length = 1 by omega)
      cases hHead
      decide
  · have hSame : unquote text = text := if_neg fun h => hLast h.2.1
    rw [if_neg (mt (getD_lastIndex hFilled hShort).mp hLast), hSame]
    refine iff_of_true rfl ?_
    intro hLone
    rw [hLone] at hLast
    exact hLast rfl

/-- A longer one goes by its length as an `int`. -/
theorem stripQuotes_long (hNul : 0 ∉ text) (behind : List UInt8) (hHead : text.head? = some quote)
    (hLong : 2 ^ 31 ≤ text.length) :
    (stripQuotes (text ++ 0 :: behind)).map (fun string => (stringAt string 0).bytes) =
      some (unquote text) ↔
    1 ≤ toInt text.length ∧ text.getD (lastIndex text) 0 ≠ quote ∧ text.getLast? ≠ some quote := by
  have hFar := toInt_of_le hLong
  have hUnquoted := length_unquote text
  rw [stripQuotes_eq hNul, if_neg (not_not.mpr hHead)]
  by_cases hOne : toInt text.length < 1
  · rw [if_pos hOne]
    exact iff_of_false (by simp) fun h => absurd h.1 (Int.not_le.mpr hOne)
  rw [if_neg hOne]
  by_cases hQuote : text.getD (lastIndex text) 0 = quote
  · rw [if_pos hQuote]
    refine iff_of_false ?_ fun h => h.2.1 hQuote
    intro hSame
    -- what is left is shorter than the text by at least the range of an `int`
    have hLength := congrArg List.length (Option.some.inj hSame)
    rw [List.length_drop, List.length_take, hUnquoted, lastIndex] at hLength
    split at hLength <;> omega
  rw [if_neg hQuote]
  by_cases hLast : text.getLast? = some quote
  · refine iff_of_false ?_ fun h => h.2.2 hLast
    intro hSame
    have hLength := congrArg List.length (Option.some.inj hSame)
    rw [hUnquoted, if_pos ⟨hHead, hLast, by omega⟩] at hLength
    omega
  · have hSame : unquote text = text := if_neg fun h => hLast h.2.1
    rw [hSame]
    exact iff_of_true rfl ⟨Int.not_lt.mp hOne, hQuote, hLast⟩

/-- So stripping is right exactly for strippable texts. -/
theorem stripQuotes_iff (hNul : 0 ∉ text) (behind : List UInt8) :
    (stripQuotes (text ++ 0 :: behind)).map (fun string => (stringAt string 0).bytes) =
      some (unquote text) ↔ Strippable text := by
  by_cases hHead : text.head? = some quote
  · rcases Nat.lt_or_ge text.length (2 ^ 31) with hShort | hLong
    · rw [stripQuotes_short hNul behind hHead hShort, Strippable]
      simp only [hHead, hShort, forall_const, true_and, Nat.not_le.mpr hShort, false_and, or_false]
    · rw [stripQuotes_long hNul behind hHead hLong, Strippable]
      simp only [hHead, hLong, forall_const, true_and, Nat.not_lt.mpr hLong, false_and, false_or]
  · have hSame : unquote text = text := if_neg fun h => hHead h.1
    rw [stripQuotes_eq hNul, if_pos hHead, hSame]
    exact iff_of_true rfl fun h => absurd h hHead

end Quotes

/-- The string in a buffer, if there is one. -/
def stringOf (buffer : Option (List UInt8)) : Option (List UInt8) :=
  buffer.map fun buffer => (stringAt buffer 0).bytes

/-- A command's output is taken for the text of its first line that is no comment,
and the name in it is that text without its enclosing quotes. -/
structure TakesFirstLine (output : List UInt8) : Prop where
  null : getSysCmdOut (some output) = none ↔ realLine output = none
  text : ∀ line, realLine output = some line →
    stringOf (getSysCmdOut (some output)) = some line.text
  name : ∀ line, realLine output = some line →
    stringOf ((getSysCmdOut (some output)).bind stripQuotes) = some (unquote line.text)

section Identification

variable {output : List UInt8} {line : Line}

/-- The last byte of the first real line is taken off. -/
theorem getSysCmdOut_of_realLine (hNul : 0 ∉ output) (h : realLine output = some line) :
    getSysCmdOut (some output) = some (line.bytes.dropLast ++ [0, 0]) := by
  rw [getSysCmdOut, Option.bind_some, getSysCmdOutLoop_eq hNul, h, Option.map_some]

theorem noNul_of_realLine (hNul : 0 ∉ output) (h : realLine output = some line) :
    0 ∉ line.bytes.dropLast :=
  fun hMem => hNul (mem_of_mem_lines (List.mem_of_find?_eq_some h) (List.mem_of_mem_dropLast hMem))

/-- The buffer's string is the line less its last byte, whatever that was. -/
theorem stringOf_getSysCmdOut (hNul : 0 ∉ output) (h : realLine output = some line) :
    stringOf (getSysCmdOut (some output)) = some line.bytes.dropLast := by
  rw [getSysCmdOut_of_realLine hNul h, stringOf, Option.map_some]
  exact congrArg some (@stringAt_of_terminated [] _ [0] (noNul_of_realLine hNul h))

/-- That is right exactly if it is the newline. -/
theorem text_iff_terminated (hNul : 0 ∉ output) (h : realLine output = some line) :
    stringOf (getSysCmdOut (some output)) = some line.text ↔ line.terminated = true := by
  rw [stringOf_getSysCmdOut hNul h, dropLast_bytes, Option.some.injEq]
  cases hTerminated : line.terminated with
  | true => exact iff_of_true rfl rfl
  | false =>
      have hFilled : line.text ≠ [] := line.filled.resolve_left (by simp [hTerminated])
      have hLength := List.length_pos_iff.mpr hFilled
      refine iff_of_false ?_ (by simp)
      intro hSame
      have hShort := congrArg List.length hSame
      rw [if_neg (by simp), List.length_dropLast] at hShort
      omega

/-- And the name is right exactly if the rest can be stripped. -/
theorem name_iff_strippable (hNul : 0 ∉ output) (h : realLine output = some line)
    (hTerminated : line.terminated = true) :
    stringOf ((getSysCmdOut (some output)).bind stripQuotes) = some (unquote line.text) ↔
      Strippable line.text := by
  have hText : line.bytes.dropLast = line.text := by rw [dropLast_bytes, if_pos hTerminated]
  have hClean := noNul_of_realLine hNul h
  rw [getSysCmdOut_of_realLine hNul h, Option.bind_some, hText]
  rw [hText] at hClean
  exact stripQuotes_iff hClean [0]

/-- A command is read right exactly where the line it is identified by ends in a
terminator and `strip_quotes` is right for its text. -/
theorem takesFirstLine_iff (output : List UInt8) (hNul : 0 ∉ output) :
    TakesFirstLine output ↔
      ∀ line, realLine output = some line → line.terminated = true ∧ Strippable line.text := by
  constructor
  · intro hTakes line hLine
    have hTerminated := (text_iff_terminated hNul hLine).mp (hTakes.text line hLine)
    exact ⟨hTerminated, (name_iff_strippable hNul hLine hTerminated).mp (hTakes.name line hLine)⟩
  · intro hRight
    constructor
    · rw [getSysCmdOut, Option.bind_some, getSysCmdOutLoop_eq hNul, Option.map_eq_none_iff]
    · intro line hLine
      exact (text_iff_terminated hNul hLine).mpr (hRight line hLine).1
    · intro line hLine
      have hBoth := hRight line hLine
      exact (name_iff_strippable hNul hLine hBoth.1).mpr hBoth.2

/-- A comment, and then a quoted name. -/
theorem quoted_name_taken : TakesFirstLine (CString.lit "# dmi\n\"Generic-x86\"\n").bytes := by
  apply (takesFirstLine_iff _ (by decide)).mpr
  intro line hLine
  have hFirst : realLine (CString.lit "# dmi\n\"Generic-x86\"\n").bytes =
      some ⟨(CString.lit "\"Generic-x86\"").bytes, true, by decide, .inl rfl⟩ := by rfl
  cases hFirst.symm.trans hLine
  exact ⟨rfl, fun _ => .inl (by decide)⟩

/-- Without a terminator the last byte is lost, and a lone quote is taken for a pair. -/
theorem first_line_not_taken : ¬ TakesFirstLine (CString.lit "Generic-x86").bytes ∧
    ¬ TakesFirstLine (CString.lit "\"\n").bytes := by
  have hOpen : realLine (CString.lit "Generic-x86").bytes =
      some ⟨(CString.lit "Generic-x86").bytes, false, by decide, .inr (by decide)⟩ := by rfl
  have hLone : realLine (CString.lit "\"\n").bytes =
      some ⟨[quote], true, by decide, .inl rfl⟩ := by rfl
  constructor
  · intro hTakes
    have hTerminated := (text_iff_terminated (by decide) hOpen).mp (hTakes.text _ hOpen)
    cases hTerminated
  · intro hTakes
    have hStrippable := (name_iff_strippable (by decide) hLone rfl).mp (hTakes.name _ hLone)
    cases hStrippable rfl with
    | inl hShort => exact hShort.2 rfl
    | inr hLong => exact absurd hLong.1 (by decide)

/-- What a named output gives `get_manuf_and_prodname`. -/
theorem TakesFirstLine.stripped (takes : TakesFirstLine output) (h : realLine output = some line) :
    ∃ buffer name, getSysCmdOut (some output) = some buffer ∧ stripQuotes buffer = some name ∧
      stringOf (some name) = some (unquote line.text) := by
  have hName := takes.name line h
  cases hBuffer : getSysCmdOut (some output) with
  | none =>
      rw [hBuffer] at hName
      cases hName
  | some buffer =>
      rw [hBuffer, Option.bind_some] at hName
      cases hStripped : stripQuotes buffer with
      | none =>
          rw [hStripped] at hName
          cases hName
      | some name =>
          rw [hStripped] at hName
          exact ⟨buffer, name, rfl, hStripped, hName⟩

/-- The two names of a platform whose commands are read right. -/
theorem getManufAndProdname_names {manufacturerCmd productNameCmd : List UInt8}
    {manufacturer productName : Line}
    (hManufacturer : realLine manufacturerCmd = some manufacturer)
    (hProductName : realLine productNameCmd = some productName)
    (takesManufacturer : TakesFirstLine manufacturerCmd)
    (takesProductName : TakesFirstLine productNameCmd) :
    (getManufAndProdname (some manufacturerCmd) (some productNameCmd)).map
        (fun names => (stringOf names.1, stringOf names.2)) =
      some (some (unquote manufacturer.text), some (unquote productName.text)) := by
  obtain ⟨buffer, name, hBuffer, hName, hString⟩ := takesManufacturer.stripped hManufacturer
  obtain ⟨other, second, hOther, hSecond, hOtherString⟩ := takesProductName.stripped hProductName
  simp only [getManufAndProdname, hBuffer, hName, hOther, hSecond, Option.bind_eq_bind,
    Option.bind_some, Option.pure_def, Option.map_some, hString, hOtherString]

end Identification
end OpsSysd.Platform
