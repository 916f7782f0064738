import VacuumCleaner.A1.Fields
import VacuumCleaner.Lib.CMemory

/-! Which fields of a parameters text `fetch_unsigned_hex_number` reads as its
grammar says, and whether it stays inside its buffers. -/
namespace VacuumCleaner.A1.Fields

open Lib.Hex Lib.CText Lib.CMemory InstructionHandler

/-- A text as the handler of a received line passes it to a callback. -/
structure Parameters where
  text : List Char
  no_nul : nul ∉ text
  ends : text.getLast? = some '\n'
  length_le : text.length ≤ 97

/-- The array of a callback, which is filled with NULs. -/
def Parameters.input (parameters : Parameters) : List Char :=
  parameters.text.rightpad maxInputSize nul

/-- The text behind the separator in front of field `group`. -/
def behind : (group : Nat) → List Char → Option (List Char)
  | 0, text => some text
  | _ + 1, [] => none
  | group + 1, c :: text => if c = separator then behind group text else behind (group + 1) text

@[simp] theorem behind_zero (text : List Char) : behind 0 text = some text := by
  cases text <;> rfl

/-- The field up to the next separator, CR or LF. -/
def fieldOf (group : Nat) (text : List Char) : Option (List Char) :=
  (behind group text).map (List.takeWhile fun c => !isFieldEnd c)

def IsNumber (field : List Char) : Prop :=
  field ≠ [] ∧ field.length ≤ maxValueSize ∧ ∀ c ∈ field, isHexDigit c = true

inductive Buffer
  | input | buffer
  deriving DecidableEq, Repr

def Buffer.size : Buffer → Nat
  | .input => maxInputSize
  | .buffer => maxValueSize

/-- The search for the separator. -/
def startAccesses (input : List Char) (group : Nat) : List (Access Buffer) :=
  if group > 0 then
    span .input 0 (match startLoop input group 100 0 0 with
      | some index => index + 1
      | none => 100)
  else []

/-- The search for the end of the field. -/
def endAccesses (input : List Char) (start : Nat) : List (Access Buffer) :=
  span .input start (match endIndex input start with
    | some stop => stop - start + 1
    | none => maxValueSize + 1)

/-- The copy of the field, and what `strtol` reads of the copy. -/
def copyAccesses (beyond input : List Char) (start stop : Nat) : List (Access Buffer) :=
  let buffer := strncpy maxValueSize (stop - start) (input.drop start)
  span .buffer 0 maxValueSize ++ span .input start (readCount (stop - start) (input.drop start)) ++
    span .buffer 0 (stop - start) ++ span .buffer 0 (strtolHexRead (cString (buffer ++ beyond)))

/-- All that `fetch_unsigned_hex_number` reads and writes. -/
def fetchAccesses (beyond input : List Char) (group : Nat) : List (Access Buffer) :=
  startAccesses input group ++
    match startIndex input group with
    | none => []
    | some start =>
      endAccesses input start ++
        match endIndex input start with
        | none => []
        | some stop => copyAccesses beyond input start stop

/-- The number of a field, an error for every other text, and no access outside. -/
structure FollowsGrammar (beyond : List Char) (parameters : Parameters) (group : Nat) : Prop where
  value : ∀ value : Nat, fetchUnsignedHexNumber beyond parameters.input group = value ↔
    ∃ field, fieldOf group parameters.text = some field ∧ IsNumber field ∧ hexValue field = value
  failure : (¬ ∃ field, fieldOf group parameters.text = some field ∧ IsNumber field) →
    fetchUnsignedHexNumber beyond parameters.input group = parsingError ∨
      fetchUnsignedHexNumber beyond parameters.input group = cannotParseNumber
  inside : Inside Buffer.size (fetchAccesses beyond parameters.input group)

/-- The sign of a number and its digits, behind blanks and a prefix. -/
def signedDigits (field : List Char) : Bool × List Char :=
  let (negative, body) := takeSign (field.dropWhile isSpace)
  (negative, (dropHexPrefix body).takeWhile isHexDigit)

/-- A field that is too long is given up, and one of digits alone needs room
for the terminator. In any other field there may be no digit, or a number that
is an error code, and its end must show before the buffer does. -/
def IsLegible (field : List Char) : Prop :=
  maxValueSize < field.length ∨
    (if field.all isHexDigit then field.length < maxValueSize
      else (field.length < maxValueSize ∨ strtolHexRead field ≤ maxValueSize) ∧
        ((signedDigits field).2 = [] ∨
          (signedDigits field).1 = true ∧ hexValue (signedDigits field).2 ∈ [1, 2]))

section search

variable {input text pad : List Char} {group fuel index separatorCount : Nat}

theorem startLoop_none (hcount : separatorCount < group)
    (hnone : ∀ c ∈ input.drop index, c ≠ separator) :
    startLoop input group fuel index separatorCount = none := by
  induction fuel generalizing index with
  | zero => rfl
  | succ fuel ih =>
    have hchar : charAt input index ≠ separator := by
      unfold charAt
      rw [List.getD_eq_getElem?_getD]
      cases hget : input[index]? with
      | none => decide
      | some c =>
        apply hnone c
        apply List.mem_of_getElem? (i := 0)
        rw [List.getElem?_drop]
        exact hget
    rw [startLoop, if_neg hchar, if_neg (Nat.ne_of_lt hcount)]
    apply ih
    intro c hc
    rw [← List.drop_drop] at hc
    exact hnone c (List.mem_of_mem_drop hc)

theorem startLoop_behind {left : Nat} (hdrop : input.drop index = text ++ pad)
    (hpad : separator ∉ pad) (hfuel : text.length ≤ fuel)
    (hgroup : group = separatorCount + left + 1) :
    (behind (left + 1) text = none → startLoop input group fuel index separatorCount = none) ∧
      ∀ rest, behind (left + 1) text = some rest → ∃ stop,
        startLoop input group fuel index separatorCount = some stop ∧
          input.drop (stop + 1) = rest ++ pad ∧
            stop + 1 + rest.length = index + text.length := by
  induction text generalizing fuel index separatorCount left with
  | nil =>
    refine ⟨fun _ => startLoop_none (by omega) ?_, fun rest hrest => ?_⟩
    · rw [hdrop]
      rintro c hc rfl
      exact hpad hc
    · cases hrest
  | cons c text ih =>
    have hchar := charAt_of_drop hdrop
    have hnext := drop_succ_of_drop hdrop
    cases fuel with
    | zero => simp at hfuel
    | succ fuel =>
      rw [List.length_cons] at hfuel ⊢
      have hleft : text.length ≤ fuel := by omega
      rw [behind, startLoop, hchar]
      by_cases hc : c = separator
      · rw [if_pos hc, if_pos hc]
        cases left with
        | zero =>
          rw [behind_zero]
          refine ⟨fun hnone => ?_, fun rest hrest => ?_⟩
          · cases hnone
          · cases hrest
            exact ⟨index, if_pos (by omega), hnext, by omega⟩
        | succ left =>
          obtain ⟨hnone, hsome⟩ := ih hnext hleft
            (show group = separatorCount + 1 + left + 1 by omega)
          rw [if_neg (by omega)]
          refine ⟨hnone, fun rest hrest => ?_⟩
          obtain ⟨stop, hstop, hrest, hlength⟩ := hsome rest hrest
          exact ⟨stop, hstop, hrest, by omega⟩
      · obtain ⟨hnone, hsome⟩ := ih hnext hleft hgroup
        rw [if_neg hc, if_neg hc, if_neg (by omega)]
        refine ⟨hnone, fun rest hrest => ?_⟩
        obtain ⟨stop, hstop, hrest, hlength⟩ := hsome rest hrest
        exact ⟨stop, hstop, hrest, by omega⟩

end search

theorem getLast_behind {group : Nat} {text rest : List Char}
    (hlast : text.getLast? = some '\n') (hrest : behind group text = some rest) :
    rest.getLast? = some '\n' := by
  induction text generalizing group with
  | nil => cases hlast
  | cons c text ih =>
    cases group with
    | zero =>
      cases hrest
      exact hlast
    | succ group =>
      rw [behind] at hrest
      have htext : c = separator ∨ text ≠ [] → text.getLast? = some '\n' := by
        intro hcase
        cases text with
        | nil =>
          obtain rfl : c = '\n' := by simpa using hlast
          rcases hcase with hsame | hne
          · exact absurd hsame (by decide)
          · exact absurd rfl hne
        | cons next text => rwa [List.getLast?_cons_cons] at hlast
      split at hrest
      · rename_i hc
        exact ih (htext (.inl hc)) hrest
      · by_cases hempty : text = []
        · rw [hempty] at hrest
          cases hrest
        · exact ih (htext (.inr hempty)) hrest

theorem subset_of_behind {group : Nat} {text rest : List Char}
    (hrest : behind group text = some rest) : rest ⊆ text := by
  induction text generalizing group with
  | nil =>
    cases group with
    | zero =>
      cases hrest
      exact List.Subset.refl _
    | succ group => cases hrest
  | cons c text ih =>
    cases group with
    | zero =>
      cases hrest
      exact List.Subset.refl _
    | succ group =>
      rw [behind] at hrest
      split at hrest
      · exact List.subset_cons_of_subset c (ih hrest)
      · exact List.subset_cons_of_subset c (ih hrest)

section field

variable {parameters : Parameters} {group : Nat}

theorem Parameters.input_eq (parameters : Parameters) : parameters.input =
    parameters.text ++ List.replicate (maxInputSize - parameters.text.length) nul := rfl

theorem Parameters.search (parameters : Parameters) (left : Nat) :
    (behind (left + 1) parameters.text = none →
      startLoop parameters.input (left + 1) 100 0 0 = none) ∧
      ∀ rest, behind (left + 1) parameters.text = some rest → ∃ stop,
        startLoop parameters.input (left + 1) 100 0 0 = some stop ∧
          parameters.input.drop (stop + 1) =
            rest ++ List.replicate (maxInputSize - parameters.text.length) nul ∧
          stop + 1 + rest.length = 0 + parameters.text.length := by
  have hdrop : parameters.input.drop 0 =
      parameters.text ++ List.replicate (maxInputSize - parameters.text.length) nul := by
    rw [List.drop_zero, parameters.input_eq]
  have hpad : separator ∉ List.replicate (maxInputSize - parameters.text.length) nul := by
    rw [List.mem_replicate]
    exact fun h => absurd h.2 (by decide)
  have hfuel : parameters.text.length ≤ 100 := parameters.length_le.trans (by decide)
  exact startLoop_behind hdrop hpad hfuel (by omega)

theorem startIndex_of_none (hnone : behind group parameters.text = none) :
    startIndex parameters.input group = none := by
  cases group with
  | zero => simp at hnone
  | succ left =>
    rw [startIndex, if_pos (Nat.succ_pos left), (parameters.search left).1 hnone]
    rfl

theorem startIndex_of_some {rest : List Char} (hrest : behind group parameters.text = some rest) :
    ∃ start, startIndex parameters.input group = some start ∧
      parameters.input.drop start =
        rest ++ List.replicate (maxInputSize - parameters.text.length) nul ∧
      start + rest.length = parameters.text.length ∧
      Inside Buffer.size (startAccesses parameters.input group) := by
  cases group with
  | zero =>
    rw [behind_zero] at hrest
    cases hrest
    exact ⟨0, rfl, by rw [List.drop_zero, parameters.input_eq], Nat.zero_add _, by
      simp [startAccesses]⟩
  | succ left =>
    have hlength := parameters.length_le
    obtain ⟨stop, hstop, hdrop, htotal⟩ := (parameters.search left).2 rest hrest
    refine ⟨stop + 1, ?_, hdrop, by omega, ?_⟩
    · rw [startIndex, if_pos (Nat.succ_pos left), hstop]
      rfl
    · rw [startAccesses, if_pos (Nat.succ_pos left), hstop, inside_span]
      simp only [Buffer.size, maxInputSize]
      omega

theorem inside_startAccesses_of_none (hnone : behind group parameters.text = none) :
    Inside Buffer.size (startAccesses parameters.input group) := by
  cases group with
  | zero => simp at hnone
  | succ left =>
    rw [startAccesses, if_pos (Nat.succ_pos left), (parameters.search left).1 hnone, inside_span]
    decide

theorem exists_start {field : List Char} (hfield : fieldOf group parameters.text = some field) :
    ∃ start terminator tail, startIndex parameters.input group = some start ∧
      parameters.input.drop start = field ++ terminator :: tail ∧ isFieldEnd terminator = true ∧
      start + field.length < parameters.text.length ∧
      Inside Buffer.size (startAccesses parameters.input group) := by
  obtain ⟨rest, hrest, rfl⟩ := Option.map_eq_some_iff.mp hfield
  obtain ⟨start, hstart, hdrop, htotal, hinside⟩ := startIndex_of_some hrest
  have hlast := getLast_behind parameters.ends hrest
  have hsplit := List.takeWhile_append_dropWhile (p := fun c => !isFieldEnd c) (l := rest)
  cases hbehind : rest.dropWhile fun c => !isFieldEnd c with
  | nil =>
    have hall := List.dropWhile_eq_nil_iff.mp hbehind '\n' (List.mem_of_getLast? hlast)
    exact absurd hall (by decide)
  | cons terminator tail =>
    rw [hbehind] at hsplit
    have hlength := congrArg List.length hsplit
    rw [List.length_append, List.length_cons] at hlength
    have hend := List.head?_dropWhile_not (fun c => !isFieldEnd c) rest
    rw [hbehind] at hend
    refine ⟨start, terminator, tail ++ List.replicate (maxInputSize - parameters.text.length) nul,
      hstart, ?_, by simpa using hend, by omega, hinside⟩
    rw [hdrop]
    conv_lhs => rw [← hsplit]
    rw [List.append_assoc, List.cons_append]

theorem not_isFieldEnd_of_mem {field : List Char} (hfield : fieldOf group parameters.text = some field)
    {c : Char} (hc : c ∈ field) : isFieldEnd c = false ∧ c ≠ nul := by
  obtain ⟨rest, hrest, rfl⟩ := Option.map_eq_some_iff.mp hfield
  refine ⟨by simpa using List.mem_takeWhile_imp hc, ?_⟩
  rintro rfl
  exact parameters.no_nul (subset_of_behind hrest ((List.takeWhile_prefix _).subset hc))

theorem fetch_long (beyond : List Char) {field : List Char}
    (hfield : fieldOf group parameters.text = some field) (hlong : maxValueSize < field.length) :
    fetchUnsignedHexNumber beyond parameters.input group = parsingError ∧
      Inside Buffer.size (fetchAccesses beyond parameters.input group) := by
  obtain ⟨start, terminator, tail, hstart, hdrop, hend, hlength, hinside⟩ := exists_start hfield
  have hstop := endIndex_field hdrop (fun c hc => (not_isFieldEnd_of_mem hfield hc).1) hend
  rw [if_neg (by omega)] at hstop
  have hlimit := parameters.length_le
  constructor
  · rw [fetchUnsignedHexNumber, hstart]
    dsimp only
    rw [hstop]
  · rw [fetchAccesses, hstart]
    dsimp only
    rw [hstop, endAccesses, hstop]
    unfold maxValueSize at hlong
    have hspan : start + (maxValueSize + 1) ≤ maxInputSize := by
      simp only [maxValueSize, maxInputSize]
      omega
    simp only [inside_append, inside_span, inside_nil, hinside, Buffer.size, hspan, or_true, and_self]

/-- What is made of the copy of a field. -/
def readNumber (text : List Char) : Int :=
  if (strtolHex text).2 = text then cannotParseNumber else (strtolHex text).1

theorem strncpy_field {field : List Char} (rest : List Char) (hnul : ∀ c ∈ field, c ≠ nul) :
    strncpy maxValueSize field.length (field ++ rest) = field.rightpad maxValueSize nul := by
  unfold strncpy cString
  rw [List.takeWhile_append_of_pos fun c hc => by simpa using hnul c hc, List.take_left]

/-- The copy ends with the field, unless that fills the buffer and the memory goes on. -/
theorem exists_cString_rightpad (beyond : List Char) {field : List Char}
    (hnul : ∀ c ∈ field, c ≠ nul) (hshort : field.length ≤ maxValueSize) :
    ∃ tail, (field.length < maxValueSize → tail = []) ∧
      cString (field.rightpad maxValueSize nul ++ beyond) = field ++ tail := by
  unfold List.rightpad
  rcases Nat.lt_or_eq_of_le hshort with hlt | hfull
  · refine ⟨[], fun _ => rfl, ?_⟩
    rw [List.append_nil, List.append_assoc]
    apply cString_append_nul hnul
    obtain ⟨more, hmore⟩ := Nat.exists_eq_add_of_lt hlt
    right
    rw [hmore, show field.length + more + 1 - field.length = more + 1 by omega,
      List.replicate_succ]
    rfl
  · refine ⟨cString beyond, fun hlt => absurd hlt (by omega), ?_⟩
    rw [hfull, Nat.sub_self, List.replicate_zero, List.append_nil]
    exact List.takeWhile_append_of_pos fun c hc => by simpa using hnul c hc

theorem fetch_short (beyond : List Char) {field : List Char}
    (hfield : fieldOf group parameters.text = some field) (hshort : field.length ≤ maxValueSize) :
    ∃ tail, (field.length < maxValueSize → tail = []) ∧
      fetchUnsignedHexNumber beyond parameters.input group = readNumber (field ++ tail) ∧
      (Inside Buffer.size (fetchAccesses beyond parameters.input group) ↔
        strtolHexRead (field ++ tail) ≤ maxValueSize) := by
  obtain ⟨start, terminator, rest, hstart, hdrop, hend, hlength, hinside⟩ := exists_start hfield
  have hstop := endIndex_field hdrop (fun c hc => (not_isFieldEnd_of_mem hfield hc).1) hend
  rw [if_pos hshort] at hstop
  have hnul : ∀ c ∈ field, c ≠ nul := fun c hc => (not_isFieldEnd_of_mem hfield hc).2
  have hlimit := parameters.length_le
  obtain ⟨tail, htail, hcopy⟩ := exists_cString_rightpad beyond hnul hshort
  have hcount : start + field.length - start = field.length := by omega
  refine ⟨tail, htail, ?_, ?_⟩
  · rw [fetchUnsignedHexNumber, hstart]
    dsimp only
    rw [hstop]
    dsimp only
    rw [hcount, hdrop, strncpy_field _ hnul, hcopy]
    rfl
  · have hread := readCount_le field.length (field ++ terminator :: rest)
    rw [fetchAccesses, hstart]
    dsimp only
    rw [hstop, endAccesses, hstop]
    dsimp only [copyAccesses]
    rw [hcount, hdrop, strncpy_field _ hnul, hcopy]
    simp only [inside_append, inside_span, hinside, Buffer.size, maxInputSize, true_and]
    unfold maxValueSize at hshort ⊢
    have hpositive : strtolHexRead (field ++ tail) ≠ 0 := by simp [strtolHexRead, unsignedRead]
    omega

theorem read_le_iff {field tail : List Char} (hshort : field.length ≤ maxValueSize)
    (htail : field.length < maxValueSize → tail = []) :
    strtolHexRead (field ++ tail) ≤ maxValueSize ↔
      field.length < maxValueSize ∨ strtolHexRead field ≤ maxValueSize := by
  rcases Nat.lt_or_eq_of_le hshort with hlt | hfull
  · rw [htail hlt, List.append_nil]
    have hread := strtolHexRead_le field
    omega
  · rw [← hfull, strtolHexRead_append_le_iff]
    omega

theorem readNumber_append {field tail : List Char} (hshort : field.length ≤ maxValueSize)
    (htail : field.length < maxValueSize → tail = [])
    (hread : field.length < maxValueSize ∨ strtolHexRead field ≤ maxValueSize) :
    readNumber (field ++ tail) = readNumber field := by
  by_cases hlt : field.length < maxValueSize
  · rw [htail hlt, List.append_nil]
  · have hinside := strtolHex_append tail (show strtolHexRead field ≤ field.length by omega)
    unfold readNumber
    rw [hinside]
    simp only [List.append_left_inj]

theorem length_dropHexPrefix_le (text : List Char) :
    (dropHexPrefix (takeSign (text.dropWhile isSpace)).2).length ≤ text.length := by
  have hsign := length_takeSign_le (text.dropWhile isSpace)
  have hspace : (text.dropWhile isSpace).length ≤ text.length :=
    (List.dropWhile_suffix isSpace).sublist.length_le
  rw [dropHexPrefix_eq]
  split
  · rw [List.length_drop]
    omega
  · omega

theorem length_signedDigits_le (text : List Char) :
    (signedDigits text).2.length ≤ text.length :=
  ((List.takeWhile_prefix isHexDigit).length_le).trans (length_dropHexPrefix_le text)

theorem readNumber_eq {field : List Char} (hshort : field.length ≤ maxValueSize) :
    readNumber field =
      if (signedDigits field).2 = [] then cannotParseNumber
      else if (signedDigits field).1 then -(hexValue (signedDigits field).2 : Int)
      else hexValue (signedDigits field).2 := by
  have hlength := length_signedDigits_le field
  have hbound : hexValue (signedDigits field).2 < 2 ^ 31 :=
    calc hexValue (signedDigits field).2 < 16 ^ (signedDigits field).2.length := hexValue_lt _
      _ ≤ 16 ^ 4 := Nat.pow_le_pow_right (by decide) (hlength.trans hshort)
      _ < 2 ^ 31 := by decide
  have hstrtol : strtolHex field =
      if (signedDigits field).2 = [] then (0, field)
      else (clampLong (if (signedDigits field).1 then -(hexValue (signedDigits field).2 : Int)
        else hexValue (signedDigits field).2),
        (dropHexPrefix (takeSign (field.dropWhile isSpace)).2).dropWhile isHexDigit) := rfl
  unfold readNumber
  rw [hstrtol]
  by_cases hdigits : (signedDigits field).2 = []
  · rw [if_pos hdigits, if_pos hdigits, if_pos rfl]
  · have hrest : (dropHexPrefix (takeSign (field.dropWhile isSpace)).2).dropWhile isHexDigit ≠
        field := by
      intro hsame
      have htotal := length_takeWhile_add_dropWhile isHexDigit
        (dropHexPrefix (takeSign (field.dropWhile isSpace)).2)
      have hbody := length_dropHexPrefix_le field
      have hpositive : 0 < (signedDigits field).2.length := List.length_pos_iff.mpr hdigits
      unfold signedDigits at hpositive
      dsimp only at hpositive
      rw [hsame] at htotal
      omega
    rw [if_neg hdigits, if_neg hdigits, if_neg hrest]
    unfold clampLong
    split <;> omega

theorem signedDigits_of_digits {field : List Char} (hdigits : ∀ c ∈ field, isHexDigit c = true) :
    signedDigits field = (false, field) ∧ strtolHexRead field = field.length + 1 := by
  cases field with
  | nil => exact ⟨by decide, by decide⟩
  | cons first rest =>
    have hfirst := hdigits first List.mem_cons_self
    have hblank := isSpace_eq_false_of_isHexDigit hfirst
    have hspaces : (first :: rest).dropWhile isSpace = first :: rest := by simp [hblank]
    have hnone : (first :: rest).takeWhile isSpace = [] := by simp [hblank]
    have hsecond : ∀ c ∈ (first :: rest)[1]?, c ≠ 'x' ∧ c ≠ 'X' := fun c hc =>
      ne_x_of_isHexDigit (hdigits c (List.mem_of_getElem? hc))
    have hprefix : prefixLength (first :: rest) = 0 := by
      cases rest with
      | nil => simp [prefixLength]
      | cons second rest =>
        have hne := hsecond second (by simp)
        rw [prefixLength_cons_cons, if_neg]
        rintro ⟨-, hx | hX⟩
        · exact hne.1 hx
        · exact hne.2 hX
    have hwhole : (first :: rest).takeWhile isHexDigit = first :: rest :=
      List.takeWhile_eq_self_iff.mpr hdigits
    constructor
    · unfold signedDigits
      simp only [hspaces, takeSign_of_isHexDigit hfirst, dropHexPrefix_of_second hsecond, hwhole]
    · unfold strtolHexRead unsignedRead
      simp only [hspaces, takeSign_of_isHexDigit hfirst, hnone, hprefix, List.drop_zero, hwhole]
      simp

theorem not_isNumber {field : List Char} (hdigits : ¬ ∀ c ∈ field, isHexDigit c = true) :
    ¬ IsNumber field := fun hnumber => hdigits hnumber.2.2

theorem readNumber_digits {field : List Char} (hdigits : ∀ c ∈ field, isHexDigit c = true)
    (hshort : field.length ≤ maxValueSize) :
    readNumber field = if field = [] then cannotParseNumber else hexValue field := by
  rw [readNumber_eq hshort, (signedDigits_of_digits hdigits).1]
  rfl

theorem readNumber_error_iff {field : List Char} (hshort : field.length ≤ maxValueSize) :
    readNumber field = parsingError ∨ readNumber field = cannotParseNumber ↔
      (signedDigits field).2 = [] ∨
        (signedDigits field).1 = true ∧ hexValue (signedDigits field).2 ∈ [1, 2] := by
  rw [readNumber_eq hshort]
  by_cases hnone : (signedDigits field).2 = []
  · simp [hnone]
  · simp only [hnone, if_false, false_or, parsingError, cannotParseNumber, List.mem_cons,
      List.not_mem_nil, or_false]
    cases (signedDigits field).1 with
    | true => simp only [if_true, true_and]; omega
    | false => simp only [Bool.false_eq_true, if_false, false_and, iff_false]; omega

theorem followsGrammar_digits (beyond : List Char) {field : List Char}
    (hfield : fieldOf group parameters.text = some field) (hshort : field.length ≤ maxValueSize)
    (hdigits : ∀ c ∈ field, isHexDigit c = true) :
    FollowsGrammar beyond parameters group ↔ field.length < maxValueSize := by
  obtain ⟨tail, htail, hfetch, hinside⟩ := fetch_short beyond hfield hshort
  rw [read_le_iff hshort htail, (signedDigits_of_digits hdigits).2] at hinside
  constructor
  · intro hfollows
    have hread := hinside.mp hfollows.inside
    omega
  · intro hlt
    rw [readNumber_append hshort htail (.inl hlt), readNumber_digits hdigits hshort] at hfetch
    refine ⟨fun value => ?_, fun hnone => ?_, hinside.mpr (.inl hlt)⟩
    · rw [hfetch, hfield]
      constructor
      · intro hvalue
        split at hvalue
        · exact absurd hvalue (by unfold cannotParseNumber; omega)
        · rename_i hne
          exact ⟨field, rfl, ⟨hne, hshort, hdigits⟩, Int.ofNat_inj.mp hvalue⟩
      · rintro ⟨other, hother, hnumber, rfl⟩
        cases hother
        rw [if_neg hnumber.1]
    · right
      rw [hfetch, if_pos]
      by_contra hne
      exact hnone ⟨field, hfield, hne, hshort, hdigits⟩

theorem followsGrammar_noise (beyond : List Char) {field : List Char}
    (hfield : fieldOf group parameters.text = some field) (hshort : field.length ≤ maxValueSize)
    (hnoise : ¬ ∀ c ∈ field, isHexDigit c = true) :
    FollowsGrammar beyond parameters group ↔
      (field.length < maxValueSize ∨ strtolHexRead field ≤ maxValueSize) ∧
        ((signedDigits field).2 = [] ∨
          (signedDigits field).1 = true ∧ hexValue (signedDigits field).2 ∈ [1, 2]) := by
  obtain ⟨tail, htail, hfetch, hinside⟩ := fetch_short beyond hfield hshort
  rw [read_le_iff hshort htail] at hinside
  have hnone : ¬ ∃ field, fieldOf group parameters.text = some field ∧ IsNumber field := by
    rintro ⟨other, hother, hnumber⟩
    rw [hfield] at hother
    cases hother
    exact not_isNumber hnoise hnumber
  rw [← readNumber_error_iff hshort]
  constructor
  · intro hfollows
    have hread := hinside.mp hfollows.inside
    rw [readNumber_append hshort htail hread] at hfetch
    rw [← hfetch]
    exact ⟨hread, hfollows.failure hnone⟩
  · rintro ⟨hread, herror⟩
    rw [readNumber_append hshort htail hread] at hfetch
    rw [← hfetch] at herror
    refine ⟨fun value => iff_of_false ?_ ?_, fun _ => herror, hinside.mpr hread⟩
    · rintro hvalue
      rw [hvalue] at herror
      unfold parsingError cannotParseNumber at herror
      omega
    · rintro ⟨other, hother, hnumber, -⟩
      exact hnone ⟨other, hother, hnumber⟩

/-- The grammar is followed, and the buffers are kept to, exactly for the
fields that are legible. -/
theorem fetch_followsGrammar_iff (beyond : List Char) (parameters : Parameters) (group : Nat) :
    FollowsGrammar beyond parameters group ↔
      ∀ field, fieldOf group parameters.text = some field → IsLegible field := by
  cases hfield : fieldOf group parameters.text with
  | none =>
    have hnone := Option.map_eq_none_iff.mp hfield
    have hstart := startIndex_of_none hnone
    have hfetch : fetchUnsignedHexNumber beyond parameters.input group = parsingError := by
      rw [fetchUnsignedHexNumber, hstart]
    refine iff_of_true ⟨fun value => ?_, fun _ => .inl hfetch, ?_⟩ (by simp)
    · rw [hfetch, hfield]
      exact iff_of_false (by unfold parsingError; omega) (by simp)
    · rw [fetchAccesses, hstart, List.append_nil]
      exact inside_startAccesses_of_none hnone
  | some field =>
    simp only [Option.some.injEq, forall_eq']
    by_cases hlong : maxValueSize < field.length
    · obtain ⟨hfetch, hinside⟩ := fetch_long beyond hfield hlong
      refine iff_of_true ⟨fun value => ?_, fun _ => .inl hfetch, hinside⟩ (.inl hlong)
      rw [hfetch, hfield]
      refine iff_of_false (by unfold parsingError; omega) ?_
      rintro ⟨other, hother, hnumber, -⟩
      cases hother
      exact absurd hnumber.2.1 (Nat.not_le_of_lt hlong)
    · have hshort := Nat.le_of_not_lt hlong
      rw [IsLegible, or_iff_right hlong]
      split
      · rename_i hdigits
        exact followsGrammar_digits beyond hfield hshort (List.all_eq_true.mp hdigits)
      · rename_i hnoise
        exact followsGrammar_noise beyond hfield hshort fun hdigits =>
          hnoise (List.all_eq_true.mpr hdigits)

/-- Four digits fill the buffer, and `strtol` looks for their end behind it. -/
theorem not_followsGrammar_fourDigits : ¬ ∀ (beyond : List Char) (parameters : Parameters)
    (group : Nat), FollowsGrammar beyond parameters group := by
  intro hevery
  have hfollows := hevery [] ⟨"1;07D0\r\n".toList, by decide, rfl, by decide⟩ 1
  exact absurd hfollows.inside (by decide)

end field
end VacuumCleaner.A1.Fields
