import VacuumCleaner.A1.InstructionHandler

/-! The numeric fields of a parameters text: `;` separates them, CR or LF ends
the last one. -/
namespace VacuumCleaner.A1.Fields

open Lib.Hex Lib.CText InstructionHandler

def parsingError : Int := -1
def cannotParseNumber : Int := -2
def separator : Char := ';'
def maxValueSize : Nat := 4

/-- The search for the separator in front of field `group`: index and number
of separators seen so far, over the `fuel` characters still to be looked at. -/
def startLoop (input : List Char) (group : Nat) : (fuel index separatorCount : Nat) → Option Nat
  | 0, _, _ => none
  | fuel + 1, index, separatorCount =>
    let separatorCount :=
      if charAt input index = separator then separatorCount + 1 else separatorCount
    if separatorCount = group then some index
    else startLoop input group fuel (index + 1) separatorCount

def startIndex (input : List Char) (group : Nat) : Option Nat :=
  if group > 0 then (startLoop input group 100 0 0).map (· + 1) else some 0

def isFieldEnd (c : Char) : Bool := c == separator || c == '\n' || c == '\r'

/-- The end of a field that starts at `start`: at most four characters on. -/
def endIndex (input : List Char) (start : Nat) : Option Nat :=
  (List.range' start (maxValueSize + 1)).find? fun index => isFieldEnd (charAt input index)

/-- The four-byte buffer is not terminated when the field fills it: `strtol`
then reads on into `beyond`, the memory behind it. -/
def fetchUnsignedHexNumber (beyond input : List Char) (group : Nat) : Int :=
  match startIndex input group with
  | none => parsingError
  | some start =>
    match endIndex input start with
    | none => parsingError
    | some stop =>
      let buffer := strncpy maxValueSize (stop - start) (input.drop start)
      let text := cString (buffer ++ beyond)
      let (result, endptr) := strtolHex text
      if endptr = text then cannotParseNumber else result

/-- `VALIDATE_PARSING` fails the instruction. -/
def isParsingFailure (value : Int) : Bool :=
  value == parsingError || value == cannotParseNumber

/-- Assignment to a signed integer of the given width. -/
def toSigned (width : Nat) (value : Int) : Int := value.bmod (2 ^ width)

/-- Assignment to an unsigned integer of the given width. -/
def toUnsigned (width : Nat) (value : Int) : Nat := (value % 2 ^ width).toNat

theorem toSigned_natCast {width value : Nat} (hvalue : 2 * value < 2 ^ width) :
    toSigned width value = value := by
  unfold toSigned
  generalize 2 ^ width = size at hvalue
  apply Int.bmod_eq_of_le <;> omega

theorem toUnsigned_natCast {width value : Nat} (hvalue : value < 2 ^ width) :
    toUnsigned width value = value := by
  unfold toUnsigned
  have hmod : value % 2 ^ width = value := Nat.mod_eq_of_lt hvalue
  rw [show ((value : Int) % 2 ^ width) = ((value % 2 ^ width : Nat) : Int) by push_cast; rfl, hmod]
  rfl

theorem toSigned_eq (width : Nat) (value : Int) :
    toSigned width value = if value % 2 ^ width < (2 ^ width + 1) / 2 then value % 2 ^ width
      else value % 2 ^ width - 2 ^ width := by
  rw [toSigned, Int.bmod_def]
  push_cast
  rfl

theorem toSigned_emod (width : Nat) (value : Int) :
    toSigned width value % 2 ^ width = value % 2 ^ width := by
  have hmod : value.bmod (2 ^ width) % (2 ^ width : Nat) = value % (2 ^ width : Nat) :=
    Int.bmod_emod
  push_cast at hmod
  exact hmod

theorem toUnsigned_toSigned (width : Nat) (value : Int) :
    toUnsigned width (toSigned width value) = toUnsigned width value := by
  rw [toUnsigned, toSigned_emod, toUnsigned]

theorem toUnsigned_toSigned_mod {width other : Nat} (hwidth : 16 ≤ width) (hother : 16 ≤ other)
    (value : Int) : (toUnsigned other (toSigned width value) : Int) % 2 ^ 16 = value % 2 ^ 16 := by
  rw [toUnsigned, Int.toNat_of_nonneg (Int.emod_nonneg _ (pow_ne_zero _ (by decide))),
    Int.emod_emod_of_dvd _ (pow_dvd_pow 2 hother),
    ← Int.emod_emod_of_dvd (toSigned width value) (pow_dvd_pow 2 hwidth), toSigned_emod,
    Int.emod_emod_of_dvd _ (pow_dvd_pow 2 hwidth)]

/-- The bytes behind the buffer of each field. -/
abbrev StackBytes := (group : Nat) → List Char

/-- A field converted to the type of its variable, under `VALIDATE_PARSING`. -/
def validated (beyond : StackBytes) (input : List Char) (group : Nat) (convert : Int → Int)
    (errorCode : Nat) : Except Nat Int :=
  let value := convert (fetchUnsignedHexNumber (beyond group) input group)
  if isParsingFailure value then .error errorCode else .ok value

/-- A switch on the two values 0x1 and 0x2. -/
def choice (value : Int) (errorCode : Nat) : Except Nat Bool :=
  if value = 1 then .ok true else if value = 2 then .ok false else .error errorCode

theorem charAt_of_drop {input rest : List Char} {c : Char} {index : Nat}
    (hdrop : input.drop index = c :: rest) : charAt input index = c := by
  have hget : (input.drop index)[0]? = some c := by
    rw [hdrop]
    rfl
  rw [List.getElem?_drop, Nat.add_zero] at hget
  simp [charAt, hget]

theorem drop_succ_of_drop {input rest : List Char} {c : Char} {index : Nat}
    (hdrop : input.drop index = c :: rest) : input.drop (index + 1) = rest := by
  rw [← List.drop_drop, hdrop]
  rfl

theorem startLoop_field {input field rest : List Char} {group fuel index separatorCount : Nat}
    (hdrop : input.drop index = field ++ separator :: rest) (hfield : separator ∉ field)
    (hcount : separatorCount < group) (hfuel : field.length < fuel) :
    startLoop input group fuel index separatorCount =
      if separatorCount + 1 = group then some (index + field.length)
      else startLoop input group (fuel - field.length - 1) (index + field.length + 1)
        (separatorCount + 1) := by
  induction field generalizing fuel index with
  | nil =>
    have hchar := charAt_of_drop hdrop
    cases fuel with
    | zero => simp at hfuel
    | succ fuel => simp [startLoop, hchar]
  | cons c field ih =>
    have hchar := charAt_of_drop hdrop
    have hc : c ≠ separator := fun h => hfield (by simp [h])
    cases fuel with
    | zero => simp at hfuel
    | succ fuel =>
      rw [List.length_cons] at hfuel
      have hnext := ih (drop_succ_of_drop hdrop) (fun h => hfield (List.mem_cons_of_mem c h))
        (Nat.lt_of_succ_lt_succ hfuel)
      have hindex : index + 1 + field.length = index + (field.length + 1) := by omega
      have hleft : fuel + 1 - (field.length + 1) = fuel - field.length := by omega
      rw [List.length_cons, hleft, ← hindex, ← hnext]
      simp [startLoop, hchar, hc, Nat.ne_of_lt hcount]

theorem endIndex_field {input field rest : List Char} {terminator : Char} {start : Nat}
    (hdrop : input.drop start = field ++ terminator :: rest)
    (hfield : ∀ c ∈ field, isFieldEnd c = false) (hterminator : isFieldEnd terminator = true) :
    endIndex input start =
      if field.length ≤ maxValueSize then some (start + field.length) else none := by
  have hfind : ∀ (count start : Nat) (field : List Char),
      input.drop start = field ++ terminator :: rest → (∀ c ∈ field, isFieldEnd c = false) →
      (List.range' start count).find? (fun index => isFieldEnd (charAt input index)) =
        if field.length < count then some (start + field.length) else none := by
    intro count
    induction count with
    | zero => simp
    | succ count ih =>
      intro start field hdrop hfield
      rw [List.range'_succ]
      cases field with
      | nil =>
        have hchar := charAt_of_drop hdrop
        simp [hchar, hterminator]
      | cons c field =>
        have hchar := charAt_of_drop hdrop
        have hc := hfield c List.mem_cons_self
        have hnext := ih (start + 1) field (drop_succ_of_drop hdrop) fun c hc =>
          hfield c (List.mem_cons_of_mem _ hc)
        rw [List.find?_cons_of_neg (by simp [hchar, hc]), hnext]
        simp only [List.length_cons]
        split <;> split <;> first | omega | simp <;> omega
  rw [endIndex, hfind _ start field hdrop hfield]
  unfold maxValueSize
  split <;> split <;> first | rfl | omega

example : fetchUnsignedHexNumber [] ['1', ';', '6', '4', '\r', '\n'] 1 = 0x64 := by decide
example : fetchUnsignedHexNumber [] ['1', '\r', '\n'] 1 = parsingError := by decide

end VacuumCleaner.A1.Fields
