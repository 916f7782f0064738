import VacuumCleaner.Lib.Json

/-! `json.loads`: Python's scanner with its leniencies, NaN and the infinities,
repeated names, and lone surrogates, which stand as U+FFFD here. -/
namespace VacuumCleaner.Lib.Json

open Hex Numeral

/-- What the runtime decides: how deep containers may nest, the longest integer
numeral (0 for no limit), and the float nearest to a numeral. -/
structure Runtime where
  recursionLimit : Nat
  maxStrDigits : Nat
  toFloat : (numeral : List Char) → PyFloat

inductive DecodeError
  | jsonDecodeError
  | recursionError
  | valueError
  deriving DecidableEq, Repr

abbrev Scan (α : Type) := Except DecodeError (α × List Char)

def isBlank (c : Char) : Bool := c == ' ' || c == '\t' || c == '\n' || c == '\r'

def skipBlanks (text : List Char) : List Char := text.dropWhile isBlank

/-- The character behind a backslash, `u` apart. -/
def unescape : Char → Option Char
  | '"' => some '"'
  | '\\' => some '\\'
  | '/' => some '/'
  | 'b' => some '\x08'
  | 'f' => some '\x0c'
  | 'n' => some '\n'
  | 'r' => some '\r'
  | 't' => some '\t'
  | _ => none

def isHighSurrogate (code : Nat) : Bool := 0xD800 ≤ code && code < 0xDC00
def isLowSurrogate (code : Nat) : Bool := 0xDC00 ≤ code && code < 0xE000

/-- The characters of a string: adjacent escapes of a pair are one of them. A `Char`
is no surrogate, so that a lone one becomes U+FFFD here, where Python keeps it. -/
def joinSurrogates : List Nat → List Char
  | high :: low :: codes =>
    if isHighSurrogate high && isLowSurrogate low then
      Char.ofNat (0x10000 + (high - 0xD800) * 0x400 + (low - 0xDC00)) :: joinSurrogates codes
    else codeChar high :: joinSurrogates (low :: codes)
  | [code] => [codeChar code]
  | [] => []
where
  codeChar (code : Nat) : Char :=
    if isHighSurrogate code || isLowSurrogate code then '\uFFFD' else Char.ofNat code

def consScan {α : Type} (item : α) : Scan (List α) → Scan (List α)
  | .ok (items, rest) => .ok (item :: items, rest)
  | .error raised => .error raised

/-- The codes of a string behind its opening quote. -/
def scanCodes : List Char → Scan (List Nat)
  | [] => .error .jsonDecodeError
  | '"' :: rest => .ok ([], rest)
  | '\\' :: 'u' :: a :: b :: c :: d :: rest =>
    if [a, b, c, d].all isHexDigit then consScan (hexValue [a, b, c, d]) (scanCodes rest)
    else .error .jsonDecodeError
  | '\\' :: c :: rest =>
    match unescape c with
    | some c => consScan c.toNat (scanCodes rest)
    | none => .error .jsonDecodeError
  | c :: rest =>
    if c.toNat < 0x20 then .error .jsonDecodeError else consScan c.toNat (scanCodes rest)

def scanString (text : List Char) : Scan (List Char) :=
  (scanCodes text).map fun (codes, rest) => (joinSurrogates codes, rest)

/-- The integer part of a numeral: no digit may follow a leading 0. -/
def takeInteger (text : List Char) : List Char × List Char :=
  match text with
  | '0' :: rest => (['0'], rest)
  | text => (text.takeWhile Char.isDigit, text.dropWhile Char.isDigit)

/-- A part of a numeral that counts only when it has digits. -/
def takePart (head : List Char) (body text : List Char) : List Char × List Char :=
  match body.takeWhile Char.isDigit with
  | [] => ([], text)
  | digits => (head ++ digits, body.dropWhile Char.isDigit)

def takeFractionPart (text : List Char) : List Char × List Char :=
  match text with
  | '.' :: rest => takePart ['.'] rest text
  | _ => ([], text)

def takeExponentPart (text : List Char) : List Char × List Char :=
  match text with
  | e :: '-' :: rest => if e = 'e' ∨ e = 'E' then takePart [e, '-'] rest text else ([], text)
  | e :: '+' :: rest => if e = 'e' ∨ e = 'E' then takePart [e, '+'] rest text else ([], text)
  | e :: rest => if e = 'e' ∨ e = 'E' then takePart [e] rest text else ([], text)
  | [] => ([], text)

def takeMinus (text : List Char) : List Char × List Char :=
  match text with
  | '-' :: rest => (['-'], rest)
  | _ => ([], text)

def scanNumber (py : Runtime) (text : List Char) : Scan Value :=
  let (minus, rest) := takeMinus text
  let (integer, rest) := takeInteger rest
  let (fraction, rest) := takeFractionPart rest
  let (exponent, rest) := takeExponentPart rest
  if integer = [] then .error .jsonDecodeError
  else if fraction ++ exponent = [] then
    if py.maxStrDigits ≠ 0 ∧ integer.length > py.maxStrDigits then .error .valueError
    else
      let magnitude : Int := digitsNumber integer
      .ok (.number (.int (if minus = [] then magnitude else -magnitude)), rest)
  else .ok (.number (.float (py.toFloat (minus ++ integer ++ fraction ++ exponent))), rest)

/-- The names of the constants, with their values. -/
def constants : List (List Char × Value) :=
  [(['n', 'u', 'l', 'l'], .null), (['t', 'r', 'u', 'e'], .bool true),
   (['f', 'a', 'l', 's', 'e'], .bool false), (['N', 'a', 'N'], .number (.float .nan)),
   (['I', 'n', 'f', 'i', 'n', 'i', 't', 'y'], .number (.float (.infinity false))),
   (['-', 'I', 'n', 'f', 'i', 'n', 'i', 't', 'y'], .number (.float (.infinity true)))]

def scanScalar (py : Runtime) (text : List Char) : Scan Value :=
  match constants.find? fun constant => constant.1.isPrefixOf text with
  | some (name, value) => .ok (value, text.drop name.length)
  | none => scanNumber py text

mutual

/-- `fuel` bounds the calls: two for each character are enough, by `scan_fuel`. -/
def scanOnce (py : Runtime) : (fuel depth : Nat) → List Char → Scan Value
  | 0, _, _ => .error .jsonDecodeError
  | fuel + 1, depth, text =>
    match text with
    | '"' :: rest => (scanString rest).map fun (text, rest) => (.string text, rest)
    | '{' :: rest =>
      match depth with
      | 0 => .error .recursionError
      | depth + 1 =>
        match skipBlanks rest with
        | '}' :: rest => .ok (.object [], rest)
        | rest => scanMembers py fuel depth [] rest
    | '[' :: rest =>
      match depth with
      | 0 => .error .recursionError
      | depth + 1 =>
        match skipBlanks rest with
        | ']' :: rest => .ok (.array [], rest)
        | rest => scanItems py fuel depth [] rest
    | text => scanScalar py text

/-- The members of an object from a name on. -/
def scanMembers (py : Runtime) : (fuel depth : Nat) → Members → List Char → Scan Value
  | 0, _, _, _ => .error .jsonDecodeError
  | fuel + 1, depth, members, text =>
    match text with
    | '"' :: rest =>
      match scanString rest with
      | .error raised => .error raised
      | .ok (key, rest) =>
        match skipBlanks rest with
        | ':' :: rest =>
          match scanOnce py fuel depth (skipBlanks rest) with
          | .error raised => .error raised
          | .ok (value, rest) =>
            match skipBlanks rest with
            | '}' :: rest => .ok (.object (setItem key value members), rest)
            | ',' :: rest =>
              scanMembers py fuel depth (setItem key value members) (skipBlanks rest)
            | _ => .error .jsonDecodeError
        | _ => .error .jsonDecodeError
    | _ => .error .jsonDecodeError

/-- The items of an array from a value on. -/
def scanItems (py : Runtime) : (fuel depth : Nat) → List Value → List Char → Scan Value
  | 0, _, _, _ => .error .jsonDecodeError
  | fuel + 1, depth, items, text =>
    match scanOnce py fuel depth text with
    | .error raised => .error raised
    | .ok (value, rest) =>
      match skipBlanks rest with
      | ']' :: rest => .ok (.array (items ++ [value]), rest)
      | ',' :: rest => scanItems py fuel depth (items ++ [value]) (skipBlanks rest)
      | _ => .error .jsonDecodeError

end

/-- `json.loads` of a text. -/
def loads (py : Runtime) (text : List Char) : Except DecodeError Value :=
  match text with
  | '\uFEFF' :: _ => .error .jsonDecodeError
  | text =>
    match scanOnce py (2 * text.length) py.recursionLimit (skipBlanks text) with
    | .error raised => .error raised
    | .ok (value, rest) => if skipBlanks rest = [] then .ok value else .error .jsonDecodeError

section

variable (py : Runtime) (fuel depth : Nat) (text : List Char)

theorem scanOnce_quote : scanOnce py (fuel + 1) depth ('"' :: text) =
    (scanString text).map fun (text, rest) => (.string text, rest) := rfl

theorem scanOnce_brace : scanOnce py (fuel + 1) (depth + 1) ('{' :: text) =
    match skipBlanks text with
    | '}' :: rest => .ok (.object [], rest)
    | rest => scanMembers py fuel depth [] rest := rfl

theorem scanOnce_bracket : scanOnce py (fuel + 1) (depth + 1) ('[' :: text) =
    match skipBlanks text with
    | ']' :: rest => .ok (.array [], rest)
    | rest => scanItems py fuel depth [] rest := rfl

end

theorem length_skipBlanks_le (text : List Char) : (skipBlanks text).length ≤ text.length :=
  (List.dropWhile_sublist _).length_le

/-! What a scanner leaves is shorter than what it was given. -/
section Consumption

theorem consScan_eq_ok {α : Type} {item : α} {scan : Scan (List α)} {items : List α}
    {rest : List Char} (h : consScan item scan = .ok (items, rest)) :
    ∃ items, scan = .ok (items, rest) := by
  cases scan with
  | error raised => cases h
  | ok result =>
    cases h
    exact ⟨_, rfl⟩

theorem scanCodes_shorter {text rest : List Char} {codes : List Nat}
    (h : scanCodes text = .ok (codes, rest)) : rest.length < text.length := by
  induction text using scanCodes.induct generalizing codes with
  | case1 => cases h
  | case2 =>
    cases h
    exact Nat.lt_succ_self _
  | case3 a b c d text hdigits ih =>
    rw [scanCodes, if_pos hdigits] at h
    obtain ⟨codes, h⟩ := consScan_eq_ok h
    have hlt := ih h
    simp only [List.length_cons]
    omega
  | case4 a b c d text hdigits =>
    rw [scanCodes, if_neg hdigits] at h
    cases h
  | case5 c text hplain escaped hescaped ih =>
    rw [scanCodes, hescaped] at h
    · obtain ⟨codes, h⟩ := consScan_eq_ok h
      have hlt := ih h
      simp only [List.length_cons]
      omega
    · exact hplain
  | case6 c text hplain hescaped =>
    rw [scanCodes, hescaped] at h
    · cases h
    · exact hplain
  | case7 c text hquote hunicode hescape hcontrol =>
    rw [scanCodes, if_pos hcontrol] at h
    · cases h
    all_goals assumption
  | case8 c text hquote hunicode hescape hcontrol ih =>
    rw [scanCodes, if_neg hcontrol] at h
    · obtain ⟨codes, h⟩ := consScan_eq_ok h
      have hlt := ih h
      simp only [List.length_cons]
      omega
    all_goals assumption

theorem scanString_shorter {text chars rest : List Char}
    (h : scanString text = .ok (chars, rest)) : rest.length < text.length := by
  unfold scanString at h
  cases hcodes : scanCodes text with
  | error raised =>
    rw [hcodes] at h
    cases h
  | ok result =>
    rw [hcodes] at h
    cases h
    exact scanCodes_shorter hcodes

theorem length_takePart_le (head : List Char) {body text : List Char}
    (hbody : body.length ≤ text.length) : (takePart head body text).2.length ≤ text.length := by
  unfold takePart
  split
  · exact Nat.le_refl _
  · exact Nat.le_trans (List.dropWhile_sublist _).length_le hbody

theorem length_takeFractionPart_le (text : List Char) :
    (takeFractionPart text).2.length ≤ text.length := by
  unfold takeFractionPart
  split
  · exact length_takePart_le _ (Nat.le_succ _)
  · exact Nat.le_refl _

theorem length_takeExponentPart_le (text : List Char) :
    (takeExponentPart text).2.length ≤ text.length := by
  unfold takeExponentPart
  split
  · split
    · apply length_takePart_le
      simp only [List.length_cons]
      omega
    · exact Nat.le_refl _
  · split
    · apply length_takePart_le
      simp only [List.length_cons]
      omega
    · exact Nat.le_refl _
  · split
    · exact length_takePart_le _ (Nat.le_succ _)
    · exact Nat.le_refl _
  · exact Nat.le_refl _

theorem length_takeMinus_le (text : List Char) : (takeMinus text).2.length ≤ text.length := by
  unfold takeMinus
  split
  · exact Nat.le_succ _
  · exact Nat.le_refl _

theorem length_dropWhile_lt {p : Char → Bool} {text : List Char} (h : text.takeWhile p ≠ []) :
    (text.dropWhile p).length < text.length := by
  have hsplit := congrArg List.length (List.takeWhile_append_dropWhile (p := p) (l := text))
  have hpos := List.length_pos_iff.mpr h
  rw [List.length_append] at hsplit
  omega

theorem length_takeInteger_lt {text : List Char} (h : (takeInteger text).1 ≠ []) :
    (takeInteger text).2.length < text.length := by
  unfold takeInteger at h ⊢
  split at h
  · exact Nat.lt_succ_self _
  · exact length_dropWhile_lt h

theorem scanNumber_shorter {py : Runtime} {text rest : List Char} {value : Value}
    (h : scanNumber py text = .ok (value, rest)) : rest.length < text.length := by
  unfold scanNumber at h
  dsimp only at h
  have hminus := length_takeMinus_le text
  have hfraction := length_takeFractionPart_le (takeInteger (takeMinus text).2).2
  have hexponent :=
    length_takeExponentPart_le (takeFractionPart (takeInteger (takeMinus text).2).2).2
  split at h
  · cases h
  · rename_i hinteger
    have hlt := length_takeInteger_lt hinteger
    split at h
    · split at h
      · cases h
      · cases h
        omega
    · cases h
      omega

theorem scanScalar_shorter {py : Runtime} {text rest : List Char} {value : Value}
    (h : scanScalar py text = .ok (value, rest)) : rest.length < text.length := by
  unfold scanScalar at h
  split at h
  · rename_i name constant hfind
    cases h
    have hmem := List.mem_of_find?_eq_some hfind
    have hname : ∀ constant ∈ constants, 0 < constant.1.length := by
      simp [constants]
    have hpos := hname _ hmem
    have hmatch := List.find?_some
      (p := fun constant : List Char × Value => constant.1.isPrefixOf text) hfind
    have hle := (List.isPrefixOf_iff_prefix.mp hmatch).length_le
    rw [List.length_drop]
    dsimp only at hpos hle
    omega
  · exact scanNumber_shorter h

/-- The three scanners of the mutual recursion at one amount of fuel. -/
structure Shorter (py : Runtime) (fuel : Nat) : Prop where
  once : ∀ {depth text value rest}, scanOnce py fuel depth text = .ok (value, rest) →
    rest.length < text.length
  members : ∀ {depth members text value rest},
    scanMembers py fuel depth members text = .ok (value, rest) → rest.length < text.length
  items : ∀ {depth items text value rest},
    scanItems py fuel depth items text = .ok (value, rest) → rest.length < text.length

variable {py : Runtime} {fuel depth : Nat} {text rest : List Char} {value : Value}

theorem Shorter.once_succ (ih : Shorter py fuel)
    (h : scanOnce py (fuel + 1) depth text = .ok (value, rest)) : rest.length < text.length := by
  unfold scanOnce at h
  split at h
  · rename_i text
    cases hstring : scanString text with
    | error raised =>
      rw [hstring] at h
      cases h
    | ok result =>
      rw [hstring] at h
      cases h
      have hlt := scanString_shorter hstring
      simp only [List.length_cons]
      omega
  · rename_i text
    have hblanks := length_skipBlanks_le text
    split at h
    · cases h
    · split at h
      · rename_i hskip
        cases h
        rw [hskip] at hblanks
        simp only [List.length_cons] at hblanks ⊢
        omega
      · have hlt := ih.members h
        simp only [List.length_cons]
        omega
  · rename_i text
    have hblanks := length_skipBlanks_le text
    split at h
    · cases h
    · split at h
      · rename_i hskip
        cases h
        rw [hskip] at hblanks
        simp only [List.length_cons] at hblanks ⊢
        omega
      · have hlt := ih.items h
        simp only [List.length_cons]
        omega
  · exact scanScalar_shorter h

theorem Shorter.members_succ {members : Members} (ih : Shorter py fuel)
    (h : scanMembers py (fuel + 1) depth members text = .ok (value, rest)) :
    rest.length < text.length := by
  unfold scanMembers at h
  split at h
  · rename_i text
    split at h
    · cases h
    · rename_i key afterKey hstring
      have hkey := scanString_shorter hstring
      have hblanks := length_skipBlanks_le afterKey
      split at h
      · rename_i afterColon hcolon
        have hblanks' := length_skipBlanks_le afterColon
        rw [hcolon, List.length_cons] at hblanks
        split at h
        · cases h
        · rename_i member afterValue hvalue
          have hmember := ih.once hvalue
          have hblanks'' := length_skipBlanks_le afterValue
          split at h
          · rename_i hclose
            cases h
            rw [hclose, List.length_cons] at hblanks''
            rw [List.length_cons]
            omega
          · rename_i afterComma hcomma
            have hlt := ih.members h
            have hnext := length_skipBlanks_le afterComma
            rw [hcomma, List.length_cons] at hblanks''
            rw [List.length_cons]
            omega
          · cases h
      · cases h
  · cases h

theorem Shorter.items_succ {items : List Value} (ih : Shorter py fuel)
    (h : scanItems py (fuel + 1) depth items text = .ok (value, rest)) :
    rest.length < text.length := by
  unfold scanItems at h
  split at h
  · cases h
  · rename_i item afterValue hvalue
    have hitem := ih.once hvalue
    have hblanks := length_skipBlanks_le afterValue
    split at h
    · rename_i hclose
      cases h
      rw [hclose, List.length_cons] at hblanks
      omega
    · rename_i afterComma hcomma
      have hlt := ih.items h
      have hnext := length_skipBlanks_le afterComma
      rw [hcomma, List.length_cons] at hblanks
      omega
    · cases h

theorem shorter (py : Runtime) (fuel : Nat) : Shorter py fuel := by
  induction fuel with
  | zero => exact ⟨nofun, nofun, nofun⟩
  | succ fuel ih => exact ⟨ih.once_succ, ih.members_succ, ih.items_succ⟩

end Consumption

section Fuel

/-- One more call would change nothing. -/
structure Enough (py : Runtime) (fuel : Nat) : Prop where
  once : ∀ {depth text}, 2 * text.length ≤ fuel →
    scanOnce py (fuel + 1) depth text = scanOnce py fuel depth text
  members : ∀ {depth members text}, 2 * text.length + 1 ≤ fuel →
    scanMembers py (fuel + 1) depth members text = scanMembers py fuel depth members text
  items : ∀ {depth items text}, 2 * text.length + 1 ≤ fuel →
    scanItems py (fuel + 1) depth items text = scanItems py fuel depth items text

variable {py : Runtime} {fuel depth : Nat} {text : List Char}

theorem Enough.once_succ (ih : Enough py fuel) (h : 2 * text.length ≤ fuel + 1) :
    scanOnce py (fuel + 1 + 1) depth text = scanOnce py (fuel + 1) depth text := by
  unfold scanOnce
  split
  · rfl
  · rename_i rest
    have hblanks := length_skipBlanks_le rest
    rw [List.length_cons] at h
    split
    · rfl
    · split
      · rfl
      · exact ih.members (by omega)
  · rename_i rest
    have hblanks := length_skipBlanks_le rest
    rw [List.length_cons] at h
    split
    · rfl
    · split
      · rfl
      · exact ih.items (by omega)
  · rfl

theorem Enough.members_succ {members : Members} (ih : Enough py fuel)
    (h : 2 * text.length + 1 ≤ fuel + 1) :
    scanMembers py (fuel + 1 + 1) depth members text =
      scanMembers py (fuel + 1) depth members text := by
  unfold scanMembers
  split
  · rename_i rest
    rw [List.length_cons] at h
    split
    · rfl
    · rename_i key afterKey hstring
      have hkey := scanString_shorter hstring
      have hblanks := length_skipBlanks_le afterKey
      split
      · rename_i afterColon hcolon
        have hblanks' := length_skipBlanks_le afterColon
        rw [hcolon, List.length_cons] at hblanks
        rw [ih.once (by omega)]
        split
        · rfl
        · rename_i member afterValue hvalue
          have hmember := (shorter py fuel).once hvalue
          have hblanks'' := length_skipBlanks_le afterValue
          split
          · rfl
          · rename_i afterComma hcomma
            have hnext := length_skipBlanks_le afterComma
            rw [hcomma, List.length_cons] at hblanks''
            exact ih.members (by omega)
          · rfl
      · rfl
  · rfl

theorem Enough.items_succ {items : List Value} (ih : Enough py fuel)
    (h : 2 * text.length + 1 ≤ fuel + 1) :
    scanItems py (fuel + 1 + 1) depth items text = scanItems py (fuel + 1) depth items text := by
  unfold scanItems
  rw [ih.once (by omega)]
  split
  · rfl
  · rename_i item afterValue hvalue
    have hitem := (shorter py fuel).once hvalue
    have hblanks := length_skipBlanks_le afterValue
    split
    · rfl
    · rename_i afterComma hcomma
      have hnext := length_skipBlanks_le afterComma
      rw [hcomma, List.length_cons] at hblanks
      exact ih.items (by omega)
    · rfl

theorem enough (py : Runtime) (fuel : Nat) : Enough py fuel := by
  induction fuel with
  | zero =>
    constructor
    · intro depth text h
      cases text with
      | nil => rfl
      | cons => simp at h
    · intro depth members text h
      omega
    · intro depth items text h
      omega
  | succ fuel ih => exact ⟨ih.once_succ, ih.members_succ, ih.items_succ⟩

/-- With two calls for each character the fuel decides nothing. -/
theorem scan_fuel (extra : Nat) :
    scanOnce py (2 * text.length + extra) depth text = scanOnce py (2 * text.length) depth text := by
  induction extra with
  | zero => rfl
  | succ extra ih =>
    rw [← ih]
    exact (enough py _).once (Nat.le_add_right _ _)

end Fuel

def exactRuntime : Runtime := ⟨1000, 4300, fun _ => .nan⟩

example : loads exactRuntime ['[', ' ', '{', '"', 'a', '"', ':', '-', '1', '}', ',', '"', 'b', '"',
    ']', '\n'] = .ok (.array [.object [(['a'], .number (.int (-1)))], .string ['b']]) := by
  rfl

end VacuumCleaner.Lib.Json
