import VacuumCleaner.Lib.JsonDecoder

/-! `json.dumps` with an indent of four, and that `json.loads` reads back what
it wrote. -/
namespace VacuumCleaner.Lib.Json

open Hex Numeral

def unicodeEscape (code : Nat) : List Char := '\\' :: 'u' :: hexPadded 4 code

/-- The codes of a character in UTF-16. -/
def charCodes (c : Char) : List Nat :=
  if c.toNat < 0x10000 then [c.toNat]
  else [0xD800 + (c.toNat - 0x10000) / 0x400, 0xDC00 + (c.toNat - 0x10000) % 0x400]

/-- Everything outside of ASCII is escaped. -/
def escapeChar : Char → List Char
  | '"' => ['\\', '"']
  | '\\' => ['\\', '\\']
  | '\x08' => ['\\', 'b']
  | '\x0c' => ['\\', 'f']
  | '\n' => ['\\', 'n']
  | '\r' => ['\\', 'r']
  | '\t' => ['\\', 't']
  | c => if 0x20 ≤ c.toNat ∧ c.toNat < 0x7F then [c] else (charCodes c).flatMap unicodeEscape

def encodeString (text : List Char) : List Char := '"' :: (text.flatMap escapeChar ++ ['"'])

def encodeNumber : Number → List Char
  | .float (.infinity negative) =>
    (if negative then ['-'] else []) ++ ['I', 'n', 'f', 'i', 'n', 'i', 't', 'y']
  | .float .nan => ['N', 'a', 'N']
  | number => number.str

def newline (level : Nat) : List Char := '\n' :: List.replicate (4 * level) ' '

mutual

/-- A value at a level of indentation. -/
def encode (level : Nat) : Value → List Char
  | .null => ['n', 'u', 'l', 'l']
  | .bool true => ['t', 'r', 'u', 'e']
  | .bool false => ['f', 'a', 'l', 's', 'e']
  | .number number => encodeNumber number
  | .string text => encodeString text
  | .array [] => ['[', ']']
  | .array (item :: items) =>
    '[' :: (newline (level + 1) ++ encode (level + 1) item ++ encodeItems (level + 1) items ++
      newline level ++ [']'])
  | .object [] => ['{', '}']
  | .object ((key, value) :: members) =>
    '{' :: (newline (level + 1) ++ encodeString key ++ [':', ' '] ++ encode (level + 1) value ++
      encodeMembers (level + 1) members ++ newline level ++ ['}'])

/-- The items behind the first, each on a line of its own. -/
def encodeItems (level : Nat) : List Value → List Char
  | [] => []
  | item :: items => ',' :: (newline level ++ encode level item ++ encodeItems level items)

def encodeMembers (level : Nat) : Members → List Char
  | [] => []
  | (key, value) :: members =>
    ',' :: (newline level ++ encodeString key ++ [':', ' '] ++ encode level value ++
      encodeMembers level members)

end

/-- `json.dumps(value, indent=4)`. -/
def dumps (value : Value) : List Char := encode 0 value

section Strings

variable {rest : List Char}

theorem scanCodes_unicodeEscape {code : Nat} (hcode : code < 0x10000) :
    scanCodes (unicodeEscape code ++ rest) = consScan code (scanCodes rest) := by
  have hlength : (hexPadded 4 code).length = 4 :=
    (length_hexPadded_eq_iff (by decide)).mpr (by simpa using hcode)
  have hdigits : (hexPadded 4 code).all isHexDigit = true :=
    List.all_eq_true.mpr fun _ => isHexDigit_of_mem_hexPadded
  have hvalue := hexValue_hexPadded 4 code
  unfold unicodeEscape
  generalize hexPadded 4 code = digits at hlength hdigits hvalue
  match digits with
  | [a, b, c, d] =>
    simp only [List.cons_append, List.nil_append]
    rw [scanCodes, if_pos hdigits, hvalue]

theorem scanCodes_plain {c : Char} (hquote : c ≠ '"') (hbackslash : c ≠ '\\')
    (hcontrol : 0x20 ≤ c.toNat) : scanCodes (c :: rest) = consScan c.toNat (scanCodes rest) := by
  rw [scanCodes, if_neg (by omega)]
  · exact hquote
  · intro a b d e text heq
    exact absurd heq hbackslash
  · intro d text heq
    exact absurd heq hbackslash

theorem scanCodes_escape {c escaped : Char} (hne : c ≠ 'u') (hescape : unescape c = some escaped) :
    scanCodes ('\\' :: c :: rest) = consScan escaped.toNat (scanCodes rest) := by
  rw [scanCodes, hescape]
  intro a b d e text heq
  exact absurd heq hne

/-- The codes in front of those that a scan finds. -/
def prependScan (codes : List Nat) (scan : Scan (List Nat)) : Scan (List Nat) :=
  codes.foldr consScan scan

theorem toNat_lt (c : Char) : c.toNat < 0x110000 := by
  rcases c.valid with hlow | hhigh
  · exact Nat.lt_trans hlow (by decide)
  · exact hhigh.2

theorem charCodes_lt (c : Char) : ∀ code ∈ charCodes c, code < 0x10000 := by
  have hvalid := toNat_lt c
  intro code hcode
  unfold charCodes at hcode
  split at hcode
  · rw [List.mem_singleton.mp hcode]
    assumption
  · simp only [List.mem_cons, List.not_mem_nil, or_false] at hcode
    omega

theorem scanCodes_flatMap_unicodeEscape {codes : List Nat} (hcodes : ∀ code ∈ codes, code < 0x10000) :
    scanCodes (codes.flatMap unicodeEscape ++ rest) = prependScan codes (scanCodes rest) := by
  induction codes with
  | nil => rfl
  | cons code codes ih =>
    rw [List.flatMap_cons, List.append_assoc, scanCodes_unicodeEscape (hcodes code (by simp)),
      ih fun other hother => hcodes other (List.mem_cons_of_mem _ hother)]
    rfl

theorem charCodes_of_lt {c : Char} (hc : c.toNat < 0x10000) : charCodes c = [c.toNat] := if_pos hc

theorem scanCodes_escapeChar (c : Char) :
    scanCodes (escapeChar c ++ rest) = prependScan (charCodes c) (scanCodes rest) := by
  unfold escapeChar
  split
  iterate 7
    rw [charCodes_of_lt (by decide)]
    exact scanCodes_escape (by decide) rfl
  · rename_i hquote hbackslash _ _ _ _ _
    split
    · rename_i hprintable
      rw [charCodes_of_lt (by omega)]
      exact scanCodes_plain hquote hbackslash hprintable.1
    · exact scanCodes_flatMap_unicodeEscape (charCodes_lt c)

theorem scanCodes_flatMap_escapeChar (text : List Char) :
    scanCodes (text.flatMap escapeChar ++ '"' :: rest) = .ok (text.flatMap charCodes, rest) := by
  have hprepend : ∀ (codes rest : List Nat) (tail : List Char),
      prependScan codes (.ok (rest, tail)) = .ok (codes ++ rest, tail) := by
    intro codes rest tail
    induction codes with
    | nil => rfl
    | cons code codes ih =>
      unfold prependScan at ih ⊢
      rw [List.foldr_cons, ih]
      rfl
  induction text with
  | nil => rfl
  | cons c text ih =>
    rw [List.flatMap_cons, List.append_assoc, scanCodes_escapeChar, ih, hprepend, List.flatMap_cons]

theorem joinSurrogates_charCodes (c : Char) (codes : List Nat) :
    joinSurrogates (charCodes c ++ codes) = c :: joinSurrogates codes := by
  unfold charCodes
  split
  · rename_i hbasic
    have hcode : isHighSurrogate c.toNat = false ∧ isLowSurrogate c.toNat = false := by
      have hc := c.valid
      have hrange : c.toNat < 0xD800 ∨ 0xDFFF < c.toNat := by
        rcases hc with h | h
        · exact .inl h
        · exact .inr h.1
      unfold isHighSurrogate isLowSurrogate
      grind
    have hchar : joinSurrogates.codeChar c.toNat = c := by
      unfold joinSurrogates.codeChar
      rw [hcode.1, hcode.2]
      exact Char.ofNat_toNat c
    cases codes with
    | nil =>
      rw [List.append_nil, joinSurrogates, hchar]
      rfl
    | cons low codes =>
      rw [List.singleton_append, joinSurrogates, hcode.1, Bool.false_and, hchar]
      rfl
  · rename_i hplane
    have hvalid := toNat_lt c
    have hpair : isHighSurrogate (0xD800 + (c.toNat - 0x10000) / 0x400) = true ∧
        isLowSurrogate (0xDC00 + (c.toNat - 0x10000) % 0x400) = true := by
      simp only [isHighSurrogate, isLowSurrogate, Bool.and_eq_true, decide_eq_true_eq]
      omega
    have hback : 0x10000 + (0xD800 + (c.toNat - 0x10000) / 0x400 - 0xD800) * 0x400 +
        (0xDC00 + (c.toNat - 0x10000) % 0x400 - 0xDC00) = c.toNat := by
      rw [Nat.add_sub_cancel_left, Nat.add_sub_cancel_left, Nat.add_assoc, Nat.mul_comm,
        Nat.div_add_mod, Nat.add_sub_cancel' (Nat.le_of_not_lt hplane)]
    rw [List.cons_append, List.singleton_append, joinSurrogates, hpair.1, hpair.2, hback,
      Bool.and_self, if_pos rfl, Char.ofNat_toNat]

theorem scanString_encodeString (text : List Char) :
    scanString (text.flatMap escapeChar ++ '"' :: rest) = .ok (text, rest) := by
  have hjoin : joinSurrogates (text.flatMap charCodes) = text := by
    induction text with
    | nil => rfl
    | cons c text ih => rw [List.flatMap_cons, joinSurrogates_charCodes, ih]
  unfold scanString
  rw [scanCodes_flatMap_escapeChar]
  exact congrArg (fun chars => Except.ok (chars, rest)) hjoin

end Strings

section Numbers

/-- Behind a numeral stands nothing with which it would go on. -/
def EndsNumeral (rest : List Char) : Prop :=
  ∀ c, rest.head? = some c → c.isDigit = false ∧ c ≠ '.' ∧ c ≠ 'e' ∧ c ≠ 'E'

def IsDigits (text : List Char) : Prop := text ≠ [] ∧ ∀ c ∈ text, c.isDigit = true

/-- An integer part without leading zeros. -/
def IsInteger (text : List Char) : Prop := IsDigits text ∧ (text.head? = some '0' → text = ['0'])

def IsFraction (text : List Char) : Prop :=
  text = [] ∨ ∃ digits, IsDigits digits ∧ text = '.' :: digits

def IsExponent (text : List Char) : Prop :=
  text = [] ∨ ∃ e sign digits, (e = 'e' ∨ e = 'E') ∧ (sign = [] ∨ sign = ['-'] ∨ sign = ['+']) ∧
    IsDigits digits ∧ text = e :: (sign ++ digits)

variable {integer fraction exponent rest : List Char}

theorem takePart_digits (head text : List Char) {digits : List Char} (hdigits : IsDigits digits)
    (hrest : ∀ c, rest.head? = some c → c.isDigit = false) :
    takePart head (digits ++ rest) text = (head ++ digits, rest) := by
  obtain ⟨htake, hdrop⟩ := takeWhile_digits rest hdigits.2 hrest
  unfold takePart
  rw [htake, hdrop]
  split
  · exact absurd rfl hdigits.1
  · rfl

theorem takeExponentPart_exponent (hexponent : IsExponent exponent) (hrest : EndsNumeral rest) :
    takeExponentPart (exponent ++ rest) = (exponent, rest) := by
  rcases hexponent with rfl | ⟨e, sign, digits, he, hsign, hdigits, rfl⟩
  · rw [List.nil_append]
    unfold takeExponentPart
    split
    iterate 3
      obtain ⟨-, -, he, hE⟩ := hrest _ rfl
      rw [if_neg (by simp [he, hE])]
    rfl
  · have hpart : ∀ head text, takePart head (digits ++ rest) text = (head ++ digits, rest) :=
      fun head text => takePart_digits head text hdigits fun c hc => (hrest c hc).1
    rcases hsign with rfl | rfl | rfl
    · obtain ⟨first, others, rfl⟩ := List.exists_cons_of_ne_nil hdigits.1
      have hfirst := hdigits.2 first (by simp)
      simp only [List.nil_append, List.cons_append] at hpart ⊢
      unfold takeExponentPart
      split
      · rename_i hminus
        cases hminus
        cases hfirst
      · rename_i hplus
        cases hplus
        cases hfirst
      · rename_i htext
        cases htext
        rw [if_pos he, hpart]
        rfl
      · rename_i htext
        cases htext
    · simp only [List.cons_append, List.nil_append, takeExponentPart]
      rw [if_pos he, hpart]
      rfl
    · simp only [List.cons_append, List.nil_append, takeExponentPart]
      rw [if_pos he, hpart]
      rfl

theorem takeFractionPart_fraction (hfraction : IsFraction fraction) (hexponent : IsExponent exponent)
    (hrest : EndsNumeral rest) :
    takeFractionPart (fraction ++ (exponent ++ rest)) = (fraction, exponent ++ rest) := by
  have hnext : ∀ c, (exponent ++ rest).head? = some c → c.isDigit = false ∧ c ≠ '.' := by
    intro c hc
    rcases hexponent with rfl | ⟨e, sign, digits, he, -, -, rfl⟩
    · exact ⟨(hrest c hc).1, (hrest c hc).2.1⟩
    · cases hc
      rcases he with rfl | rfl <;> decide
  rcases hfraction with rfl | ⟨digits, hdigits, rfl⟩
  · rw [List.nil_append]
    unfold takeFractionPart
    split
    · rename_i hhead
      exact absurd rfl (hnext '.' (by rw [hhead]; rfl)).2
    · rfl
  · exact takePart_digits _ _ hdigits fun c hc => (hnext c hc).1

theorem takeInteger_integer (hinteger : IsInteger integer)
    (hrest : ∀ c, rest.head? = some c → c.isDigit = false) :
    takeInteger (integer ++ rest) = (integer, rest) := by
  obtain ⟨⟨hne, hdigits⟩, hzero⟩ := hinteger
  obtain ⟨htake, hdrop⟩ := takeWhile_digits rest hdigits hrest
  unfold takeInteger
  split
  · rename_i tail htext
    have hhead : integer.head? = some '0' := by
      rw [← List.head?_append_of_ne_nil _ hne, htext]
      rfl
    rw [hzero hhead] at htext ⊢
    cases htext
    rfl
  · rw [htake, hdrop]

theorem scanNumber_parts (py : Runtime) (negative : Bool) (hinteger : IsInteger integer)
    (hfraction : IsFraction fraction) (hexponent : IsExponent exponent) (hrest : EndsNumeral rest) :
    scanNumber py ((if negative then ['-'] else []) ++
      (integer ++ (fraction ++ (exponent ++ rest)))) =
      if fraction ++ exponent = [] then
        if py.maxStrDigits ≠ 0 ∧ integer.length > py.maxStrDigits then .error .valueError
        else .ok (.number (.int (if negative then -digitsNumber integer else digitsNumber integer)),
          rest)
      else .ok (.number (.float (py.toFloat ((if negative then ['-'] else []) ++ integer ++
        fraction ++ exponent))), rest) := by
  have hnext : ∀ c, (fraction ++ (exponent ++ rest)).head? = some c → c.isDigit = false := by
    intro c hc
    rcases hfraction with rfl | ⟨digits, -, rfl⟩
    · rcases hexponent with rfl | ⟨e, sign, digits, he, -, -, rfl⟩
      · exact (hrest c hc).1
      · cases hc
        rcases he with rfl | rfl <;> decide
    · cases hc
      decide
  have hminus : takeMinus ((if negative then ['-'] else []) ++
      (integer ++ (fraction ++ (exponent ++ rest)))) =
        (if negative then ['-'] else [], integer ++ (fraction ++ (exponent ++ rest))) := by
    cases negative with
    | true => rfl
    | false =>
      have hfirst : ∀ tail, integer ++ (fraction ++ (exponent ++ rest)) ≠ '-' :: tail := by
        intro tail htext
        have hhead : (integer ++ (fraction ++ (exponent ++ rest))).head? = integer.head? :=
          List.head?_append_of_ne_nil _ hinteger.1.1
        rw [htext] at hhead
        have hminus := hinteger.1.2 '-' (List.mem_of_mem_head? hhead.symm)
        cases hminus
      simp only [Bool.false_eq_true, if_false, List.nil_append]
      unfold takeMinus
      split
      · rename_i tail htext
        exact absurd htext (hfirst tail)
      · rfl
  unfold scanNumber
  simp only [hminus, takeInteger_integer hinteger hnext,
    takeFractionPart_fraction hfraction hexponent hrest, takeExponentPart_exponent hexponent hrest,
    if_neg hinteger.1.1]
  cases negative <;> rfl

theorem eq_zero_of_head_toDigits {value : Nat} (hhead : (Nat.toDigits 10 value).head? = some '0') :
    value = 0 := by
  induction value using Nat.strongRecOn with
  | _ value ih =>
    rw [Nat.toDigits_eq_if (by decide)] at hhead
    split at hhead
    · rename_i hlt
      have hchar : ∀ digit < 10, digit.digitChar = '0' → digit = 0 := by decide
      exact hchar value hlt (Option.some.inj hhead)
    · rw [List.head?_append_of_ne_nil _ Nat.toDigits_ne_nil] at hhead
      have hzero := ih (value / 10) (by omega) hhead
      omega

theorem isInteger_toDigits (value : Nat) : IsInteger (Nat.toDigits 10 value) := by
  refine ⟨⟨Nat.toDigits_ne_nil, fun c hc => ?_⟩, fun hhead => ?_⟩
  · exact Nat.isDigit_of_mem_toDigits (by decide) (by decide) hc
  · rw [eq_zero_of_head_toDigits hhead]
    rfl

theorem digitsNumber_toDigits (value : Nat) : digitsNumber (Nat.toDigits 10 value) = value := by
  induction value using Nat.strongRecOn with
  | _ value ih =>
    have hdigit : ∀ digit < 10, digitsNumber [digit.digitChar] = digit := by decide
    rw [Nat.toDigits_eq_if (by decide)]
    split
    · rename_i hlt
      exact hdigit value hlt
    · rw [digitsNumber_append, ih (value / 10) (by omega), hdigit _ (Nat.mod_lt _ (by decide))]
      simp only [List.length_singleton, Nat.pow_one]
      omega

theorem str_int (value : Int) : Number.str (.int value) =
    (if decide (value < 0) then ['-'] else []) ++ Nat.toDigits 10 value.natAbs := by
  cases value with
  | ofNat value => simp [Number.str, ToString.toString, Int.repr, Nat.repr]
  | negSucc value => simp [Number.str, ToString.toString, Int.repr, Nat.repr]

theorem isDigits_digitsText {digits : List (Fin 10)} (hne : digits ≠ []) :
    IsDigits (digitsText digits) := by
  refine ⟨?_, fun c hc => isDigit_of_mem_digitsText hc⟩
  intro hnil
  exact hne (List.map_eq_nil_iff.mp hnil)

end Numbers

/-- No digit of a float is printed in vain. -/
def IsShortest (x : Decimal) : Prop :=
  (x.digits = [digit 0] ∧ x.point = 1) ∨
    (x.digits.head? ≠ some (digit 0) ∧ x.digits.getLast? ≠ some (digit 0))

section Floats

variable {x : Decimal}

theorem isInteger_whole (hshortest : IsShortest x) : IsInteger x.whole := by
  refine ⟨⟨x.whole_ne_nil, fun c hc => Decimal.isDigit_of_mem_whole hc⟩, fun hhead => ?_⟩
  unfold Decimal.whole at hhead ⊢
  split
  · rfl
  · rename_i hpoint
    rw [if_neg hpoint] at hhead
    rcases hshortest with ⟨hdigits, hone⟩ | ⟨hfirst, -⟩
    · rw [hdigits, hone]
      rfl
    · obtain ⟨first, digits, hdigits⟩ := List.exists_cons_of_ne_nil x.nonempty
      obtain ⟨places, hplaces⟩ : ∃ places, x.point.toNat = places + 1 :=
        ⟨x.point.toNat - 1, by omega⟩
      rw [hdigits, hplaces] at hhead
      have hchar : ∀ digit : Fin 10, digitChar digit = '0' → digit = 0 := by decide
      have hzero := hchar first (Option.some.inj hhead)
      rw [hdigits, hzero] at hfirst
      exact absurd rfl hfirst

theorem isDigits_fraction (x : Decimal) : IsDigits x.fraction := by
  refine ⟨?_, fun c hc => Decimal.isDigit_of_mem_fraction hc⟩
  unfold Decimal.fraction
  split
  · intro hnil
    exact (isDigits_digitsText x.nonempty).1 (List.append_eq_nil_iff.mp hnil).2
  · split
    · simp
    · rename_i hlength
      apply (isDigits_digitsText ?_).1
      rw [ne_eq, List.drop_eq_nil_iff]
      exact hlength

theorem isExponent_exponentText (exponent : Int) :
    IsExponent ('e' :: Decimal.exponentText exponent) := by
  refine .inr ⟨'e', [if exponent < 0 then '-' else '+'],
    (Nat.toDigits 10 exponent.natAbs).leftpad 2 '0', .inl rfl, ?_, ⟨?_, ?_⟩, rfl⟩
  · split
    · exact .inr (.inl rfl)
    · exact .inr (.inr rfl)
  · intro hnil
    exact Nat.toDigits_ne_nil (List.append_eq_nil_iff.mp hnil).2
  · intro c hc
    rcases List.mem_append.mp hc with hc | hc
    · rw [List.eq_of_mem_replicate hc]
      decide
    · exact Nat.isDigit_of_mem_toDigits (by decide) (by decide) hc

theorem exists_parts_repr (hshortest : IsShortest x) : ∃ integer fraction exponent,
    x.repr = (if x.negative then ['-'] else []) ++ integer ++ fraction ++ exponent ∧
      IsInteger integer ∧ IsFraction fraction ∧ IsExponent exponent ∧ fraction ++ exponent ≠ [] := by
  unfold Decimal.repr Decimal.sign
  by_cases hpositional : x.isPositional
  · rw [if_pos hpositional]
    refine ⟨x.whole, '.' :: x.fraction, [], by simp, isInteger_whole hshortest,
      .inr ⟨_, isDigits_fraction x, rfl⟩, .inl rfl, by simp⟩
  · rw [if_neg hpositional]
    have hfirst : IsDigits (digitsText (x.digits.take 1)) := by
      apply isDigits_digitsText
      simp [x.nonempty]
    refine ⟨digitsText (x.digits.take 1),
      if x.digits.length ≤ 1 then [] else '.' :: digitsText (x.digits.drop 1),
      'e' :: Decimal.exponentText (x.point - 1), by simp [Decimal.scientific], ⟨hfirst, ?_⟩, ?_,
      isExponent_exponentText _, by simp⟩
    · obtain ⟨first, digits, hdigits⟩ := List.exists_cons_of_ne_nil x.nonempty
      intro hhead
      rw [hdigits] at hhead ⊢
      exact congrArg (fun c => [c]) (Option.some.inj hhead)
    · split
      · exact .inl rfl
      · rename_i hlength
        refine .inr ⟨_, isDigits_digitsText ?_, rfl⟩
        rw [ne_eq, List.drop_eq_nil_iff]
        exact hlength

end Floats

/-- What comes back when it is written and read: the names of an object differ,
numbers are those of the runtime, and containers nest at most `depth` deep. -/
inductive Readable (py : Runtime) : (depth : Nat) → Value → Prop
  | null {depth : Nat} : Readable py depth .null
  | bool {depth : Nat} {value : Bool} : Readable py depth (.bool value)
  | string {depth : Nat} {text : List Char} : Readable py depth (.string text)
  | int {depth : Nat} {value : Int} :
    (py.maxStrDigits = 0 ∨ (Nat.toDigits 10 value.natAbs).length ≤ py.maxStrDigits) →
    Readable py depth (.number (.int value))
  | finite {depth : Nat} {x : Decimal} : IsShortest x → py.toFloat x.repr = .finite x →
    Readable py depth (.number (.float (.finite x)))
  | infinity {depth : Nat} {negative : Bool} :
    Readable py depth (.number (.float (.infinity negative)))
  | nan {depth : Nat} : Readable py depth (.number (.float .nan))
  | array {depth : Nat} {items : List Value} : (∀ item ∈ items, Readable py depth item) →
    Readable py (depth + 1) (.array items)
  | object {depth : Nat} {members : Members} : (members.map Prod.fst).Nodup →
    (∀ member ∈ members, Readable py depth member.2) → Readable py (depth + 1) (.object members)

section RoundTrip

variable {py : Runtime} {depth level : Nat} {text rest : List Char} {value : Value}

/-- With fuel enough the scanner finds the value at the head of a text. -/
def Scans (py : Runtime) (depth : Nat) (text : List Char) (value : Value) (rest : List Char) : Prop :=
  ∃ need, ∀ fuel, need ≤ fuel → scanOnce py fuel depth text = .ok (value, rest)

theorem scans_of_scanScalar (hfirst : ∀ c, text.head? = some c → c ≠ '"' ∧ c ≠ '{' ∧ c ≠ '[')
    (hscalar : scanScalar py text = .ok (value, rest)) : Scans py depth text value rest := by
  refine ⟨1, fun fuel hfuel => ?_⟩
  obtain ⟨fuel, rfl⟩ := Nat.exists_eq_add_of_le' hfuel
  unfold scanOnce
  split
  · exact absurd rfl (hfirst _ rfl).1
  · exact absurd rfl (hfirst _ rfl).2.1
  · exact absurd rfl (hfirst _ rfl).2.2
  · exact hscalar

theorem find_constants (negative : Bool) {integer : List Char} (hinteger : IsInteger integer)
    (rest : List Char) : constants.find? (fun constant => constant.1.isPrefixOf
      ((if negative then ['-'] else []) ++ (integer ++ rest))) = none := by
  obtain ⟨first, digits, rfl⟩ := List.exists_cons_of_ne_nil hinteger.1.1
  obtain ⟨digit, rfl⟩ := exists_digitChar (hinteger.1.2 first (by simp))
  have hletters : ∀ digit : Fin 10, digitChar digit ≠ 'n' ∧ digitChar digit ≠ 't' ∧
      digitChar digit ≠ 'f' ∧ digitChar digit ≠ 'N' ∧ digitChar digit ≠ 'I' ∧
      digitChar digit ≠ '-' := by decide
  obtain ⟨hn, ht, hf, hN, hI, hminus⟩ := hletters digit
  cases negative with
  | false => simp [constants, hn.symm, ht.symm, hf.symm, hN.symm, hI.symm, hminus.symm]
  | true => simp [constants, hI.symm]

theorem scans_number (depth : Nat) (negative : Bool) {integer : List Char}
    (hinteger : IsInteger integer)
    (hnumber : scanNumber py ((if negative then ['-'] else []) ++ (integer ++ text)) =
      .ok (value, rest)) :
    Scans py depth ((if negative then ['-'] else []) ++ (integer ++ text)) value rest := by
  refine scans_of_scanScalar (fun c hc => ?_) ?_
  · cases negative with
    | true =>
      cases hc
      decide
    | false =>
      have hhead : (integer ++ text).head? = integer.head? :=
        List.head?_append_of_ne_nil _ hinteger.1.1
      simp only [Bool.false_eq_true, if_false, List.nil_append] at hc
      rw [hhead] at hc
      obtain ⟨digit, rfl⟩ := exists_digitChar (hinteger.1.2 c (List.mem_of_mem_head? hc))
      clear hc
      revert digit
      decide
  · unfold scanScalar
    rw [find_constants negative hinteger]
    exact hnumber

theorem scans_int {value : Int} (hrest : EndsNumeral rest) (hdigits : py.maxStrDigits = 0 ∨
      (Nat.toDigits 10 value.natAbs).length ≤ py.maxStrDigits) :
    Scans py depth (encode level (.number (.int value)) ++ rest) (.number (.int value)) rest := by
  have hparts := scanNumber_parts py (decide (value < 0)) (isInteger_toDigits value.natAbs)
    (.inl rfl) (.inl rfl) hrest
  have hlimit : ¬ (py.maxStrDigits ≠ 0 ∧
      (Nat.toDigits 10 value.natAbs).length > py.maxStrDigits) := by omega
  have hback : (if decide (value < 0) then -(value.natAbs : Int) else value.natAbs) = value := by
    split
    · rename_i hnegative
      have hlt := of_decide_eq_true hnegative
      omega
    · rename_i hnegative
      have hge := of_decide_eq_false (Bool.eq_false_iff.mpr hnegative)
      omega
  rw [List.append_nil, if_pos rfl, if_neg hlimit, digitsNumber_toDigits, hback] at hparts
  have hscans := scans_number depth _ (isInteger_toDigits value.natAbs) hparts
  rw [encode, encodeNumber, str_int, List.append_assoc]
  · exact hscans
  · simp
  · simp

theorem scans_finite {x : Decimal} (hrest : EndsNumeral rest) (hshortest : IsShortest x)
    (hfloat : py.toFloat x.repr = .finite x) :
    Scans py depth (encode level (.number (.float (.finite x))) ++ rest)
      (.number (.float (.finite x))) rest := by
  obtain ⟨integer, fraction, exponent, hrepr, hinteger, hfraction, hexponent, hfloating⟩ :=
    exists_parts_repr hshortest
  have hparts := scanNumber_parts py x.negative hinteger hfraction hexponent hrest
  rw [if_neg hfloating, ← hrepr, hfloat] at hparts
  have hscans := scans_number depth _ hinteger hparts
  rw [encode, encodeNumber, Number.str, PyFloat.str, hrepr]
  · simpa only [List.append_assoc] using hscans
  · simp
  · simp

theorem skipBlanks_newline (level : Nat) (text : List Char) :
    skipBlanks (newline level ++ text) = skipBlanks text := by
  unfold skipBlanks
  apply List.dropWhile_append_of_pos
  intro c hc
  rcases List.mem_cons.mp hc with rfl | hc
  · rfl
  · rw [List.eq_of_mem_replicate hc]
    rfl

theorem skipBlanks_cons {c : Char} (hc : isBlank c = false) (text : List Char) :
    skipBlanks (c :: text) = c :: text := by
  simp [skipBlanks, hc]

theorem exists_head_encode (level : Nat) (h : Readable py depth value) : ∃ c tail,
    encode level value = c :: tail ∧ isBlank c = false ∧ c ≠ ']' ∧ c ≠ '\uFEFF' := by
  have hnumeral : ∀ (negative : Bool) {integer : List Char}, IsInteger integer → ∀ tail,
      ∃ c rest, (if negative then ['-'] else []) ++ integer ++ tail = c :: rest ∧
        isBlank c = false ∧ c ≠ ']' ∧ c ≠ '\uFEFF' := by
    intro negative integer hinteger tail
    obtain ⟨first, digits, rfl⟩ := List.exists_cons_of_ne_nil hinteger.1.1
    obtain ⟨digit, rfl⟩ := exists_digitChar (hinteger.1.2 first (by simp))
    have hdigit : ∀ digit : Fin 10, isBlank (digitChar digit) = false ∧ digitChar digit ≠ ']' ∧
        digitChar digit ≠ '\uFEFF' := by decide
    cases negative with
    | true => exact ⟨'-', _, rfl, rfl, by decide⟩
    | false => exact ⟨_, _, rfl, hdigit digit⟩
  cases h with
  | null => exact ⟨_, _, rfl, rfl, by decide⟩
  | @bool _ value => cases value <;> exact ⟨_, _, rfl, rfl, by decide⟩
  | string => exact ⟨_, _, rfl, rfl, by decide⟩
  | @int _ value =>
    obtain ⟨c, tail, htext, hc⟩ := hnumeral (decide (value < 0)) (isInteger_toDigits value.natAbs) []
    refine ⟨c, tail, ?_, hc⟩
    rw [← htext, List.append_nil, ← str_int, encode]
    simp [encodeNumber]
  | @finite _ x hshortest =>
    obtain ⟨integer, fraction, exponent, hrepr, hinteger, -⟩ := exists_parts_repr hshortest
    obtain ⟨c, tail, htext, hc⟩ := hnumeral x.negative hinteger (fraction ++ exponent)
    refine ⟨c, tail, ?_, hc⟩
    rw [← htext, ← List.append_assoc, ← hrepr]
    rfl
  | @infinity _ negative => cases negative <;> exact ⟨_, _, rfl, rfl, by decide⟩
  | nan => exact ⟨_, _, rfl, rfl, by decide⟩
  | @array _ items => cases items <;> exact ⟨_, _, rfl, rfl, by decide⟩
  | @object _ members =>
    cases members with
    | nil => exact ⟨_, _, rfl, rfl, by decide⟩
    | cons member members => exact ⟨_, _, rfl, rfl, by decide⟩

theorem skipBlanks_encode (h : Readable py depth value) :
    skipBlanks (encode level value ++ rest) = encode level value ++ rest := by
  obtain ⟨c, tail, htext, hblank, -⟩ := exists_head_encode level h
  rw [htext, List.cons_append, skipBlanks_cons hblank]

/-- A value written as an item or a member of its container is found there. -/
def Scanned (py : Runtime) (depth : Nat) (value : Value) : Prop :=
  ∀ level rest, EndsNumeral rest → Scans py depth (encode level value ++ rest) value rest

theorem endsNumeral_newline (level : Nat) (rest : List Char) : EndsNumeral (newline level ++ rest) := by
  intro c hc
  cases hc
  decide

theorem endsNumeral_comma (rest : List Char) : EndsNumeral (',' :: rest) := by
  intro c hc
  cases hc
  decide

theorem scanItems_encodeItems (level outer : Nat) (rest : List Char) {items : List Value}
    (hitems : ∀ item ∈ items, Readable py depth item ∧ Scanned py depth item) :
    ∀ {item : Value} (done : List Value), Readable py depth item → Scanned py depth item →
      ∃ need, ∀ fuel, need ≤ fuel →
        scanItems py fuel depth done (encode level item ++ (encodeItems level items ++
          (newline outer ++ ']' :: rest))) = .ok (.array (done ++ item :: items), rest) := by
  induction items with
  | nil =>
    intro item done hread hscan
    obtain ⟨need, hneed⟩ := hscan level (newline outer ++ ']' :: rest) (endsNumeral_newline _ _)
    refine ⟨need + 1, fun fuel hfuel => ?_⟩
    obtain ⟨fuel, rfl⟩ := Nat.exists_eq_add_of_le' (Nat.le_of_add_left_le hfuel)
    rw [scanItems, encodeItems, List.nil_append, hneed fuel (by omega)]
    simp only [skipBlanks_newline, skipBlanks_cons (show isBlank ']' = false from rfl)]
  | cons next items ih =>
    intro item done hread hscan
    obtain ⟨hnextRead, hnextScan⟩ := hitems next (by simp)
    obtain ⟨need, hneed⟩ := hscan level (encodeItems level (next :: items) ++
      (newline outer ++ ']' :: rest)) (endsNumeral_comma _)
    obtain ⟨needRest, hneedRest⟩ := ih (fun other hother =>
      hitems other (List.mem_cons_of_mem _ hother)) (done ++ [item]) hnextRead hnextScan
    refine ⟨max need needRest + 1, fun fuel hfuel => ?_⟩
    obtain ⟨fuel, rfl⟩ := Nat.exists_eq_add_of_le' (Nat.le_of_add_left_le hfuel)
    rw [scanItems, hneed fuel (by omega)]
    simp only [encodeItems, List.cons_append, List.append_assoc,
      skipBlanks_cons (show isBlank ',' = false from rfl), skipBlanks_newline,
      skipBlanks_encode hnextRead]
    rw [hneedRest fuel (by omega), List.append_assoc, List.singleton_append]

theorem setItem_of_not_mem {key : List Char} {members : Members}
    (hkey : key ∉ members.map Prod.fst) : setItem key value members = members ++ [(key, value)] := by
  induction members with
  | nil => rfl
  | cons member members ih =>
    obtain ⟨other, old⟩ := member
    rw [List.map_cons, List.mem_cons, not_or] at hkey
    rw [setItem, if_neg (Ne.symm hkey.1), ih hkey.2]
    rfl

theorem not_mem_of_nodup {key : List Char} {done members : Members}
    (hnodup : ((done ++ (key, value) :: members).map Prod.fst).Nodup) : key ∉ done.map Prod.fst := by
  rw [List.map_append] at hnodup
  intro hmem
  exact (List.nodup_append.mp hnodup).2.2 key hmem key (by simp) rfl

theorem scanMembers_quote (fuel : Nat) (members : Members) (text : List Char) :
    scanMembers py (fuel + 1) depth members ('"' :: text) =
      match scanString text with
      | .error raised => .error raised
      | .ok (key, rest) =>
        match skipBlanks rest with
        | ':' :: rest =>
          match scanOnce py fuel depth (skipBlanks rest) with
          | .error raised => .error raised
          | .ok (value, rest) =>
            match skipBlanks rest with
            | '}' :: rest => .ok (.object (setItem key value members), rest)
            | ',' :: rest =>
              scanMembers py fuel depth (setItem key value members) (skipBlanks rest)
            | _ => .error .jsonDecodeError
        | _ => .error .jsonDecodeError := rfl

theorem scanMembers_encodeMembers (level outer : Nat) (rest : List Char) {members : Members}
    (hmembers : ∀ member ∈ members, Readable py depth member.2 ∧ Scanned py depth member.2) :
    ∀ {key : List Char} {value : Value} (done : Members),
      ((done ++ (key, value) :: members).map Prod.fst).Nodup →
      Readable py depth value → Scanned py depth value →
      ∃ need, ∀ fuel, need ≤ fuel →
        scanMembers py fuel depth done (encodeString key ++ (':' :: ' ' :: (encode level value ++
          (encodeMembers level members ++ (newline outer ++ '}' :: rest))))) =
            .ok (.object (done ++ (key, value) :: members), rest) := by
  induction members with
  | nil =>
    intro key value done hnodup hread hscan
    have hkey := not_mem_of_nodup hnodup
    obtain ⟨need, hneed⟩ := hscan level (newline outer ++ '}' :: rest) (endsNumeral_newline _ _)
    refine ⟨need + 1, fun fuel hfuel => ?_⟩
    obtain ⟨fuel, rfl⟩ := Nat.exists_eq_add_of_le' (Nat.le_of_add_left_le hfuel)
    have hblank : skipBlanks (' ' :: (encode level value ++ (newline outer ++ '}' :: rest))) =
        encode level value ++ (newline outer ++ '}' :: rest) := skipBlanks_encode hread
    rw [encodeString]
    simp only [List.cons_append, List.append_assoc, List.nil_append, encodeMembers,
      scanMembers_quote, scanString_encodeString, hblank, hneed fuel (by omega),
      skipBlanks_cons (show isBlank ':' = false from rfl), skipBlanks_newline,
      skipBlanks_cons (show isBlank '}' = false from rfl), setItem_of_not_mem hkey]
  | cons next members ih =>
    intro key value done hnodup hread hscan
    obtain ⟨nextKey, nextValue⟩ := next
    obtain ⟨hnextRead, hnextScan⟩ := hmembers (nextKey, nextValue) (by simp)
    have hkey := not_mem_of_nodup hnodup
    have hnodupNext : ((done ++ [(key, value)] ++ (nextKey, nextValue) :: members).map
        Prod.fst).Nodup := by
      rw [List.append_assoc, List.singleton_append]
      exact hnodup
    obtain ⟨need, hneed⟩ := hscan level (encodeMembers level ((nextKey, nextValue) :: members) ++
      (newline outer ++ '}' :: rest)) (endsNumeral_comma _)
    obtain ⟨needRest, hneedRest⟩ := ih (fun other hother =>
      hmembers other (List.mem_cons_of_mem _ hother)) (done ++ [(key, value)]) hnodupNext
        hnextRead hnextScan
    refine ⟨max need needRest + 1, fun fuel hfuel => ?_⟩
    obtain ⟨fuel, rfl⟩ := Nat.exists_eq_add_of_le' (Nat.le_of_add_left_le hfuel)
    have hblank : skipBlanks (' ' :: (encode level value ++
        (encodeMembers level ((nextKey, nextValue) :: members) ++ (newline outer ++ '}' :: rest)))) =
        encode level value ++ (encodeMembers level ((nextKey, nextValue) :: members) ++
          (newline outer ++ '}' :: rest)) := skipBlanks_encode hread
    have hquote : ∀ tail, skipBlanks (encodeString nextKey ++ tail) = encodeString nextKey ++ tail :=
      fun tail => skipBlanks_cons rfl _
    rw [encodeString]
    simp only [List.cons_append, List.append_assoc, List.nil_append, scanMembers_quote,
      scanString_encodeString, skipBlanks_cons (show isBlank ':' = false from rfl), hblank,
      hneed fuel (by omega), setItem_of_not_mem hkey]
    simp only [encodeMembers, List.cons_append, List.append_assoc, List.nil_append,
      skipBlanks_cons (show isBlank ',' = false from rfl), skipBlanks_newline, hquote]
    rw [hneedRest fuel (by omega), List.append_assoc, List.singleton_append]

theorem scanned_string (text : List Char) : Scanned py depth (.string text) := by
  intro level rest _
  refine ⟨1, fun fuel hfuel => ?_⟩
  obtain ⟨fuel, rfl⟩ := Nat.exists_eq_add_of_le' hfuel
  rw [encode, encodeString, List.cons_append, scanOnce_quote, List.append_assoc,
    List.singleton_append, scanString_encodeString]
  rfl

theorem scanned_array {items : List Value}
    (hitems : ∀ item ∈ items, Readable py depth item ∧ Scanned py depth item) :
    Scanned py (depth + 1) (.array items) := by
  intro level rest _
  cases items with
  | nil =>
    refine ⟨1, fun fuel hfuel => ?_⟩
    obtain ⟨fuel, rfl⟩ := Nat.exists_eq_add_of_le' hfuel
    rfl
  | cons item items =>
    obtain ⟨⟨hread, hscan⟩, hrest⟩ := List.forall_mem_cons.mp hitems
    obtain ⟨need, hneed⟩ := scanItems_encodeItems (level + 1) level rest hrest [] hread hscan
    refine ⟨need + 1, fun fuel hfuel => ?_⟩
    obtain ⟨fuel, rfl⟩ := Nat.exists_eq_add_of_le' (Nat.le_of_add_left_le hfuel)
    obtain ⟨c, tail, htext, hblank, hclose, -⟩ := exists_head_encode (level + 1) hread
    have hstart : ∀ rest, skipBlanks (newline (level + 1) ++ (encode (level + 1) item ++ rest)) =
        encode (level + 1) item ++ rest := by
      intro rest
      rw [skipBlanks_newline, skipBlanks_encode hread]
    have hitem := hneed fuel (by omega)
    rw [encode]
    simp only [List.cons_append, List.append_assoc, List.nil_append, scanOnce_bracket, hstart]
    split
    · rename_i hbracket
      rw [htext, List.cons_append] at hbracket
      cases hbracket
      exact absurd rfl hclose
    · exact hitem

theorem scanned_object {members : Members} (hnodup : (members.map Prod.fst).Nodup)
    (hmembers : ∀ member ∈ members, Readable py depth member.2 ∧ Scanned py depth member.2) :
    Scanned py (depth + 1) (.object members) := by
  intro level rest _
  cases members with
  | nil =>
    refine ⟨1, fun fuel hfuel => ?_⟩
    obtain ⟨fuel, rfl⟩ := Nat.exists_eq_add_of_le' hfuel
    rfl
  | cons member members =>
    obtain ⟨key, value⟩ := member
    obtain ⟨⟨hread, hscan⟩, hrest⟩ := List.forall_mem_cons.mp hmembers
    obtain ⟨need, hneed⟩ :=
      scanMembers_encodeMembers (level + 1) level rest hrest [] hnodup hread hscan
    refine ⟨need + 1, fun fuel hfuel => ?_⟩
    obtain ⟨fuel, rfl⟩ := Nat.exists_eq_add_of_le' (Nat.le_of_add_left_le hfuel)
    have hquote : ∀ tail, skipBlanks (newline (level + 1) ++ (encodeString key ++ tail)) =
        encodeString key ++ tail := by
      intro tail
      rw [skipBlanks_newline]
      exact skipBlanks_cons rfl _
    have hmember := hneed fuel (by omega)
    rw [encode]
    simp only [List.cons_append, List.append_assoc, List.nil_append, scanOnce_brace, hquote]
    exact hmember

/-- Induction over the value: a container is read when its parts are. -/
theorem scanned_of_readable (h : Readable py depth value) : Scanned py depth value := by
  induction h with
  | null =>
    intro level rest _
    exact scans_of_scanScalar (by simp [encode]) rfl
  | @bool _ value =>
    intro level rest _
    cases value <;> exact scans_of_scanScalar (by simp [encode]) rfl
  | @string _ text => exact scanned_string text
  | int hdigits =>
    intro level rest hrest
    exact scans_int hrest hdigits
  | finite hshortest hfloat =>
    intro level rest hrest
    exact scans_finite hrest hshortest hfloat
  | @infinity _ negative =>
    intro level rest _
    cases negative <;> exact scans_of_scanScalar (by simp [encode, encodeNumber]) rfl
  | nan =>
    intro level rest _
    exact scans_of_scanScalar (by simp [encode, encodeNumber]) rfl
  | array hitems ih => exact scanned_array fun item hitem => ⟨hitems item hitem, ih item hitem⟩
  | object hnodup hmembers ih =>
    exact scanned_object hnodup fun member hmember => ⟨hmembers member hmember, ih member hmember⟩

theorem loads_dumps (h : Readable py py.recursionLimit value) : loads py (dumps value) = .ok value := by
  obtain ⟨need, hneed⟩ := scanned_of_readable h 0 [] (by simp [EndsNumeral])
  obtain ⟨c, tail, htext, hblank, -, hmark⟩ := exists_head_encode 0 h
  have hscan := hneed (2 * (encode 0 value ++ []).length + need) (Nat.le_add_left _ _)
  rw [scan_fuel, List.append_nil] at hscan
  have hskip : skipBlanks (dumps value) = dumps value := by
    rw [dumps, htext, skipBlanks_cons hblank]
  unfold loads
  split
  · rename_i hdumps
    rw [dumps, htext] at hdumps
    cases hdumps
    exact absurd rfl hmark
  · rw [hskip, dumps, hscan]
    rfl

end RoundTrip
end VacuumCleaner.Lib.Json
