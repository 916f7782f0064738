import VacuumCleaner.Lib.JsonEncoder

/-! `json.dumps` without an indent: a value on one line, that `json.loads` reads
back. -/
namespace VacuumCleaner.Lib.Json

open Hex Numeral

mutual

/-- `json.dumps(value)`. -/
def dumpsLine : Value → List Char
  | .null => ['n', 'u', 'l', 'l']
  | .bool true => ['t', 'r', 'u', 'e']
  | .bool false => ['f', 'a', 'l', 's', 'e']
  | .number number => encodeNumber number
  | .string text => encodeString text
  | .array [] => ['[', ']']
  | .array (item :: items) => '[' :: (dumpsLine item ++ lineItems items ++ [']'])
  | .object [] => ['{', '}']
  | .object ((key, value) :: members) =>
    '{' :: (encodeString key ++ [':', ' '] ++ dumpsLine value ++ lineMembers members ++ ['}'])

/-- The items behind the first. -/
def lineItems : List Value → List Char
  | [] => []
  | item :: items => ',' :: ' ' :: (dumpsLine item ++ lineItems items)

def lineMembers : Members → List Char
  | [] => []
  | (key, value) :: members =>
    ',' :: ' ' :: (encodeString key ++ [':', ' '] ++ dumpsLine value ++ lineMembers members)

end

section RoundTrip

variable {py : Runtime} {depth : Nat} {rest : List Char} {value : Value}

theorem exists_head_dumpsLine (h : Readable py depth value) : ∃ c tail,
    dumpsLine value = c :: tail ∧ isBlank c = false ∧ c ≠ ']' ∧ c ≠ '\uFEFF' := by
  have hsame : (dumpsLine value).head? = (encode 0 value).head? := by
    match value with
    | .null | .number _ | .string _ => rw [dumpsLine, encode]
    | .bool true | .bool false => rfl
    | .array [] | .object [] => rfl
    | .array (_ :: _) | .object (_ :: _) => rfl
  obtain ⟨c, tail, htext, hc⟩ := exists_head_encode 0 h
  rw [htext] at hsame
  obtain ⟨rest, hrest⟩ := List.head?_eq_some_iff.mp hsame
  exact ⟨c, rest, hrest, hc⟩

theorem skipBlanks_dumpsLine (h : Readable py depth value) :
    skipBlanks (' ' :: (dumpsLine value ++ rest)) = dumpsLine value ++ rest := by
  obtain ⟨c, tail, htext, hblank, -⟩ := exists_head_dumpsLine h
  rw [htext, List.cons_append]
  exact skipBlanks_cons hblank (tail ++ rest)

/-- A value written on one line with others is found there. -/
def ScannedLine (py : Runtime) (depth : Nat) (value : Value) : Prop :=
  ∀ rest, EndsNumeral rest → Scans py depth (dumpsLine value ++ rest) value rest

theorem endsNumeral_bracket (rest : List Char) : EndsNumeral (']' :: rest) := by
  intro c hc
  cases hc
  decide

theorem endsNumeral_brace (rest : List Char) : EndsNumeral ('}' :: rest) := by
  intro c hc
  cases hc
  decide

theorem scanItems_lineItems (rest : List Char) {items : List Value}
    (hitems : ∀ item ∈ items, Readable py depth item ∧ ScannedLine py depth item) :
    ∀ {item : Value} (done : List Value), ScannedLine py depth item →
      ∃ need, ∀ fuel, need ≤ fuel →
        scanItems py fuel depth done (dumpsLine item ++ (lineItems items ++ ']' :: rest)) =
          .ok (.array (done ++ item :: items), rest) := by
  induction items with
  | nil =>
    intro item done hscan
    obtain ⟨need, hneed⟩ := hscan (']' :: rest) (endsNumeral_bracket _)
    refine ⟨need + 1, fun fuel hfuel => ?_⟩
    obtain ⟨fuel, rfl⟩ := Nat.exists_eq_add_of_le' (Nat.le_of_add_left_le hfuel)
    rw [scanItems, lineItems, List.nil_append, hneed fuel (by omega)]
    simp only [skipBlanks_cons (show isBlank ']' = false from rfl)]
  | cons next items ih =>
    intro item done hscan
    obtain ⟨hnextRead, hnextScan⟩ := hitems next (by simp)
    obtain ⟨need, hneed⟩ := hscan (lineItems (next :: items) ++ ']' :: rest) (endsNumeral_comma _)
    obtain ⟨needRest, hneedRest⟩ := ih (fun other hother =>
      hitems other (List.mem_cons_of_mem _ hother)) (done ++ [item]) hnextScan
    refine ⟨max need needRest + 1, fun fuel hfuel => ?_⟩
    obtain ⟨fuel, rfl⟩ := Nat.exists_eq_add_of_le' (Nat.le_of_add_left_le hfuel)
    rw [scanItems, hneed fuel (by omega)]
    simp only [lineItems, List.cons_append, List.append_assoc,
      skipBlanks_cons (show isBlank ',' = false from rfl), skipBlanks_dumpsLine hnextRead]
    rw [hneedRest fuel (by omega), List.append_assoc, List.singleton_append]

theorem scanMembers_lineMembers (rest : List Char) {members : Members}
    (hmembers : ∀ member ∈ members, Readable py depth member.2 ∧ ScannedLine py depth member.2) :
    ∀ {key : List Char} {value : Value} (done : Members),
      ((done ++ (key, value) :: members).map Prod.fst).Nodup →
      Readable py depth value → ScannedLine py depth value →
      ∃ need, ∀ fuel, need ≤ fuel →
        scanMembers py fuel depth done (encodeString key ++ (':' :: ' ' :: (dumpsLine value ++
          (lineMembers members ++ '}' :: rest)))) =
            .ok (.object (done ++ (key, value) :: members), rest) := by
  induction members with
  | nil =>
    intro key value done hnodup hread hscan
    have hkey := not_mem_of_nodup hnodup
    obtain ⟨need, hneed⟩ := hscan ('}' :: rest) (endsNumeral_brace _)
    refine ⟨need + 1, fun fuel hfuel => ?_⟩
    obtain ⟨fuel, rfl⟩ := Nat.exists_eq_add_of_le' (Nat.le_of_add_left_le hfuel)
    rw [encodeString]
    simp only [List.cons_append, List.append_assoc, List.nil_append, lineMembers,
      scanMembers_quote, scanString_encodeString, skipBlanks_dumpsLine hread,
      hneed fuel (by omega), skipBlanks_cons (show isBlank ':' = false from rfl),
      skipBlanks_cons (show isBlank '}' = false from rfl), setItem_of_not_mem hkey]
  | cons next members ih =>
    intro key value done hnodup hread hscan
    obtain ⟨nextKey, nextValue⟩ := next
    obtain ⟨hnextRead, hnextScan⟩ := hmembers (nextKey, nextValue) (by simp)
    have hkey := not_mem_of_nodup hnodup
    have hnodupNext : ((done ++ [(key, value)] ++ (nextKey, nextValue) :: members).map
        Prod.fst).Nodup := by
      rw [List.append_assoc, List.singleton_append]
      exact hnodup
    obtain ⟨need, hneed⟩ := hscan (lineMembers ((nextKey, nextValue) :: members) ++ '}' :: rest)
      (endsNumeral_comma _)
    obtain ⟨needRest, hneedRest⟩ := ih (fun other hother =>
      hmembers other (List.mem_cons_of_mem _ hother)) (done ++ [(key, value)]) hnodupNext
        hnextRead hnextScan
    refine ⟨max need needRest + 1, fun fuel hfuel => ?_⟩
    obtain ⟨fuel, rfl⟩ := Nat.exists_eq_add_of_le' (Nat.le_of_add_left_le hfuel)
    have hquote : ∀ tail, skipBlanks (' ' :: (encodeString nextKey ++ tail)) =
        encodeString nextKey ++ tail := by
      intro tail
      change skipBlanks (encodeString nextKey ++ tail) = _
      exact skipBlanks_cons rfl _
    rw [encodeString]
    simp only [List.cons_append, List.append_assoc, List.nil_append, scanMembers_quote,
      scanString_encodeString, skipBlanks_cons (show isBlank ':' = false from rfl),
      skipBlanks_dumpsLine hread, hneed fuel (by omega), setItem_of_not_mem hkey]
    simp only [lineMembers, List.cons_append, List.append_assoc, List.nil_append,
      skipBlanks_cons (show isBlank ',' = false from rfl), hquote]
    rw [hneedRest fuel (by omega), List.append_assoc, List.singleton_append]

theorem scannedLine_array {items : List Value}
    (hitems : ∀ item ∈ items, Readable py depth item ∧ ScannedLine py depth item) :
    ScannedLine py (depth + 1) (.array items) := by
  intro rest _
  cases items with
  | nil =>
    refine ⟨1, fun fuel hfuel => ?_⟩
    obtain ⟨fuel, rfl⟩ := Nat.exists_eq_add_of_le' hfuel
    rfl
  | cons item items =>
    obtain ⟨⟨hread, hscan⟩, hrest⟩ := List.forall_mem_cons.mp hitems
    obtain ⟨need, hneed⟩ := scanItems_lineItems rest hrest [] hscan
    refine ⟨need + 1, fun fuel hfuel => ?_⟩
    obtain ⟨fuel, rfl⟩ := Nat.exists_eq_add_of_le' (Nat.le_of_add_left_le hfuel)
    obtain ⟨c, tail, htext, hblank, hclose, -⟩ := exists_head_dumpsLine hread
    have hstart : ∀ rest, skipBlanks (dumpsLine item ++ rest) = dumpsLine item ++ rest := by
      intro rest
      rw [htext]
      exact skipBlanks_cons hblank _
    have hitem := hneed fuel (by omega)
    rw [dumpsLine]
    simp only [List.cons_append, List.append_assoc, List.nil_append, scanOnce_bracket, hstart]
    split
    · rename_i hbracket
      rw [htext, List.cons_append] at hbracket
      cases hbracket
      exact absurd rfl hclose
    · exact hitem

theorem scannedLine_object {members : Members} (hnodup : (members.map Prod.fst).Nodup)
    (hmembers : ∀ member ∈ members, Readable py depth member.2 ∧ ScannedLine py depth member.2) :
    ScannedLine py (depth + 1) (.object members) := by
  intro rest _
  cases members with
  | nil =>
    refine ⟨1, fun fuel hfuel => ?_⟩
    obtain ⟨fuel, rfl⟩ := Nat.exists_eq_add_of_le' hfuel
    rfl
  | cons member members =>
    obtain ⟨key, value⟩ := member
    obtain ⟨⟨hread, hscan⟩, hrest⟩ := List.forall_mem_cons.mp hmembers
    obtain ⟨need, hneed⟩ := scanMembers_lineMembers rest hrest [] hnodup hread hscan
    refine ⟨need + 1, fun fuel hfuel => ?_⟩
    obtain ⟨fuel, rfl⟩ := Nat.exists_eq_add_of_le' (Nat.le_of_add_left_le hfuel)
    have hquote : ∀ tail, skipBlanks (encodeString key ++ tail) = encodeString key ++ tail :=
      fun tail => skipBlanks_cons rfl _
    have hmember := hneed fuel (by omega)
    rw [dumpsLine]
    simp only [List.cons_append, List.append_assoc, List.nil_append, scanOnce_brace, hquote]
    exact hmember

theorem scannedLine_of_readable (h : Readable py depth value) : ScannedLine py depth value := by
  have hscalar : ∀ {depth : Nat} {value : Value}, Readable py depth value →
      dumpsLine value = encode 0 value → ScannedLine py depth value := by
    intro depth value hread htext rest hrest
    rw [htext]
    exact scanned_of_readable hread 0 rest hrest
  induction h with
  | null => exact hscalar .null rfl
  | @bool _ value => exact hscalar .bool (by cases value <;> rfl)
  | string => exact hscalar .string (by rw [dumpsLine, encode])
  | int hdigits => exact hscalar (.int hdigits) (by rw [dumpsLine, encode])
  | finite hshortest hfloat => exact hscalar (.finite hshortest hfloat) (by rw [dumpsLine, encode])
  | infinity => exact hscalar .infinity (by rw [dumpsLine, encode])
  | nan => exact hscalar .nan (by rw [dumpsLine, encode])
  | array hitems ih => exact scannedLine_array fun item hitem => ⟨hitems item hitem, ih item hitem⟩
  | object hnodup hmembers ih =>
    exact scannedLine_object hnodup fun member hmember =>
      ⟨hmembers member hmember, ih member hmember⟩

theorem loads_dumpsLine_append (h : Readable py py.recursionLimit value)
    (hends : EndsNumeral rest) (hblank : skipBlanks rest = []) :
    loads py (dumpsLine value ++ rest) = .ok value := by
  obtain ⟨need, hneed⟩ := scannedLine_of_readable h rest hends
  obtain ⟨c, tail, htext, hnonblank, -, hmark⟩ := exists_head_dumpsLine h
  have hscan := hneed (2 * (dumpsLine value ++ rest).length + need) (Nat.le_add_left _ _)
  rw [scan_fuel] at hscan
  have hskip : skipBlanks (dumpsLine value ++ rest) = dumpsLine value ++ rest := by
    rw [htext, List.cons_append, skipBlanks_cons hnonblank]
  unfold loads
  split
  · rename_i hdumps
    rw [htext] at hdumps
    cases hdumps
    exact absurd rfl hmark
  · rw [hskip, hscan]
    exact if_pos hblank

theorem loads_dumpsLine (h : Readable py py.recursionLimit value) :
    loads py (dumpsLine value) = .ok value := by
  have hends : EndsNumeral [] := by simp [EndsNumeral]
  have hread := loads_dumpsLine_append h hends rfl
  rwa [List.append_nil] at hread

end RoundTrip

section AsciiText

variable {py : Runtime} {depth : Nat} {value : Value} {text : List Char}

/-- ASCII without its control characters. -/
def IsPrintable (c : Char) : Prop := 0x20 ≤ c.toNat ∧ c.toNat < 0x7F

instance (c : Char) : Decidable (IsPrintable c) := inferInstanceAs (Decidable (_ ∧ _))

def AsciiText (text : List Char) : Prop := ∀ c ∈ text, IsPrintable c

instance : DecidablePred AsciiText := fun text => List.decidableBAll IsPrintable text

@[simp] theorem printable_nil : AsciiText [] := by simp [AsciiText]

@[simp] theorem printable_cons {c : Char} :
    AsciiText (c :: text) ↔ IsPrintable c ∧ AsciiText text := List.forall_mem_cons

@[simp] theorem printable_append {front back : List Char} :
    AsciiText (front ++ back) ↔ AsciiText front ∧ AsciiText back := List.forall_mem_append

theorem IsDigits.printable (h : IsDigits text) : AsciiText text := by
  intro c hc
  obtain ⟨digit, rfl⟩ := exists_digitChar (h.2 c hc)
  clear hc
  revert digit
  decide

theorem IsFraction.printable (h : IsFraction text) : AsciiText text := by
  rcases h with rfl | ⟨digits, hdigits, rfl⟩
  · exact printable_nil
  · exact printable_cons.mpr ⟨by decide, hdigits.printable⟩

theorem IsExponent.printable (h : IsExponent text) : AsciiText text := by
  rcases h with rfl | ⟨e, sign, digits, he, hsign, hdigits, rfl⟩
  · exact printable_nil
  · refine printable_cons.mpr ⟨?_, printable_append.mpr ⟨?_, hdigits.printable⟩⟩
    · rcases he with rfl | rfl <;> decide
    · rcases hsign with rfl | rfl | rfl <;> decide

theorem printable_minus (negative : Bool) : AsciiText (if negative then ['-'] else []) := by
  cases negative <;> decide

theorem printable_unicodeEscape (code : Nat) : AsciiText (unicodeEscape code) := by
  have hdigit : ∀ digit < 16, IsPrintable (Nat.digitChar digit) := by decide
  refine printable_cons.mpr ⟨by decide, printable_cons.mpr ⟨by decide, fun c hc => ?_⟩⟩
  obtain ⟨digit, hlt, rfl⟩ := exists_digit_of_mem_hexPadded hc
  exact hdigit digit hlt

theorem printable_escapeChar (c : Char) : AsciiText (escapeChar c) := by
  unfold escapeChar
  split
  iterate 7 decide
  · split
    · rename_i hprintable
      exact printable_cons.mpr ⟨hprintable, printable_nil⟩
    · exact List.forall_mem_flatMap.mpr fun code _ => printable_unicodeEscape code

theorem printable_encodeString (text : List Char) : AsciiText (encodeString text) := by
  refine printable_cons.mpr ⟨by decide, printable_append.mpr ⟨?_, by decide⟩⟩
  exact List.forall_mem_flatMap.mpr fun c _ => printable_escapeChar c

theorem printable_lineItems {items : List Value}
    (hitems : ∀ item ∈ items, AsciiText (dumpsLine item)) : AsciiText (lineItems items) := by
  induction items with
  | nil => exact printable_nil
  | cons item items ih =>
    obtain ⟨hitem, hrest⟩ := List.forall_mem_cons.mp hitems
    simp only [lineItems, printable_cons, printable_append]
    exact ⟨by decide, by decide, hitem, ih hrest⟩

theorem printable_lineMembers {members : Members}
    (hmembers : ∀ member ∈ members, AsciiText (dumpsLine member.2)) :
    AsciiText (lineMembers members) := by
  induction members with
  | nil => exact printable_nil
  | cons member members ih =>
    obtain ⟨hmember, hrest⟩ := List.forall_mem_cons.mp hmembers
    simp only [lineMembers, printable_cons, printable_append]
    exact ⟨by decide, by decide, ⟨⟨printable_encodeString _, by decide⟩, hmember⟩, ih hrest⟩

theorem printable_dumpsLine (h : Readable py depth value) : AsciiText (dumpsLine value) := by
  induction h with
  | null => decide
  | @bool _ value => cases value <;> decide
  | string => exact printable_encodeString _
  | @int _ value =>
    rw [dumpsLine, encodeNumber, str_int]
    · exact printable_append.mpr
        ⟨printable_minus _, (isInteger_toDigits value.natAbs).1.printable⟩
    · simp
    · simp
  | @finite _ x hshortest =>
    obtain ⟨integer, fraction, exponent, hrepr, hinteger, hfraction, hexponent, -⟩ :=
      exists_parts_repr hshortest
    rw [dumpsLine, encodeNumber, Number.str, PyFloat.str, hrepr]
    · simpa using ⟨printable_minus x.negative, hinteger.1.printable, hfraction.printable,
        hexponent.printable⟩
    · simp
    · simp
  | @infinity _ negative => cases negative <;> decide
  | nan => decide
  | @array _ items _ ih =>
    cases items with
    | nil => decide
    | cons item items =>
      obtain ⟨hitem, hrest⟩ := List.forall_mem_cons.mp ih
      simp only [dumpsLine, printable_cons, printable_append, printable_nil, and_true]
      exact ⟨by decide, ⟨hitem, printable_lineItems hrest⟩, by decide⟩
  | @object _ members _ _ ih =>
    cases members with
    | nil => decide
    | cons member members =>
      obtain ⟨hmember, hrest⟩ := List.forall_mem_cons.mp ih
      simp only [dumpsLine, printable_cons, printable_append, printable_nil, and_true]
      exact ⟨by decide, ⟨⟨⟨printable_encodeString _, by decide⟩, hmember⟩,
        printable_lineMembers hrest⟩, by decide⟩

end AsciiText
end VacuumCleaner.Lib.Json
