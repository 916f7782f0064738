import VacuumCleaner.Lib.JsonEncoder

/-! What `json.loads` accepts: a value that can be written and read again, and
no document whose end was cut off. -/
namespace VacuumCleaner.Lib.Json

open Hex Numeral

/-- `repr` prints a float with the fewest digits that read as that float. -/
structure Runtime.Exact (py : Runtime) : Prop where
  shortest : ∀ {numeral : List Char} {x : Decimal}, py.toFloat numeral = .finite x → IsShortest x
  reads : ∀ {numeral : List Char} {x : Decimal}, py.toFloat numeral = .finite x →
    py.toFloat x.repr = .finite x

section Numerals

variable {py : Runtime} {text rest : List Char} {value : Value}

theorem takePart_eq (head body text : List Char) :
    takePart head body text = ([], text) ∨ ∃ digits rest, IsDigits digits ∧
      body = digits ++ rest ∧ takePart head body text = (head ++ digits, rest) := by
  unfold takePart
  split
  · exact .inl rfl
  · rename_i hdigits
    refine .inr ⟨body.takeWhile Char.isDigit, body.dropWhile Char.isDigit, ⟨hdigits, ?_⟩,
      List.takeWhile_append_dropWhile.symm, rfl⟩
    exact fun c hc => List.mem_takeWhile_imp hc

theorem takeMinus_eq (text : List Char) : ∃ (negative : Bool) (rest : List Char),
    text = (if negative then ['-'] else []) ++ rest ∧
      takeMinus text = (if negative then ['-'] else [], rest) := by
  unfold takeMinus
  split
  · exact ⟨true, _, rfl, rfl⟩
  · exact ⟨false, _, rfl, rfl⟩

theorem takeInteger_eq (text : List Char) : ∃ integer rest, text = integer ++ rest ∧
    takeInteger text = (integer, rest) ∧ (integer ≠ [] → IsInteger integer) := by
  unfold takeInteger
  split
  · refine ⟨['0'], _, rfl, rfl, fun _ => ⟨⟨by simp, ?_⟩, fun _ => rfl⟩⟩
    intro c hc
    rw [List.mem_singleton.mp hc]
    decide
  · rename_i hzero
    refine ⟨_, _, List.takeWhile_append_dropWhile.symm, rfl, fun hne => ⟨⟨hne, ?_⟩, ?_⟩⟩
    · exact fun c hc => List.mem_takeWhile_imp hc
    · intro hhead
      obtain ⟨digits, hdigits⟩ := List.head?_eq_some_iff.mp hhead
      have htext := List.takeWhile_append_dropWhile (p := Char.isDigit) (l := text)
      rw [hdigits] at htext
      exact absurd htext.symm (hzero _)

theorem takeFractionPart_eq (text : List Char) : ∃ fraction rest, text = fraction ++ rest ∧
    takeFractionPart text = (fraction, rest) ∧ IsFraction fraction := by
  unfold takeFractionPart
  split
  · rename_i body
    rcases takePart_eq ['.'] body ('.' :: body) with hnone | ⟨digits, rest, hdigits, hbody, hpart⟩
    · exact ⟨[], _, rfl, hnone, .inl rfl⟩
    · refine ⟨'.' :: digits, rest, ?_, hpart, .inr ⟨digits, hdigits, rfl⟩⟩
      rw [hbody, List.cons_append]
  · exact ⟨[], _, rfl, rfl, .inl rfl⟩

theorem takeExponentPart_eq (text : List Char) : ∃ exponent rest, text = exponent ++ rest ∧
    takeExponentPart text = (exponent, rest) ∧ IsExponent exponent := by
  have hpart : ∀ (e : Char) (sign body : List Char), (e = 'e' ∨ e = 'E') →
      (sign = [] ∨ sign = ['-'] ∨ sign = ['+']) → ∃ exponent rest,
        e :: (sign ++ body) = exponent ++ rest ∧
          takePart (e :: sign) body (e :: (sign ++ body)) = (exponent, rest) ∧
            IsExponent exponent := by
    intro e sign body he hsign
    rcases takePart_eq (e :: sign) body (e :: (sign ++ body)) with
      hnone | ⟨digits, rest, hdigits, hbody, hpart⟩
    · exact ⟨[], _, rfl, hnone, .inl rfl⟩
    · refine ⟨e :: (sign ++ digits), rest, ?_, hpart, .inr ⟨e, sign, digits, he, hsign, hdigits, rfl⟩⟩
      rw [hbody, List.cons_append, List.append_assoc]
  have hnone : ∀ text : List Char, ∃ exponent rest, text = exponent ++ rest ∧
      (([], text) : List Char × List Char) = (exponent, rest) ∧ IsExponent exponent :=
    fun text => ⟨[], text, rfl, rfl, .inl rfl⟩
  unfold takeExponentPart
  split
  · split
    · exact hpart _ ['-'] _ ‹_› (by simp)
    · exact hnone _
  · split
    · exact hpart _ ['+'] _ ‹_› (by simp)
    · exact hnone _
  · split
    · exact hpart _ [] _ ‹_› (by simp)
    · exact hnone _
  · exact hnone _

theorem exists_parts (h : scanNumber py text = .ok (value, rest)) :
    ∃ (negative : Bool) (integer fraction exponent : List Char),
      text = (if negative then ['-'] else []) ++ (integer ++ (fraction ++ (exponent ++ rest))) ∧
        IsInteger integer ∧ IsFraction fraction ∧ IsExponent exponent := by
  obtain ⟨negative, afterMinus, htext, hminus⟩ := takeMinus_eq text
  obtain ⟨integer, afterInteger, hafterMinus, hinteger, hisInteger⟩ := takeInteger_eq afterMinus
  obtain ⟨fraction, afterFraction, hafterInteger, hfraction, hisFraction⟩ :=
    takeFractionPart_eq afterInteger
  obtain ⟨exponent, afterExponent, hafterFraction, hexponent, hisExponent⟩ :=
    takeExponentPart_eq afterFraction
  unfold scanNumber at h
  simp only [hminus, hinteger, hfraction, hexponent] at h
  split at h
  · cases h
  · rename_i hne
    have hrest : afterExponent = rest := by
      split at h
      · split at h
        · cases h
        · cases h
          rfl
      · cases h
        rfl
    exact ⟨negative, integer, fraction, exponent, by
      rw [htext, hafterMinus, hafterInteger, hafterFraction, hrest], hisInteger hne, hisFraction,
      hisExponent⟩

end Numerals

section Values

variable {py : Runtime} {depth : Nat} {text rest : List Char} {value : Value}

theorem digitsNumber_lt {digits : List Char} (hdigits : ∀ c ∈ digits, c.isDigit = true) :
    digitsNumber digits < 10 ^ digits.length := by
  induction digits with
  | nil => simp [digitsNumber]
  | cons c digits ih =>
    have hvalue : ∀ digit : Fin 10, digitsNumber [digitChar digit] ≤ 9 := by decide
    have hlt := ih fun other hother => hdigits other (List.mem_cons_of_mem _ hother)
    obtain ⟨digit, rfl⟩ := exists_digitChar (hdigits c (by simp))
    have hsplit := digitsNumber_append [digitChar digit] digits
    rw [List.singleton_append] at hsplit
    rw [hsplit, List.length_cons, Nat.pow_succ]
    calc digitsNumber [digitChar digit] * 10 ^ digits.length + digitsNumber digits
        < digitsNumber [digitChar digit] * 10 ^ digits.length + 10 ^ digits.length := by omega
      _ = (digitsNumber [digitChar digit] + 1) * 10 ^ digits.length := by ring
      _ ≤ 10 * 10 ^ digits.length := Nat.mul_le_mul_right _ (Nat.succ_le_succ (hvalue digit))
      _ = 10 ^ digits.length * 10 := Nat.mul_comm _ _

theorem readable_float (hpy : py.Exact) {numeral : List Char} :
    Readable py depth (.number (.float (py.toFloat numeral))) := by
  cases hfloat : py.toFloat numeral with
  | finite x => exact .finite (hpy.shortest hfloat) (hpy.reads hfloat)
  | infinity negative => exact .infinity
  | nan => exact .nan

theorem readable_scanNumber (hpy : py.Exact) (h : scanNumber py text = .ok (value, rest)) :
    Readable py depth value := by
  obtain ⟨integer, afterInteger, -, hinteger, hisInteger⟩ := takeInteger_eq (takeMinus text).2
  unfold scanNumber at h
  simp only [hinteger] at h
  split at h
  · cases h
  · rename_i hne
    split at h
    · split at h
      · cases h
      · rename_i hlimit
        cases h
        have habs : ∀ negative : Prop, ∀ [Decidable negative],
            (if negative then (digitsNumber integer : Int) else -digitsNumber integer).natAbs =
              digitsNumber integer := by
          intro negative _
          split <;> omega
        have hpos : 0 < integer.length := List.length_pos_iff.mpr hne
        have hlength := (Nat.length_toDigits_le_iff (b := 10) (by decide) hpos).mpr
          (digitsNumber_lt (hisInteger hne).1.2)
        apply Readable.int
        rw [habs]
        omega
    · cases h
      exact readable_float hpy

theorem readable_scanScalar (hpy : py.Exact) (h : scanScalar py text = .ok (value, rest)) :
    Readable py depth value := by
  unfold scanScalar at h
  split at h
  · rename_i name constant hfind
    cases h
    have hmem := List.mem_of_find?_eq_some hfind
    simp only [constants, List.mem_cons, Prod.mk.injEq, List.not_mem_nil, or_false] at hmem
    rcases hmem with ⟨-, rfl⟩ | ⟨-, rfl⟩ | ⟨-, rfl⟩ | ⟨-, rfl⟩ | ⟨-, rfl⟩ | ⟨-, rfl⟩
    · exact .null
    · exact .bool
    · exact .bool
    · exact .nan
    · exact .infinity
    · exact .infinity
  · exact readable_scanNumber hpy h

theorem mem_setItem {key : List Char} {members : Members} {member : List Char × Value}
    (hmem : member ∈ setItem key value members) : member = (key, value) ∨ member ∈ members := by
  induction members with
  | nil => exact .inl (List.mem_singleton.mp hmem)
  | cons other members ih =>
    obtain ⟨otherKey, old⟩ := other
    unfold setItem at hmem
    split at hmem
    · rcases List.mem_cons.mp hmem with hmem | hmem
      · exact .inl hmem
      · exact .inr (List.mem_cons_of_mem _ hmem)
    · rcases List.mem_cons.mp hmem with hmem | hmem
      · exact .inr (hmem ▸ List.mem_cons_self)
      · exact (ih hmem).imp_right fun hmem => List.mem_cons_of_mem _ hmem

theorem nodup_setItem {key : List Char} {members : Members} (hnodup : (members.map Prod.fst).Nodup) :
    ((setItem key value members).map Prod.fst).Nodup := by
  induction members with
  | nil => simp [setItem]
  | cons other members ih =>
    obtain ⟨otherKey, old⟩ := other
    rw [List.map_cons, List.nodup_cons] at hnodup
    unfold setItem
    split
    · rename_i hkey
      rw [List.map_cons, List.nodup_cons]
      exact ⟨hkey ▸ hnodup.1, hnodup.2⟩
    · rename_i hkey
      rw [List.map_cons, List.nodup_cons]
      refine ⟨fun hmem => ?_, ih hnodup.2⟩
      obtain ⟨member, hmember, hfst⟩ := List.mem_map.mp hmem
      rcases mem_setItem hmember with rfl | hmember
      · exact hkey hfst.symm
      · exact hnodup.1 (List.mem_map.mpr ⟨member, hmember, hfst⟩)

theorem Readable.setItem {key : List Char} {members : Members} (hvalue : Readable py depth value)
    (hmembers : Readable py (depth + 1) (.object members)) :
    Readable py (depth + 1) (.object (setItem key value members)) := by
  cases hmembers with
  | object hnodup hmembers =>
    refine .object (nodup_setItem hnodup) fun member hmember => ?_
    rcases mem_setItem hmember with rfl | hmember
    · exact hvalue
    · exact hmembers member hmember

/-- The three scanners of the mutual recursion at one amount of fuel. -/
structure Accepts (py : Runtime) (fuel : Nat) : Prop where
  once : ∀ {depth text value rest}, scanOnce py fuel depth text = .ok (value, rest) →
    Readable py depth value
  members : ∀ {depth members text value rest},
    scanMembers py fuel depth members text = .ok (value, rest) →
    Readable py (depth + 1) (.object members) → Readable py (depth + 1) value
  items : ∀ {depth items text value rest},
    scanItems py fuel depth items text = .ok (value, rest) →
    Readable py (depth + 1) (.array items) → Readable py (depth + 1) value

variable {fuel : Nat}

theorem Accepts.once_succ (hpy : py.Exact) (ih : Accepts py fuel)
    (h : scanOnce py (fuel + 1) depth text = .ok (value, rest)) : Readable py depth value := by
  unfold scanOnce at h
  split at h
  · rename_i text
    cases hstring : scanString text with
    | error raised =>
      rw [hstring] at h
      cases h
    | ok result =>
      rw [hstring] at h
      cases h
      exact .string
  · split at h
    · cases h
    · split at h
      · cases h
        exact .object (by simp) (by simp)
      · exact ih.members h (.object (by simp) (by simp))
  · split at h
    · cases h
    · split at h
      · cases h
        exact .array (by simp)
      · exact ih.items h (.array (by simp))
  · exact readable_scanScalar hpy h

theorem Accepts.members_succ {members : Members} (ih : Accepts py fuel)
    (h : scanMembers py (fuel + 1) depth members text = .ok (value, rest))
    (hmembers : Readable py (depth + 1) (.object members)) : Readable py (depth + 1) value := by
  unfold scanMembers at h
  split at h
  · split at h
    · cases h
    · split at h
      · split at h
        · cases h
        · rename_i hvalue
          have hmember := ih.once hvalue
          split at h
          · cases h
            exact hmember.setItem hmembers
          · exact ih.members h (hmember.setItem hmembers)
          · cases h
      · cases h
  · cases h

theorem Accepts.items_succ {items : List Value} (ih : Accepts py fuel)
    (h : scanItems py (fuel + 1) depth items text = .ok (value, rest))
    (hitems : Readable py (depth + 1) (.array items)) : Readable py (depth + 1) value := by
  unfold scanItems at h
  split at h
  · cases h
  · rename_i item afterValue hvalue
    have happend : Readable py (depth + 1) (.array (items ++ [item])) := by
      cases hitems with
      | array hitems =>
        refine .array fun other hother => ?_
        rcases List.mem_append.mp hother with hother | hother
        · exact hitems other hother
        · rw [List.mem_singleton.mp hother]
          exact ih.once hvalue
    split at h
    · cases h
      exact happend
    · exact ih.items h happend
    · cases h

theorem accepts (hpy : py.Exact) (fuel : Nat) : Accepts py fuel := by
  induction fuel with
  | zero =>
    constructor
    · intro depth text value rest h
      cases h
    · intro depth members text value rest h
      cases h
    · intro depth items text value rest h
      cases h
  | succ fuel ih => exact ⟨ih.once_succ hpy, ih.members_succ, ih.items_succ⟩

theorem readable_of_loads (hpy : py.Exact) (h : loads py text = .ok value) :
    Readable py py.recursionLimit value := by
  unfold loads at h
  split at h
  · cases h
  · split at h
    · cases h
    · rename_i hscan
      split at h
      · cases h
        exact (accepts hpy _).once hscan
      · cases h

end Values

/-! A scanner that has come to the end of a string or a container does not look
at what follows; a numeral ends where something else begins. -/
section Prefixes

variable {py : Runtime} {fuel depth : Nat} {text rest : List Char} {value : Value}

theorem consScan_append {item : Nat} {scan longer : Scan (List Nat)} {codes : List Nat}
    (more : List Char) (h : consScan item scan = .ok (codes, rest))
    (hlonger : ∀ codes, scan = .ok (codes, rest) → longer = .ok (codes, rest ++ more)) :
    consScan item longer = .ok (codes, rest ++ more) := by
  cases scan with
  | error raised => cases h
  | ok result =>
    cases h
    rw [hlonger _ rfl]
    rfl

theorem scanCodes_append {codes : List Nat} (more : List Char)
    (h : scanCodes text = .ok (codes, rest)) : scanCodes (text ++ more) = .ok (codes, rest ++ more) := by
  induction text using scanCodes.induct generalizing codes with
  | case1 => cases h
  | case2 =>
    cases h
    rfl
  | case3 a b c d text hdigits ih =>
    rw [scanCodes, if_pos hdigits] at h
    simp only [List.cons_append]
    rw [scanCodes, if_pos hdigits]
    exact consScan_append more h fun _ => ih
  | case4 a b c d text hdigits =>
    rw [scanCodes, if_neg hdigits] at h
    cases h
  | case5 c text hplain escaped hescaped ih =>
    have hunicode : c ≠ 'u' := by
      rintro rfl
      cases hescaped
    rw [scanCodes_escape hunicode hescaped] at h
    simp only [List.cons_append]
    rw [scanCodes_escape hunicode hescaped]
    exact consScan_append more h fun _ => ih
  | case6 c text hplain hescaped =>
    rw [scanCodes, hescaped] at h
    · cases h
    · exact hplain
  | case7 c text hquote hunicode hescape hcontrol =>
    rw [scanCodes, if_pos hcontrol] at h
    · cases h
    all_goals assumption
  | case8 c text hquote hunicode hescape hcontrol ih =>
    have hbackslash : c ≠ '\\' := by
      rintro rfl
      cases text with
      | nil =>
        rw [scanCodes, if_neg hcontrol] at h
        · cases h
        all_goals assumption
      | cons next text => exact hescape next text rfl rfl
    rw [scanCodes_plain hquote hbackslash (by omega)] at h
    rw [List.cons_append, scanCodes_plain hquote hbackslash (by omega)]
    exact consScan_append more h fun _ => ih

theorem scanString_append {chars : List Char} (more : List Char)
    (h : scanString text = .ok (chars, rest)) :
    scanString (text ++ more) = .ok (chars, rest ++ more) := by
  unfold scanString at h ⊢
  cases hcodes : scanCodes text with
  | error raised =>
    rw [hcodes] at h
    cases h
  | ok result =>
    rw [hcodes] at h
    cases h
    rw [scanCodes_append more hcodes]
    rfl

theorem endsNumeral_append (more : List Char) (hne : rest ≠ []) (hrest : EndsNumeral rest) :
    EndsNumeral (rest ++ more) := by
  intro c hc
  rw [List.head?_append_of_ne_nil _ hne] at hc
  exact hrest c hc

theorem scanNumber_append (more : List Char) (hne : rest ≠ []) (hrest : EndsNumeral rest)
    (h : scanNumber py text = .ok (value, rest)) :
    scanNumber py (text ++ more) = .ok (value, rest ++ more) := by
  obtain ⟨negative, integer, fraction, exponent, rfl, hinteger, hfraction, hexponent⟩ :=
    exists_parts h
  have hlonger := endsNumeral_append more hne hrest
  rw [scanNumber_parts py negative hinteger hfraction hexponent hrest] at h
  simp only [List.append_assoc]
  rw [scanNumber_parts py negative hinteger hfraction hexponent hlonger]
  split at h
  · rename_i hinteger
    split at h
    · cases h
    · rename_i hlimit
      cases h
      rw [if_pos hinteger, if_neg hlimit]
  · rename_i hfloat
    cases h
    rw [if_neg hfloat]

theorem scanScalar_append (more : List Char) (hne : rest ≠ []) (hrest : EndsNumeral rest)
    (h : scanScalar py text = .ok (value, rest)) :
    scanScalar py (text ++ more) = .ok (value, rest ++ more) := by
  unfold scanScalar at h
  split at h
  · rename_i name constant hfind
    cases h
    have hmem := List.mem_of_find?_eq_some hfind
    have hmatch := List.find?_some
      (p := fun constant : List Char × Value => constant.1.isPrefixOf text) hfind
    obtain ⟨tail, rfl⟩ := List.isPrefixOf_iff_prefix.mp hmatch
    rw [List.append_assoc, List.drop_left]
    simp only [constants, List.mem_cons, Prod.mk.injEq, List.not_mem_nil, or_false] at hmem
    rcases hmem with ⟨rfl, rfl⟩ | ⟨rfl, rfl⟩ | ⟨rfl, rfl⟩ | ⟨rfl, rfl⟩ | ⟨rfl, rfl⟩ | ⟨rfl, rfl⟩
    iterate 6 rfl
  · obtain ⟨negative, integer, fraction, exponent, htext, hinteger, -, -⟩ := exists_parts h
    have hnumber := scanNumber_append more hne hrest h
    rw [htext, List.append_assoc, List.append_assoc] at hnumber ⊢
    unfold scanScalar
    rw [find_constants negative hinteger]
    exact hnumber

theorem skipBlanks_append (more : List Char) (hne : skipBlanks text ≠ []) :
    skipBlanks (text ++ more) = skipBlanks text ++ more := by
  unfold skipBlanks at hne ⊢
  rw [List.dropWhile_append, if_neg]
  simpa using hne

/-- A value that shows where it ends. -/
def EndsItself (text : List Char) : Prop :=
  ∃ c, text.head? = some c ∧ (c = '"' ∨ c = '{' ∨ c = '[')

/-- The three scanners of the mutual recursion at one amount of fuel. -/
structure Extends (py : Runtime) (fuel : Nat) : Prop where
  once : ∀ {depth text value rest} (more : List Char),
    EndsItself text ∨ rest ≠ [] ∧ EndsNumeral rest →
    scanOnce py fuel depth text = .ok (value, rest) →
    scanOnce py fuel depth (text ++ more) = .ok (value, rest ++ more)
  members : ∀ {depth members text value rest} (more : List Char),
    scanMembers py fuel depth members text = .ok (value, rest) →
    scanMembers py fuel depth members (text ++ more) = .ok (value, rest ++ more)
  items : ∀ {depth items text value rest} (more : List Char),
    scanItems py fuel depth items text = .ok (value, rest) →
    scanItems py fuel depth items (text ++ more) = .ok (value, rest ++ more)

theorem ne_nil_of_scanMembers {members : Members}
    (h : scanMembers py fuel depth members text = .ok (value, rest)) : text ≠ [] := by
  rintro rfl
  cases fuel <;> cases h

theorem ne_nil_of_scanItems {items : List Value}
    (h : scanItems py fuel depth items text = .ok (value, rest)) : text ≠ [] := by
  intro hnil
  have hlt := (shorter py fuel).items h
  rw [hnil] at hlt
  exact absurd hlt (Nat.not_lt_zero _)

theorem ends_of_skipBlanks {c : Char} {tail : List Char} (hskip : skipBlanks text = c :: tail)
    (hc : c = ',' ∨ c = '}' ∨ c = ']') : text ≠ [] ∧ EndsNumeral text := by
  refine ⟨?_, fun first hfirst => ?_⟩
  · rintro rfl
    cases hskip
  · obtain ⟨others, rfl⟩ := List.head?_eq_some_iff.mp hfirst
    cases hblank : isBlank first with
    | true =>
      simp only [isBlank, Bool.or_eq_true, beq_iff_eq] at hblank
      rcases hblank with ((rfl | rfl) | rfl) | rfl <;> decide
    | false =>
      rw [skipBlanks_cons hblank] at hskip
      cases hskip
      rcases hc with rfl | rfl | rfl <;> decide

theorem scanOnce_string_append (more : List Char)
    (h : scanOnce py (fuel + 1) depth ('"' :: text) = .ok (value, rest)) :
    scanOnce py (fuel + 1) depth ('"' :: (text ++ more)) = .ok (value, rest ++ more) := by
  rw [scanOnce_quote] at h ⊢
  cases hstring : scanString text with
  | error raised =>
    rw [hstring] at h
    cases h
  | ok result =>
    rw [hstring] at h
    cases h
    rw [scanString_append more hstring]
    rfl

theorem append_ne_cons {c : Char} (hne : text ≠ []) (hopen : ∀ tail, text ≠ c :: tail)
    (more tail : List Char) : text ++ more ≠ c :: tail := by
  obtain ⟨first, others, rfl⟩ := List.exists_cons_of_ne_nil hne
  intro happend
  rw [List.cons_append] at happend
  cases happend
  exact hopen others rfl

theorem Extends.object (ih : Extends py fuel) (more : List Char)
    (h : scanOnce py (fuel + 1) depth ('{' :: text) = .ok (value, rest)) :
    scanOnce py (fuel + 1) depth ('{' :: (text ++ more)) = .ok (value, rest ++ more) := by
  cases depth with
  | zero => cases h
  | succ depth =>
    rw [scanOnce_brace] at h ⊢
    split at h
    · rename_i tail hskip
      cases h
      rw [skipBlanks_append more (by simp [hskip]), hskip]
      rfl
    · rename_i hopen
      have hne := ne_nil_of_scanMembers h
      rw [skipBlanks_append more hne]
      split
      · rename_i tail hclose
        exact absurd hclose (append_ne_cons hne hopen more tail)
      · exact ih.members more h

theorem Extends.array (ih : Extends py fuel) (more : List Char)
    (h : scanOnce py (fuel + 1) depth ('[' :: text) = .ok (value, rest)) :
    scanOnce py (fuel + 1) depth ('[' :: (text ++ more)) = .ok (value, rest ++ more) := by
  cases depth with
  | zero => cases h
  | succ depth =>
    rw [scanOnce_bracket] at h ⊢
    split at h
    · rename_i tail hskip
      cases h
      rw [skipBlanks_append more (by simp [hskip]), hskip]
      rfl
    · rename_i hopen
      have hne := ne_nil_of_scanItems h
      rw [skipBlanks_append more hne]
      split
      · rename_i tail hclose
        exact absurd hclose (append_ne_cons hne hopen more tail)
      · exact ih.items more h

theorem scanOnce_scalar_append (more : List Char) (hquote : ∀ tail, text ≠ '"' :: tail)
    (hbrace : ∀ tail, text ≠ '{' :: tail) (hbracket : ∀ tail, text ≠ '[' :: tail)
    (hrestNe : rest ≠ []) (hrest : EndsNumeral rest)
    (h : scanScalar py text = .ok (value, rest)) :
    scanOnce py (fuel + 1) depth (text ++ more) = .ok (value, rest ++ more) := by
  have hne : text ≠ [] := by
    intro hnil
    have hlt := scanScalar_shorter h
    rw [hnil] at hlt
    exact absurd hlt (Nat.not_lt_zero _)
  have hscalar := scanScalar_append more hrestNe hrest h
  unfold scanOnce
  split
  · rename_i tail heq
    exact absurd heq (append_ne_cons hne hquote more tail)
  · rename_i tail heq
    exact absurd heq (append_ne_cons hne hbrace more tail)
  · rename_i tail heq
    exact absurd heq (append_ne_cons hne hbracket more tail)
  · exact hscalar

theorem Extends.once_succ (ih : Extends py fuel) (more : List Char)
    (hends : EndsItself text ∨ rest ≠ [] ∧ EndsNumeral rest)
    (h : scanOnce py (fuel + 1) depth text = .ok (value, rest)) :
    scanOnce py (fuel + 1) depth (text ++ more) = .ok (value, rest ++ more) := by
  by_cases hself : EndsItself text
  · obtain ⟨first, hfirst, hc⟩ := hself
    obtain ⟨tail, rfl⟩ := List.head?_eq_some_iff.mp hfirst
    rcases hc with rfl | rfl | rfl
    · exact scanOnce_string_append more h
    · exact ih.object more h
    · exact ih.array more h
  · obtain ⟨hrestNe, hrest⟩ := hends.resolve_left hself
    unfold scanOnce at h
    split at h
    · exact absurd ⟨'"', rfl, .inl rfl⟩ hself
    · exact absurd ⟨'{', rfl, .inr (.inl rfl)⟩ hself
    · exact absurd ⟨'[', rfl, .inr (.inr rfl)⟩ hself
    · rename_i hquote hbrace hbracket
      exact scanOnce_scalar_append more hquote hbrace hbracket hrestNe hrest h

theorem Extends.members_succ {members : Members} (ih : Extends py fuel) (more : List Char)
    (h : scanMembers py (fuel + 1) depth members text = .ok (value, rest)) :
    scanMembers py (fuel + 1) depth members (text ++ more) = .ok (value, rest ++ more) := by
  unfold scanMembers at h
  split at h
  · rename_i text
    rw [List.cons_append, scanMembers_quote]
    split at h
    · cases h
    · rename_i key afterKey hstring
      simp only [scanString_append more hstring]
      split at h
      · rename_i afterColon hcolon
        simp only [skipBlanks_append more (show skipBlanks afterKey ≠ [] by simp [hcolon]), hcolon,
          List.cons_append]
        split at h
        · cases h
        · rename_i member afterValue hvalue
          have hstart : skipBlanks afterColon ≠ [] := by
            intro hnil
            have hlt := (shorter py fuel).once hvalue
            rw [hnil] at hlt
            exact absurd hlt (Nat.not_lt_zero _)
          rw [skipBlanks_append more hstart]
          split at h
          · rename_i tail hclose
            cases h
            rw [ih.once more (.inr (ends_of_skipBlanks hclose (by simp))) hvalue]
            simp only [skipBlanks_append more (show skipBlanks afterValue ≠ [] by simp [hclose]),
              hclose, List.cons_append]
          · rename_i afterComma hcomma
            rw [ih.once more (.inr (ends_of_skipBlanks hcomma (by simp))) hvalue]
            simp only [skipBlanks_append more (show skipBlanks afterValue ≠ [] by simp [hcomma]),
              hcomma, List.cons_append, skipBlanks_append more (ne_nil_of_scanMembers h)]
            exact ih.members more h
          · cases h
      · cases h
  · cases h

theorem Extends.items_succ {items : List Value} (ih : Extends py fuel) (more : List Char)
    (h : scanItems py (fuel + 1) depth items text = .ok (value, rest)) :
    scanItems py (fuel + 1) depth items (text ++ more) = .ok (value, rest ++ more) := by
  unfold scanItems at h ⊢
  split at h
  · cases h
  · rename_i item afterValue hvalue
    split at h
    · rename_i tail hclose
      cases h
      rw [ih.once more (.inr (ends_of_skipBlanks hclose (by simp))) hvalue]
      simp only [skipBlanks_append more (show skipBlanks afterValue ≠ [] by simp [hclose]),
        hclose, List.cons_append]
    · rename_i afterComma hcomma
      rw [ih.once more (.inr (ends_of_skipBlanks hcomma (by simp))) hvalue]
      simp only [skipBlanks_append more (show skipBlanks afterValue ≠ [] by simp [hcomma]),
        hcomma, List.cons_append, skipBlanks_append more (ne_nil_of_scanItems h)]
      exact ih.items more h
    · cases h

theorem extends_scan (py : Runtime) (fuel : Nat) : Extends py fuel := by
  induction fuel with
  | zero =>
    constructor
    · intro depth text value rest more hends h
      cases h
    · intro depth members text value rest more h
      cases h
    · intro depth items text value rest more h
      cases h
  | succ fuel ih => exact ⟨ih.once_succ, ih.members_succ, ih.items_succ⟩

theorem loads_object_ok (h : loads py ('{' :: text) = .ok value) : ∃ rest,
    scanOnce py (2 * ('{' :: text).length) py.recursionLimit ('{' :: text) = .ok (value, rest) ∧
      skipBlanks rest = [] := by
  unfold loads at h
  split at h
  · cases h
  · rw [skipBlanks_cons (show isBlank '{' = false from rfl)] at h
    split at h
    · cases h
    · rename_i found rest hscan
      split at h
      · rename_i hrest
        cases h
        exact ⟨rest, hscan, hrest⟩
      · cases h

theorem loads_of_cut {more : List Char} {last : Char} (hread : loads py (text ++ more) = .ok value)
    (hopen : (text ++ more).head? = some '{') (hlast : (text ++ more).getLast? = some last)
    (hclosed : isBlank last = false) (hmore : more ≠ []) :
    ∃ raised, loads py text = .error raised := by
  cases hcut : loads py text with
  | error raised => exact ⟨raised, rfl⟩
  | ok early =>
    cases text with
    | nil => cases hcut
    | cons c text =>
      cases hopen
      rw [List.cons_append] at hread hlast
      obtain ⟨rest, hscan, -⟩ := loads_object_ok hcut
      obtain ⟨whole, hwhole, hblank⟩ := loads_object_ok hread
      -- The early end of the object is its end in the whole document too.
      rw [← scan_fuel (2 * more.length)] at hscan
      have hlonger := (extends_scan py _).once more (.inl ⟨'{', rfl, .inr (.inl rfl)⟩) hscan
      have hfuel : 2 * ('{' :: text).length + 2 * more.length =
          2 * ('{' :: (text ++ more)).length := by
        simp only [List.length_cons, List.length_append]
        omega
      rw [hfuel, List.cons_append, hwhole] at hlonger
      cases hlonger
      have hmem : last ∈ more := by
        rw [← List.cons_append, List.getLast?_append_of_ne_nil _ hmore] at hlast
        exact List.mem_of_getLast? hlast
      have hall := List.dropWhile_eq_nil_iff.mp hblank last (List.mem_append_right _ hmem)
      rw [hclosed] at hall
      cases hall

theorem loads_of_cut_dumps {members : Members}
    (hread : Readable py py.recursionLimit (.object members))
    (hcut : text <+: dumps (.object members)) (hne : text ≠ dumps (.object members)) :
    ∃ raised, loads py text = .error raised := by
  obtain ⟨more, hcut⟩ := hcut
  have hmore : more ≠ [] := by
    rintro rfl
    rw [List.append_nil] at hcut
    exact hne hcut
  have hends : (dumps (.object members)).head? = some '{' ∧
      (dumps (.object members)).getLast? = some '}' := by
    cases members with
    | nil => exact ⟨rfl, rfl⟩
    | cons member members =>
      refine ⟨rfl, ?_⟩
      rw [dumps, encode, ← List.cons_append, List.getLast?_concat]
  have hwhole := loads_dumps hread
  rw [← hcut] at hends hwhole
  exact loads_of_cut hwhole hends.1 hends.2 rfl hmore

end Prefixes
end VacuumCleaner.Lib.Json
