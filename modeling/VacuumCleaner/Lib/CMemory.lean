import VacuumCleaner.Lib.CText

/-! Which elements of its buffers a C program touches. The functions of the
string library read as far as their documentation says. -/
namespace VacuumCleaner.Lib.CMemory

open Hex CText

universe u

variable {Buffer : Type u}

/-- A read or a write of one element. -/
structure Access (Buffer : Type u) where
  buffer : Buffer
  index : Nat
  deriving DecidableEq, Repr

/-- `count` elements from `start` on. -/
def span (buffer : Buffer) (start count : Nat) : List (Access Buffer) :=
  (List.range' start count).map (⟨buffer, ·⟩)

def Inside (size : Buffer → Nat) (accesses : List (Access Buffer)) : Prop :=
  ∀ access ∈ accesses, access.index < size access.buffer

instance (size : Buffer → Nat) (accesses : List (Access Buffer)) :
    Decidable (Inside size accesses) := inferInstanceAs (Decidable (∀ access ∈ accesses, _))

variable {size : Buffer → Nat}

@[simp] theorem inside_nil : Inside size [] := fun _ h => absurd h List.not_mem_nil

@[simp] theorem inside_cons {access : Access Buffer} {accesses : List (Access Buffer)} :
    Inside size (access :: accesses) ↔
      access.index < size access.buffer ∧ Inside size accesses := List.forall_mem_cons

@[simp] theorem inside_append {left right : List (Access Buffer)} :
    Inside size (left ++ right) ↔ Inside size left ∧ Inside size right := List.forall_mem_append

@[simp] theorem inside_span {buffer : Buffer} {start count : Nat} :
    Inside size (span buffer start count) ↔ count = 0 ∨ start + count ≤ size buffer := by
  unfold Inside span
  constructor
  · intro hinside
    cases count with
    | zero => exact .inl rfl
    | succ count =>
      right
      exact hinside ⟨buffer, start + count⟩ (List.mem_map.mpr
        ⟨start + count, List.mem_range'_1.mpr (by omega), rfl⟩)
  · rintro hcount access haccess
    obtain ⟨index, hindex, rfl⟩ := List.mem_map.mp haccess
    obtain ⟨hlow, hhigh⟩ := List.mem_range'_1.mp hindex
    dsimp only
    omega

/-- The characters read of a string that is followed to its NUL, or to `limit`. -/
def readCount (limit : Nat) (source : List Char) : Nat := min limit ((cString source).length + 1)

theorem readCount_le (limit : Nat) (source : List Char) : readCount limit source ≤ limit :=
  Nat.min_le_left ..

theorem length_cString_lt {text : List Char} (hnul : nul ∈ text) :
    (cString text).length < text.length := by
  have hle := (List.takeWhile_prefix (l := text) (· ≠ nul)).length_le
  refine Nat.lt_of_le_of_ne hle fun hall => ?_
  have hsame := (List.takeWhile_prefix (l := text) (· ≠ nul)).eq_of_length hall
  have hne := List.takeWhile_eq_self_iff.mp hsame nul hnul
  simp at hne

theorem readCount_append_le_iff {limit : Nat} {text : List Char} (more : List Char)
    (hlimit : text.length < limit) :
    readCount limit (text ++ more) ≤ text.length ↔ nul ∈ text := by
  unfold readCount cString
  rw [List.takeWhile_append]
  constructor
  · intro hread
    by_contra hnul
    have hall : (text.takeWhile (· ≠ nul)).length = text.length := by
      rw [List.takeWhile_eq_self_iff.mpr fun c hc => by simpa using ne_of_mem_of_not_mem hc hnul]
    rw [if_pos hall, List.length_append] at hread
    omega
  · intro hnul
    have hshort := length_cString_lt hnul
    unfold cString at hshort
    rw [if_neg (Nat.ne_of_lt hshort)]
    omega

/-- What stands of a number in front of its digits, with base 16. -/
def prefixLength : List Char → Nat
  | '0' :: 'x' :: _ | '0' :: 'X' :: _ => 2
  | _ => 0

/-- What is read of a number behind blanks and its sign, with the first
character that does not belong to it. -/
def unsignedRead (body : List Char) : Nat :=
  prefixLength body + ((body.drop (prefixLength body)).takeWhile isHexDigit).length + 1

/-- The characters that `strtol` reads with base 16. -/
def strtolHexRead (text : List Char) : Nat :=
  let signed := text.dropWhile isSpace
  let body := (takeSign signed).2
  (text.takeWhile isSpace).length + (signed.length - body.length) + unsignedRead body

theorem prefixLength_le (body : List Char) : prefixLength body ≤ body.length := by
  unfold prefixLength
  split <;> simp

theorem prefixLength_cons_cons (first second : Char) (rest : List Char) :
    prefixLength (first :: second :: rest) =
      if first = '0' ∧ (second = 'x' ∨ second = 'X') then 2 else 0 := by
  unfold prefixLength
  split
  · rename_i heq
    cases heq
    rfl
  · rename_i heq
    cases heq
    rfl
  · rename_i hx hX
    rw [if_neg]
    rintro ⟨rfl, rfl | rfl⟩
    · exact hx rest rfl
    · exact hX rest rfl

theorem prefixLength_of_ne {first : Char} (rest : List Char) (hfirst : first ≠ '0') :
    prefixLength (first :: rest) = 0 := by
  cases rest with
  | nil => simp [prefixLength]
  | cons second rest => rw [prefixLength_cons_cons, if_neg fun h => hfirst h.1]

theorem unsignedRead_append_le_iff (body more : List Char) :
    unsignedRead (body ++ more) ≤ body.length ↔ unsignedRead body ≤ body.length := by
  match body with
  | [] => exact iff_of_false (by simp [unsignedRead]) (by simp [unsignedRead])
  | [first] =>
    by_cases hdigit : isHexDigit first = true
    · refine iff_of_false ?_ (by simp [unsignedRead, prefixLength, hdigit])
      unfold unsignedRead
      cases more with
      | nil => simp [prefixLength, hdigit]
      | cons second more =>
        rw [List.singleton_append, prefixLength_cons_cons]
        split
        · simp
        · simp [hdigit]
    · have hzero : first ≠ '0' := by
        rintro rfl
        exact hdigit (by decide)
      have hpre := prefixLength_of_ne more hzero
      exact iff_of_true (by simp [unsignedRead, hpre, hdigit])
        (by simp [unsignedRead, prefixLength, hdigit])
  | first :: second :: rest =>
    have hsame : prefixLength (first :: second :: rest ++ more) =
        prefixLength (first :: second :: rest) := by
      rw [List.cons_append, List.cons_append, prefixLength_cons_cons, prefixLength_cons_cons]
    have hle := prefixLength_le (first :: second :: rest)
    unfold unsignedRead
    rw [hsame, List.drop_append_of_le_length hle, List.takeWhile_append]
    have hdrop := List.length_drop (l := first :: second :: rest)
      (i := prefixLength (first :: second :: rest))
    split
    · rename_i hall
      rw [List.length_append, hall]
      omega
    · rfl

theorem unsignedRead_le (body : List Char) : unsignedRead body ≤ body.length + 1 := by
  have hdigits := (List.takeWhile_prefix (l := body.drop (prefixLength body)) isHexDigit).length_le
  have hpre := prefixLength_le body
  rw [List.length_drop] at hdigits
  unfold unsignedRead
  omega

theorem takeSign_append {text : List Char} (more : List Char) (hne : text ≠ []) :
    takeSign (text ++ more) = ((takeSign text).1, (takeSign text).2 ++ more) := by
  obtain ⟨c, rest, rfl⟩ := List.exists_cons_of_ne_nil hne
  unfold takeSign
  by_cases hminus : c = '-'
  · subst hminus
    rfl
  by_cases hplus : c = '+'
  · subst hplus
    rfl
  simp [hminus, hplus]

theorem length_takeSign_le (text : List Char) : (takeSign text).2.length ≤ text.length := by
  unfold takeSign
  split <;> simp

theorem length_takeWhile_add_dropWhile (p : Char → Bool) (text : List Char) :
    (text.takeWhile p).length + (text.dropWhile p).length = text.length := by
  rw [← List.length_append, List.takeWhile_append_dropWhile]

theorem strtolHexRead_le (text : List Char) : strtolHexRead text ≤ text.length + 1 := by
  have hlength := length_takeWhile_add_dropWhile isSpace text
  have hsign := length_takeSign_le (text.dropWhile isSpace)
  have hbody := unsignedRead_le (takeSign (text.dropWhile isSpace)).2
  unfold strtolHexRead
  dsimp only
  omega

theorem strtolHexRead_append_le_iff (text more : List Char) :
    strtolHexRead (text ++ more) ≤ text.length ↔ strtolHexRead text ≤ text.length := by
  have hlength := length_takeWhile_add_dropWhile isSpace text
  unfold strtolHexRead
  rw [List.takeWhile_append, List.dropWhile_append]
  by_cases hblank : text.dropWhile isSpace = []
  · rw [hblank, List.length_nil, Nat.add_zero] at hlength
    refine iff_of_false ?_ ?_
    · rw [if_pos hlength, List.length_append]
      simp only [unsignedRead]
      omega
    · simp only [unsignedRead]
      omega
  · have hpositive : 0 < (text.dropWhile isSpace).length := List.length_pos_iff.mpr hblank
    have hstop : ¬ (text.takeWhile isSpace).length = text.length := by omega
    have hsigned : ¬ (text.dropWhile isSpace).isEmpty = true := by rwa [List.isEmpty_iff]
    rw [if_neg hstop, if_neg hsigned]
    have hsign := length_takeSign_le (text.dropWhile isSpace)
    have hbody := unsignedRead_append_le_iff (takeSign (text.dropWhile isSpace)).2 more
    simp only [takeSign_append more hblank, List.length_append]
    omega

theorem dropHexPrefix_eq (body : List Char) : dropHexPrefix body =
    if prefixLength body = 2 ∧ (body.drop 2).head?.any isHexDigit then body.drop 2 else body := by
  unfold dropHexPrefix
  split
  · simp [prefixLength]
  · simp [prefixLength]
  · rename_i hx hX
    rw [if_neg]
    rintro ⟨hpre, hdigit⟩
    match body with
    | [] | [_] => simp at hdigit
    | [_, _] => simp at hdigit
    | first :: second :: third :: rest =>
      rw [prefixLength_cons_cons] at hpre
      split at hpre
      · rename_i hnumber
        obtain ⟨rfl, rfl | rfl⟩ := hnumber
        · exact hx _ _ rfl
        · exact hX _ _ rfl
      · cases hpre

/-- A number that ends inside a text has its prefix there. -/
theorem prefixLength_append {body : List Char} (more : List Char)
    (hread : unsignedRead body ≤ body.length) : prefixLength (body ++ more) = prefixLength body := by
  match body with
  | [] => simp [unsignedRead] at hread
  | [first] =>
    have hzero : first ≠ '0' := by
      rintro rfl
      exact absurd hread (by decide)
    rw [List.singleton_append, prefixLength_of_ne more hzero, prefixLength_of_ne [] hzero]
  | first :: second :: rest =>
    rw [List.cons_append, List.cons_append, prefixLength_cons_cons, prefixLength_cons_cons]

theorem dropHexPrefix_append {body : List Char} (more : List Char)
    (hread : unsignedRead body ≤ body.length) :
    dropHexPrefix (body ++ more) = dropHexPrefix body ++ more ∧
      ((dropHexPrefix body).takeWhile isHexDigit).length < (dropHexPrefix body).length := by
  rw [dropHexPrefix_eq, dropHexPrefix_eq, prefixLength_append more hread]
  unfold unsignedRead at hread
  by_cases hpre : prefixLength body = 2
  · rw [hpre] at hread ⊢
    have hlength := List.length_drop (l := body) (i := 2)
    have hhead : ((body ++ more).drop 2).head? = (body.drop 2).head? := by
      obtain ⟨third, rest, hrest⟩ : ∃ third rest, body.drop 2 = third :: rest :=
        List.exists_cons_of_length_pos (by omega)
      rw [List.drop_append_of_le_length (by omega), hrest]
      rfl
    rw [hhead]
    split
    · rw [List.drop_append_of_le_length (by omega)]
      exact ⟨rfl, by omega⟩
    · refine ⟨rfl, ?_⟩
      match body with
      | [] | [_] => simp [prefixLength] at hpre
      | first :: second :: rest =>
        rw [prefixLength_cons_cons] at hpre
        split at hpre
        · rename_i hnumber
          have hsecond : isHexDigit second = false := by
            obtain ⟨-, rfl | rfl⟩ := hnumber
            · decide
            · decide
          obtain ⟨rfl, -⟩ := hnumber
          have hzero : isHexDigit '0' = true := by decide
          simp [hzero, hsecond]
        · cases hpre
  · have hzero : prefixLength body = 0 := by
      revert hpre
      unfold prefixLength
      split <;> simp
    rw [hzero, List.drop_zero] at hread
    rw [if_neg fun h => hpre h.1, if_neg fun h => hpre h.1]
    exact ⟨rfl, by omega⟩

theorem strtolHex_append {text : List Char} (more : List Char)
    (hread : strtolHexRead text ≤ text.length) :
    strtolHex (text ++ more) = ((strtolHex text).1, (strtolHex text).2 ++ more) := by
  have hlength := length_takeWhile_add_dropWhile isSpace text
  have hsign := length_takeSign_le (text.dropWhile isSpace)
  unfold strtolHexRead at hread
  dsimp only at hread
  have hblank : text.dropWhile isSpace ≠ [] := by
    intro hnil
    rw [hnil, List.length_nil] at hlength
    simp only [unsignedRead] at hread
    omega
  have hsigned : ¬ (text.dropWhile isSpace).isEmpty = true := by rwa [List.isEmpty_iff]
  have hbody : unsignedRead (takeSign (text.dropWhile isSpace)).2 ≤
      (takeSign (text.dropWhile isSpace)).2.length := by omega
  unfold strtolHex
  rw [List.dropWhile_append, if_neg hsigned, takeSign_append more hblank]
  generalize takeSign (text.dropWhile isSpace) = signed at hbody
  obtain ⟨negative, body⟩ := signed
  dsimp only at hbody ⊢
  obtain ⟨hpre, hstop⟩ := dropHexPrefix_append more hbody
  rw [hpre]
  have hrest := length_takeWhile_add_dropWhile isHexDigit (dropHexPrefix body)
  have hleft : ¬ ((dropHexPrefix body).dropWhile isHexDigit).isEmpty = true := by
    rw [List.isEmpty_iff, ← List.length_eq_zero_iff]
    omega
  have hwhole : ¬ ((dropHexPrefix body).takeWhile isHexDigit).length =
      (dropHexPrefix body).length := by omega
  simp only [List.takeWhile_append, if_neg hwhole, List.dropWhile_append, if_neg hleft]
  by_cases hdigits : (dropHexPrefix body).takeWhile isHexDigit = []
  · rw [if_pos hdigits, if_pos hdigits]
  · rw [if_neg hdigits, if_neg hdigits]

end VacuumCleaner.Lib.CMemory
