import Mathlib.Data.List.Basic
import Mathlib.Data.List.Infix

/-! Regular expressions as a backtracking matcher takes them: a pattern has a
list of ways to match the head of a text, the preferred one first. -/
namespace VacuumCleaner.Lib

/-- A repetition is greedy and of a class of characters. -/
inductive Regex
  | empty
  | one (accepts : Char → Bool)
  | many (accepts : Char → Bool)
  | group (regex : Regex)
  | seq (first second : Regex)

namespace Regex

/-- The texts of the groups, and what is left of the text. -/
structure Way where
  groups : List (List Char) := []
  rest : List Char
  deriving DecidableEq, Repr

/-- What is left behind each run of a class, the longest run first. -/
def runs (accepts : Char → Bool) : List Char → List (List Char)
  | [] => [[]]
  | c :: text => if accepts c then runs accepts text ++ [c :: text] else [c :: text]

def ways : Regex → List Char → List Way
  | empty, text => [{ rest := text }]
  | one _, [] => []
  | one accepts, c :: text => if accepts c then [{ rest := text }] else []
  | many accepts, text => (runs accepts text).map fun rest => { rest }
  | group regex, text => (regex.ways text).map fun way =>
    { way with groups := text.take (text.length - way.rest.length) :: way.groups }
  | seq first second, text => (first.ways text).flatMap fun way =>
    (second.ways way.rest).map fun next => { next with groups := way.groups ++ next.groups }

/-- The groups of the preferred way to match the head of a text. -/
def captures (regex : Regex) (text : List Char) : Option (List (List Char)) :=
  (regex.ways text).head?.map (·.groups)

/-- `re.search`: the first place where there is a way to match. -/
def search (regex : Regex) (text : List Char) : Option (List (List Char)) :=
  text.tails.findSome? regex.captures

def literal (text : List Char) : Regex := text.foldr (fun c => seq (one (· == c))) empty

/-- A class with `+`. -/
def plus (accepts : Char → Bool) : Regex := seq (one accepts) (many accepts)

variable {accepts : Char → Bool}

theorem ways_one_seq (regex : Regex) (text : List Char) :
    (seq (one accepts) regex).ways text =
      match text with
      | [] => []
      | c :: text => if accepts c then regex.ways text else [] := by
  cases text with
  | nil => rfl
  | cons c text =>
    by_cases hc : accepts c = true
    · simp [ways, hc]
    · simp [ways, hc]

theorem ways_seq_assoc (first second third : Regex) (text : List Char) :
    (seq (seq first second) third).ways text = (seq first (seq second third)).ways text := by
  simp [ways, List.flatMap_assoc, List.flatMap_map, List.map_flatMap, Function.comp_def]

@[simp] theorem ways_empty_seq (regex : Regex) (text : List Char) :
    (seq empty regex).ways text = regex.ways text := by simp [ways]

theorem ways_literal_seq (literal : List Char) (regex : Regex) (text : List Char) :
    (seq (Regex.literal literal) regex).ways text =
      if literal <+: text then regex.ways (text.drop literal.length) else [] := by
  induction literal generalizing text with
  | nil => simp [Regex.literal]
  | cons c literal ih =>
    rw [show Regex.literal (c :: literal) = seq (one (· == c)) (Regex.literal literal) from rfl,
      ways_seq_assoc, ways_one_seq]
    cases text with
    | nil => simp
    | cons d text =>
      dsimp only
      by_cases hsame : d = c
      · rw [hsame, if_pos (beq_self_eq_true c), ih]
        simp [List.cons_prefix_cons]
      · have hne : ¬ c :: literal <+: d :: text := fun h =>
          hsame (List.cons_prefix_cons.mp h).1.symm
        rw [if_neg (by simpa using hsame), if_neg hne]

theorem ways_many_seq {regex : Regex}
    (hregex : ∀ c text, accepts c = true → regex.ways (c :: text) = []) (text : List Char) :
    (seq (many accepts) regex).ways text = regex.ways (text.dropWhile accepts) := by
  have hflat : ∀ text, (seq (many accepts) regex).ways text =
      (runs accepts text).flatMap regex.ways := by
    intro text
    simp [ways, List.flatMap_map]
  rw [hflat]
  induction text with
  | nil => simp [runs]
  | cons c text ih =>
    by_cases hc : accepts c = true
    · rw [runs, if_pos hc, List.flatMap_append, ih, List.dropWhile_cons_of_pos hc,
        List.flatMap_singleton, hregex c text hc, List.append_nil]
    · rw [runs, if_neg hc, List.flatMap_singleton, List.dropWhile_cons_of_neg hc]

theorem head_runs (text : List Char) :
    (runs accepts text).head? = some (text.dropWhile accepts) := by
  induction text with
  | nil => rfl
  | cons c text ih =>
    by_cases hc : accepts c = true
    · rw [runs, if_pos hc, List.head?_append, ih, List.dropWhile_cons_of_pos hc, Option.some_or]
    · rw [runs, if_neg hc, List.dropWhile_cons_of_neg hc]
      rfl

theorem ways_plus (text : List Char) : (plus accepts).ways text =
    match text with
    | [] => []
    | c :: text => if accepts c then (runs accepts text).map fun rest => { rest } else [] :=
  ways_one_seq (many accepts) text

theorem captures_group_plus (text : List Char) : (group (plus accepts)).captures text =
    if text.takeWhile accepts = [] then none else some [text.takeWhile accepts] := by
  unfold captures ways
  rw [ways_plus]
  cases text with
  | nil => rfl
  | cons c text =>
    by_cases hc : accepts c = true
    · have hsplit := List.takeWhile_append_dropWhile (p := accepts) (l := text)
      have hlength := congrArg List.length hsplit
      rw [List.length_append] at hlength
      have htake : (c :: text).take (text.length + 1 - (text.dropWhile accepts).length) =
          c :: text.takeWhile accepts := by
        rw [show text.length + 1 - (text.dropWhile accepts).length =
          (text.takeWhile accepts).length + 1 by omega, List.take_succ_cons,
          ← List.prefix_iff_eq_take.mp (List.takeWhile_prefix accepts)]
      rw [List.takeWhile_cons_of_pos hc, if_neg (List.cons_ne_nil _ _)]
      simp [hc, head_runs, htake]
    · simp [hc]

/-- Of the runs before a mark, the one up to the last mark on the line is taken. -/
theorem findSome_runs {Result : Type} {continued : List Char → Option Result} {body : List Char}
    {mark stop : Char} {rest : List Char} {result : Result}
    (hbody : ∀ c ∈ body, accepts c = true) (hmark : accepts mark = true)
    (hstop : accepts stop = false) (hrest : continued (stop :: rest) = none)
    (hresult : continued (mark :: stop :: rest) = some result) :
    (runs accepts (body ++ mark :: stop :: rest)).findSome? continued = some result := by
  induction body with
  | nil =>
    have hruns : runs accepts (mark :: stop :: rest) = [stop :: rest, mark :: stop :: rest] := by
      simp [runs, hmark, hstop]
    rw [List.nil_append, hruns, List.findSome?_cons, hrest, List.findSome?_cons, hresult]
  | cons c body ih =>
    rw [List.cons_append, runs, if_pos (hbody c List.mem_cons_self), List.findSome?_append,
      ih fun d hd => hbody d (List.mem_cons_of_mem _ hd), Option.some_or]

/-- `(.+)` before a mark that ends its line. -/
theorem captures_group_plus_one {body rest : List Char} {mark stop : Char}
    (hbody : ∀ c ∈ body, accepts c = true) (hmark : accepts mark = true)
    (hstop : accepts stop = false) :
    (seq (group (plus accepts)) (one (· == mark))).captures (body ++ mark :: stop :: rest) =
      if body = [] then none else some [body] := by
  have hne : stop ≠ mark := by
    rintro rfl
    rw [hmark] at hstop
    cases hstop
  have hways (text : List Char) : (seq (group (plus accepts)) (one (· == mark))).captures text =
      ((plus accepts).ways text).findSome? fun way => (one (· == mark)).captures way.rest |>.map
        fun groups => text.take (text.length - way.rest.length) :: way.groups ++ groups := by
    simp only [captures, ways, List.head?_flatMap, List.findSome?_map, List.map_findSome?,
      Function.comp_def, List.head?_map, Option.map_map]
  rw [hways, ways_plus]
  cases body with
  | nil => simp [hmark, runs, hstop, captures, ways, hne]
  | cons c body =>
    rw [if_neg (List.cons_ne_nil _ _)]
    rw [List.cons_append]
    dsimp only
    rw [if_pos (hbody c List.mem_cons_self), List.findSome?_map]
    apply findSome_runs (fun d hd => hbody d (List.mem_cons_of_mem _ hd)) hmark hstop
    · simp [captures, ways, hne]
    · have hlength : body.length + (rest.length + 1 + 1) - (rest.length + 1) =
          body.length + 1 := by omega
      simp [captures, ways, hlength]

end Regex
end VacuumCleaner.Lib
