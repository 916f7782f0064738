import Mathlib.Data.List.Induction
import Mathlib.Data.List.Infix

/-! A stream cut into lines. A line ends with a mark of one or more symbols,
and chunks of the stream may end anywhere, also inside of a mark. -/
namespace VacuumCleaner.Lib.Lines

universe u

variable {α : Type u} {mark stream : List α}

/-- A stream of complete lines. -/
def joined (mark : List α) (lines : List (List α)) : List α := lines.flatMap (· ++ mark)

/-- Behind the line is the first mark in it. -/
def EndsFirst (mark line : List α) : Prop :=
  ∀ position < line.length, ¬ mark <+: (line ++ mark).drop position

/-- The lines that a stream has brought, and what waits for its mark. -/
structure Cut (mark stream : List α) (lines : List (List α)) (rest : List α) : Prop where
  whole : stream = joined mark lines ++ rest
  first : ∀ line ∈ lines, EndsFirst mark line
  clear : ¬ mark <:+: rest

@[simp] theorem joined_nil : joined mark [] = [] := rfl

@[simp] theorem joined_cons (line : List α) (lines : List (List α)) :
    joined mark (line :: lines) = line ++ mark ++ joined mark lines := rfl

@[simp] theorem joined_append (early late : List (List α)) :
    joined mark (early ++ late) = joined mark early ++ joined mark late := List.flatMap_append

theorem EndsFirst.length_le {left right behind after : List α} (hright : EndsFirst mark right)
    (h : left ++ mark ++ behind = right ++ mark ++ after) : right.length ≤ left.length := by
  by_contra hshort
  have hlt := Nat.not_le.mp hshort
  apply hright left.length hlt
  have hdrop := congrArg (List.drop left.length) h
  rw [List.append_assoc, List.drop_left,
    List.drop_append_of_le_length (by rw [List.length_append]; omega)] at hdrop
  have hmark : mark <+: mark ++ behind := List.prefix_append _ _
  refine List.prefix_of_prefix_length_le hmark ?_ ?_
  · rw [hdrop]
    exact List.prefix_append _ _
  · rw [List.length_drop, List.length_append]
    omega

theorem Cut.unique {lines others : List (List α)} {rest otherRest : List α}
    (hcut : Cut mark stream lines rest) (hother : Cut mark stream others otherRest) :
    lines = others ∧ rest = otherRest := by
  have hinfix : ∀ line tail : List α, mark <:+: line ++ mark ++ tail :=
    fun line tail => ⟨line, tail, rfl⟩
  induction lines generalizing stream others with
  | nil =>
    have hsame := hcut.whole.symm.trans hother.whole
    cases others with
    | nil => exact ⟨rfl, hsame⟩
    | cons line others =>
      refine absurd ?_ hcut.clear
      rw [joined_nil, List.nil_append, joined_cons, List.append_assoc] at hsame
      rw [hsame]
      exact hinfix line _
  | cons line lines ih =>
    have hsame := hcut.whole.symm.trans hother.whole
    cases others with
    | nil =>
      refine absurd ?_ hother.clear
      rw [joined_nil, List.nil_append, joined_cons, List.append_assoc] at hsame
      rw [← hsame]
      exact hinfix line _
    | cons other others =>
      replace hsame : line ++ mark ++ (joined mark lines ++ rest) =
          other ++ mark ++ (joined mark others ++ otherRest) := by
        simpa only [joined_cons, List.append_assoc] using hsame
      have hlength : line.length = other.length := Nat.le_antisymm
        ((hcut.first line (.head _)).length_le hsame.symm)
        ((hother.first other (.head _)).length_le hsame)
      obtain ⟨hhead, htail⟩ := List.append_inj hsame (by simp [hlength])
      obtain rfl := List.append_cancel_right hhead
      obtain ⟨rfl, rfl⟩ := ih ⟨rfl, fun line hline => hcut.first line (.tail _ hline), hcut.clear⟩
        ⟨htail, fun line hline => hother.first line (.tail _ hline), hother.clear⟩
      exact ⟨rfl, rfl⟩

theorem Cut.append {chunk rest last : List α} {lines more : List (List α)}
    (hcut : Cut mark stream lines rest) (hmore : Cut mark (rest ++ chunk) more last) :
    Cut mark (stream ++ chunk) (lines ++ more) last where
  whole := by
    rw [hcut.whole, joined_append, List.append_assoc, hmore.whole, List.append_assoc]
  first line hline := (List.mem_append.mp hline).elim (hcut.first line) (hmore.first line)
  clear := hmore.clear

theorem cut_nil (hmark : mark ≠ []) : Cut mark [] [] [] :=
  ⟨rfl, by simp, by simpa using hmark⟩

theorem cut_joined (hmark : mark ≠ []) {lines : List (List α)}
    (hlines : ∀ line ∈ lines, EndsFirst mark line) : Cut mark (joined mark lines) lines [] :=
  ⟨(List.append_nil _).symm, hlines, by simpa using hmark⟩

theorem endsFirst_of_not_mem {symbol : α} {others line : List α} (h : symbol ∉ line) :
    EndsFirst (symbol :: others) line := by
  rintro position hposition ⟨tail, htail⟩
  rw [List.drop_append_of_le_length hposition.le, List.drop_eq_getElem_cons hposition] at htail
  simp only [List.cons_append, List.cons.injEq] at htail
  exact h (htail.1 ▸ List.getElem_mem hposition)

/-! A reader that looks for the mark behind each symbol. -/

theorem suffix_of_infix_concat {read : List α} {symbol : α} (hold : ¬ mark <:+: read)
    (hnew : mark <:+: read ++ [symbol]) : mark <:+ read ++ [symbol] := by
  obtain ⟨before, behind, hsplit⟩ := hnew
  rcases List.eq_nil_or_concat behind with rfl | ⟨initial, last, rfl⟩
  · exact ⟨before, by simpa using hsplit⟩
  · rw [List.concat_eq_append, ← List.append_assoc] at hsplit
    obtain ⟨hread, -⟩ := List.append_singleton_inj.mp hsplit
    exact absurd ⟨before, initial, hread⟩ hold

structure Scanned (α : Type u) where
  lines : List (List α) := []
  rest : List α := []
  deriving DecidableEq, Repr

section scan

variable [DecidableEq α]

def scanSymbol (mark : List α) (scanned : Scanned α) (symbol : α) : Scanned α :=
  let read := scanned.rest ++ [symbol]
  if mark <:+ read then
    { lines := scanned.lines ++ [read.take (read.length - mark.length)], rest := [] }
  else { scanned with rest := read }

def scan (mark stream : List α) : Scanned α := stream.foldl (scanSymbol mark) {}

theorem cut_scanSymbol (hmark : mark ≠ []) {scanned : Scanned α} (symbol : α)
    (hcut : Cut mark stream scanned.lines scanned.rest) :
    Cut mark (stream ++ [symbol]) (scanSymbol mark scanned symbol).lines
      (scanSymbol mark scanned symbol).rest := by
  unfold scanSymbol
  dsimp only
  split
  · rename_i hsuffix
    obtain ⟨line, hline⟩ := hsuffix
    have hlength := congrArg List.length hline
    simp only [List.length_append, List.length_singleton] at hlength
    have htake : (scanned.rest ++ [symbol]).take
        ((scanned.rest ++ [symbol]).length - mark.length) = line := by
      rw [← hline, List.length_append, Nat.add_sub_cancel, List.take_left]
    rw [htake]
    refine hcut.append ⟨by simp [hline], ?_, by simpa using hmark⟩
    rintro other hother position hposition hpre
    obtain rfl := List.mem_singleton.mp hother
    apply hcut.clear
    -- The mark would stand in front of the last symbol.
    have hread : other ++ mark.dropLast = scanned.rest := by
      have hdrop := congrArg List.dropLast hline
      rwa [List.dropLast_concat, List.dropLast_append_of_ne_nil hmark] at hdrop
    have hpos := List.length_pos_iff.mpr hmark
    have hwithin : mark <+: scanned.rest.drop position := by
      rw [hline, List.drop_append_of_le_length (by omega)] at hpre
      refine List.prefix_of_prefix_length_le hpre (List.prefix_append _ _) ?_
      rw [List.length_drop]
      omega
    exact hwithin.isInfix.trans (List.drop_suffix _ _).isInfix
  · rename_i hnot
    have hclear : ¬ mark <:+: scanned.rest ++ [symbol] :=
      fun hinfix => hnot (suffix_of_infix_concat hcut.clear hinfix)
    have hmore : Cut mark (scanned.rest ++ [symbol]) [] (scanned.rest ++ [symbol]) :=
      ⟨rfl, by simp, hclear⟩
    simpa using hcut.append hmore

theorem cut_scan (hmark : mark ≠ []) (stream : List α) :
    Cut mark stream (scan mark stream).lines (scan mark stream).rest := by
  induction stream using List.reverseRecOn with
  | nil => exact cut_nil hmark
  | append_singleton stream symbol ih =>
    rw [scan, List.foldl_append]
    exact cut_scanSymbol hmark symbol ih

end scan

theorem Cut.lines_prefix {whole rest last : List α} {lines others : List (List α)}
    (hmark : mark ≠ []) (hpre : stream <+: whole) (hcut : Cut mark stream lines rest)
    (hwhole : Cut mark whole others last) : lines <+: others := by
  classical
  obtain ⟨chunk, rfl⟩ := hpre
  have hmore := cut_scan hmark (rest ++ chunk)
  obtain ⟨hlines, -⟩ := (hcut.append hmore).unique hwhole
  exact ⟨_, hlines⟩

theorem count_joined [DecidableEq α] {before : List α} {symbol : α} {lines : List (List α)}
    (hbefore : symbol ∉ before) (hlines : ∀ line ∈ lines, symbol ∉ line) :
    (joined (before ++ [symbol]) lines).count symbol = lines.length := by
  induction lines with
  | nil => rfl
  | cons line lines ih =>
    rw [joined_cons, List.count_append, List.count_append, List.count_append,
      List.count_eq_zero.mpr (hlines line (.head _)), List.count_eq_zero.mpr hbefore,
      ih fun other hother => hlines other (.tail _ hother), List.count_singleton_self,
      List.length_cons]
    omega

/-- Where nothing but a mark has its last symbol, there are as many lines as
such symbols, also in front of the rest. -/
theorem Cut.count [DecidableEq α] (before : List α) {rest : List α} {symbol : α}
    {lines others : List (List α)} (hcut : Cut (before ++ [symbol]) stream lines rest)
    (hpre : stream <+: joined (before ++ [symbol]) others) (hbefore : symbol ∉ before)
    (hothers : ∀ other ∈ others, EndsFirst (before ++ [symbol]) other ∧ symbol ∉ other) :
    stream.count symbol = lines.length := by
  have hmark : before ++ [symbol] ≠ [] := by simp
  obtain ⟨more, rfl⟩ := hcut.lines_prefix hmark hpre
    (cut_joined hmark fun other hother => (hothers other hother).1)
  have hlines : ∀ line ∈ lines, symbol ∉ line :=
    fun line hline => (hothers line (List.mem_append_left _ hline)).2
  rw [hcut.whole, joined_append, List.prefix_append_right_inj] at hpre
  rw [hcut.whole, List.count_append, count_joined hbefore hlines]
  suffices hrest : symbol ∉ rest by rw [List.count_eq_zero.mpr hrest, Nat.add_zero]
  cases more with
  | nil =>
    rw [List.eq_nil_of_prefix_nil hpre]
    exact List.not_mem_nil
  | cons line more =>
    rw [joined_cons] at hpre
    have hline := (hothers line (List.mem_append_right _ (.head _))).2
    obtain hshort | hlong := Nat.lt_or_ge rest.length (line ++ (before ++ [symbol])).length
    · have hfront : rest <+: line ++ before := by
        refine List.prefix_of_prefix_length_le hpre ?_ ?_
        · rw [List.append_assoc, List.append_assoc, List.prefix_append_right_inj]
          exact List.prefix_append _ _
        · simp only [List.length_append, List.length_singleton] at hshort ⊢
          omega
      intro hmem
      exact (List.mem_append.mp (hfront.subset hmem)).elim hline hbefore
    · -- The rest would hold the mark of the next line.
      have hwhole : line ++ (before ++ [symbol]) <+: rest :=
        List.prefix_of_prefix_length_le (List.prefix_append _ _) hpre hlong
      exact absurd ((List.suffix_append _ _).isInfix.trans hwhole.isInfix) hcut.clear

/-- What cuts a buffer at its marks, by whatever means. -/
structure Splitter (mark : List α) where
  split : List α → List (List α) × List α
  cuts : ∀ buffer, Cut mark buffer (split buffer).1 (split buffer).2

/-- The scanner is one. -/
def scanner [DecidableEq α] (mark : List α) (hmark : mark ≠ []) : Splitter mark where
  split buffer := ((scan mark buffer).lines, (scan mark buffer).rest)
  cuts := cut_scan hmark

namespace Splitter

variable (splitter : Splitter mark)

/-- The lines that chunks bring one after the other, and the rest in the buffer. -/
def run (buffer : List α) : List (List α) → List (List α) × List α
  | [] => ([], buffer)
  | chunk :: chunks =>
    let (lines, rest) := splitter.split (buffer ++ chunk)
    let (more, last) := run rest chunks
    (lines ++ more, last)

theorem cut_run {buffer : List α} {lines : List (List α)}
    (hbuffer : Cut mark stream lines buffer) (chunks : List (List α)) :
    Cut mark (stream ++ chunks.flatten) (lines ++ (splitter.run buffer chunks).1)
      (splitter.run buffer chunks).2 := by
  induction chunks generalizing stream lines buffer with
  | nil => simpa [run] using hbuffer
  | cons chunk chunks ih =>
    have hnext := ih (hbuffer.append (splitter.cuts (buffer ++ chunk)))
    rw [List.append_assoc, List.append_assoc] at hnext
    exact hnext

end Splitter

end VacuumCleaner.Lib.Lines
