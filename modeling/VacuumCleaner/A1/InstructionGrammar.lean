import VacuumCleaner.A1.InstructionHandler

/-! Which received lines `_handle` treats by the grammar of instructions: it
looks at three separators and leaves the two numbers to `strtol`. -/
namespace VacuumCleaner.A1.InstructionHandler

open Lib.Hex Lib.CText

/-- A line as `_read_from_sream` hands it over. -/
structure ReceivedLine where
  text : List Char
  body : List Char
  text_eq : text = body ++ ['\n']
  no_newline : '\n' ∉ body
  length_le : text.length ≤ maxCommandSize

namespace ReceivedLine

variable (line : ReceivedLine) (beyond : List Char)

/-- The command buffer with the line in it, and the memory behind the buffer. -/
def memory : List Char := line.text.rightpad maxCommandSize nul ++ beyond

/-- `#`, two digits of the instruction, `:`, four digits of the request, `:` and parameters. -/
def HasShape (command id parameters : List Char) : Prop :=
  line.text = startPrefix :: (command ++ idDevider :: (id ++ parametersDevider :: parameters)) ∧
    (command.length = commandSize ∧ ∀ c ∈ command, isHexDigit c = true) ∧
    (id.length = idSize ∧ ∀ c ∈ id, isHexDigit c = true)

/-- What the line does is what its shape says. -/
structure FollowsGrammar : Prop where
  runs : ∀ callback requestId, (∃ value, handle (line.memory beyond) = .ok callback requestId value) ↔
    ∃ command id parameters, line.HasShape command id parameters ∧
      (hexValue command, callback) ∈ instructions ∧ requestId = UInt16.ofNat (hexValue id)
  undefined : handle (line.memory beyond) = .undefinedCommand ↔
    ∃ command id parameters, line.HasShape command id parameters ∧
      ∀ callback, (hexValue command, callback) ∉ instructions
  wrong : handle (line.memory beyond) = .wrongInstruction ↔
    ¬ ∃ command id parameters, line.HasShape command id parameters

/-- The three separators are in their places. -/
def HasSeparators : Prop :=
  charAt line.text 0 = startPrefix ∧ charAt line.text (commandSize + 1) = idDevider ∧
    charAt line.text (commandSize + 1 + idSize + 1) = parametersDevider

/-- The places of the digits hold digits. -/
def HasDigits : Prop := ∀ index ∈ [1, 2, 4, 5, 6, 7], isHexDigit (charAt line.text index) = true

end ReceivedLine

theorem find_instructions_eq_some_iff {command : Nat} {callback : Callback} :
    instructions.find? (·.1 = command) = some (command, callback) ↔
      (command, callback) ∈ instructions := by
  have hunique : ∀ first ∈ instructions, ∀ second ∈ instructions,
      first.1 = second.1 → first = second := by decide
  constructor
  · exact List.mem_of_find?_eq_some
  · intro hmem
    cases hfind : instructions.find? (·.1 = command) with
    | none =>
      have hnone := List.find?_eq_none.mp hfind _ hmem
      simp at hnone
    | some found =>
      have hsame : found.1 = command := by simpa using List.find?_some hfind
      rw [hunique found (List.mem_of_find?_eq_some hfind) _ hmem hsame]

namespace ReceivedLine

variable (line : ReceivedLine) (beyond : List Char)

theorem charAt_memory {index : Nat} (hindex : index < maxCommandSize) :
    charAt (line.memory beyond) index = charAt line.text index := by
  unfold charAt memory List.rightpad
  rw [List.getD_eq_getElem?_getD, List.getD_eq_getElem?_getD, List.append_assoc]
  by_cases hline : index < line.text.length
  · rw [List.getElem?_append_left hline]
  · have hpad : index - line.text.length <
        (List.replicate (maxCommandSize - line.text.length) nul).length := by
      rw [List.length_replicate]
      omega
    rw [List.getElem?_append_right (by omega), List.getElem?_append_left hpad,
      List.getElem?_replicate_of_lt (by simpa using hpad), List.getElem?_eq_none (by omega)]
    rfl

theorem handle_eq_wrongInstruction_iff :
    handle (line.memory beyond) = .wrongInstruction ↔ ¬ line.HasSeparators := by
  have hfirst := line.charAt_memory beyond (show 0 < maxCommandSize by decide)
  have hsecond := line.charAt_memory beyond (show commandSize + 1 < maxCommandSize by decide)
  have hthird := line.charAt_memory beyond
    (show commandSize + 1 + idSize + 1 < maxCommandSize by decide)
  unfold handle HasSeparators
  rw [hfirst, hsecond, hthird]
  split
  · rename_i hmissing
    refine iff_of_true rfl ?_
    rintro ⟨h1, h2, h3⟩
    rcases hmissing with h | h | h
    · exact h h1
    · exact h h2
    · exact h h3
  · rename_i hplaced
    push Not at hplaced
    refine iff_of_false ?_ (not_not_intro hplaced)
    dsimp only
    split <;> simp

theorem HasShape.separators {command id parameters : List Char}
    (hshape : line.HasShape command id parameters) : line.HasSeparators ∧ line.HasDigits := by
  obtain ⟨htext, ⟨hcommand, hcommandDigits⟩, hid, hidDigits⟩ := hshape
  match command, hcommand with
  | [c₁, c₂], _ =>
    match id, hid with
    | [i₁, i₂, i₃, i₄], _ =>
      unfold HasSeparators HasDigits
      rw [htext]
      simp only [List.forall_mem_cons] at hcommandDigits hidDigits
      simp [charAt, commandSize, idSize, hcommandDigits, hidDigits]

theorem exists_hasShape (hseparators : line.HasSeparators) (hdigits : line.HasDigits) :
    ∃ command id parameters, line.HasShape command id parameters := by
  obtain ⟨h0, h3, h8⟩ := hseparators
  unfold HasDigits at hdigits
  unfold HasShape
  simp only [List.forall_mem_cons] at hdigits
  obtain ⟨h1, h2, h4, h5, h6, h7, -⟩ := hdigits
  match htext : line.text with
  | c₀ :: c₁ :: c₂ :: c₃ :: c₄ :: c₅ :: c₆ :: c₇ :: c₈ :: rest =>
    rw [htext] at h0 h1 h2 h3 h4 h5 h6 h7 h8
    simp only [charAt, commandSize, idSize, List.getD_cons_zero, List.getD_cons_succ] at *
    subst h0 h3 h8
    exact ⟨[c₁, c₂], [c₄, c₅, c₆, c₇], rest, rfl, ⟨rfl, by simp [h1, h2]⟩, rfl,
      by simp [h4, h5, h6, h7]⟩
  | [] | [_] | [_, _] | [_, _, _] | [_, _, _, _] | [_, _, _, _, _] | [_, _, _, _, _, _]
  | [_, _, _, _, _, _, _] | [_, _, _, _, _, _, _, _] =>
    rw [htext] at h8
    exact absurd (show nul = parametersDevider from h8) (by decide)

theorem handle_of_hasShape {command id parameters : List Char}
    (hshape : line.HasShape command id parameters) :
    (∀ callback, (hexValue command, callback) ∈ instructions → ∃ value,
      handle (line.memory beyond) = .ok callback (UInt16.ofNat (hexValue id)) value) ∧
      ((∀ callback, (hexValue command, callback) ∉ instructions) →
        handle (line.memory beyond) = .undefinedCommand) := by
  obtain ⟨htext, ⟨hcommand, hcommandDigits⟩, hid, hidDigits⟩ := hshape
  have hhandle := handle_wellFormed
    (parameters ++ (List.replicate (maxCommandSize - line.text.length) nul ++ beyond))
    hcommand hcommandDigits hid hidDigits
  have hmemory : line.memory beyond = startPrefix :: (command ++ idDevider :: (id ++
      parametersDevider :: (parameters ++
        (List.replicate (maxCommandSize - line.text.length) nul ++ beyond)))) := by
    unfold memory List.rightpad
    conv_lhs => rw [htext]
    simp [htext]
  rw [hmemory, hhandle]
  constructor
  · intro callback hmem
    rw [find_instructions_eq_some_iff.mpr hmem]
    exact ⟨_, rfl⟩
  · intro hnone
    cases hfind : instructions.find? (·.1 = hexValue command) with
    | none => rfl
    | some found =>
      have hsame : found.1 = hexValue command := by simpa using List.find?_some hfind
      have hmem := List.mem_of_find?_eq_some hfind
      rw [← Prod.mk.eta (p := found), hsame] at hmem
      exact absurd hmem (hnone _)

theorem followsGrammar_of_hasShape {command id parameters : List Char}
    (hshape : line.HasShape command id parameters) : line.FollowsGrammar beyond := by
  obtain ⟨hregistered, hundefined⟩ := line.handle_of_hasShape beyond hshape
  have hcases : (∃ callback value, (hexValue command, callback) ∈ instructions ∧
      handle (line.memory beyond) = .ok callback (UInt16.ofNat (hexValue id)) value) ∨
      (∀ callback, (hexValue command, callback) ∉ instructions) ∧
        handle (line.memory beyond) = .undefinedCommand := by
    by_cases hnone : ∀ callback, (hexValue command, callback) ∉ instructions
    · exact .inr ⟨hnone, hundefined hnone⟩
    · push Not at hnone
      obtain ⟨callback, hmem⟩ := hnone
      obtain ⟨value, hvalue⟩ := hregistered callback hmem
      exact .inl ⟨callback, value, hmem, hvalue⟩
  refine ⟨fun callback requestId => ⟨?_, ?_⟩, ⟨?_, ?_⟩, ?_⟩
  · rintro ⟨value, hvalue⟩
    rcases hcases with ⟨other, otherValue, hmem, hother⟩ | ⟨-, hother⟩
    · rw [hvalue] at hother
      cases hother
      exact ⟨command, id, parameters, hshape, hmem, rfl⟩
    · rw [hvalue] at hother
      cases hother
  · rintro ⟨command, id, parameters, hshape, hmem, rfl⟩
    exact (line.handle_of_hasShape beyond hshape).1 callback hmem
  · intro hvalue
    rcases hcases with ⟨other, otherValue, -, hother⟩ | ⟨hnone, -⟩
    · rw [hvalue] at hother
      cases hother
    · exact ⟨command, id, parameters, hshape, hnone⟩
  · rintro ⟨command, id, parameters, hshape, hnone⟩
    exact (line.handle_of_hasShape beyond hshape).2 hnone
  · refine iff_of_false ?_ (not_not_intro ⟨command, id, parameters, hshape⟩)
    exact fun hwrong =>
      (line.handle_eq_wrongInstruction_iff beyond).mp hwrong (hshape.separators line).1

theorem followsGrammar_of_not_hasSeparators (hseparators : ¬ line.HasSeparators) :
    line.FollowsGrammar beyond := by
  have hwrong := (line.handle_eq_wrongInstruction_iff beyond).mpr hseparators
  have hnone : ∀ command id parameters, ¬ line.HasShape command id parameters :=
    fun command id parameters hshape => hseparators (hshape.separators line).1
  refine ⟨fun callback requestId => iff_of_false ?_ ?_, iff_of_false ?_ ?_, ?_⟩
  · rw [hwrong]
    simp
  · rintro ⟨command, id, parameters, hshape, -⟩
    exact hnone command id parameters hshape
  · rw [hwrong]
    simp
  · rintro ⟨command, id, parameters, hshape, -⟩
    exact hnone command id parameters hshape
  · refine iff_of_true hwrong ?_
    rintro ⟨command, id, parameters, hshape⟩
    exact hnone command id parameters hshape

/-- The grammar is followed exactly by the lines that miss a separator or have
digits in the places of the digits. -/
theorem handle_followsGrammar_iff :
    line.FollowsGrammar beyond ↔ (line.HasSeparators → line.HasDigits) := by
  constructor
  · intro hfollows hseparators
    by_contra hdigits
    have hwrong := hfollows.wrong.mpr fun ⟨_, _, _, hshape⟩ =>
      hdigits (hshape.separators line).2
    exact (line.handle_eq_wrongInstruction_iff beyond).mp hwrong hseparators
  · intro hlegible
    by_cases hseparators : line.HasSeparators
    · obtain ⟨command, id, parameters, hshape⟩ :=
        line.exists_hasShape hseparators (hlegible hseparators)
      exact line.followsGrammar_of_hasShape beyond hshape
    · exact line.followsGrammar_of_not_hasSeparators beyond hseparators

end ReceivedLine

/-- A number is read up to the first character that is no digit, and `1?` is
instruction 1. -/
theorem not_followsGrammar_noise :
    ¬ ∀ (line : ReceivedLine) (beyond : List Char), line.FollowsGrammar beyond := by
  intro hevery
  have hfollows := (hevery ⟨"#1?:0000:S\r\n".toList, "#1?:0000:S\r".toList, rfl, by decide,
    by decide⟩ []).wrong
  refine absurd (hfollows.mpr ?_) (by decide)
  rintro ⟨command, id, parameters, hshape⟩
  exact absurd ((hshape.separators _).2 2 (by decide)) (by decide)

end VacuumCleaner.A1.InstructionHandler
