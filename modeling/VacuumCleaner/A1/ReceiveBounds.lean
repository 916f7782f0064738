import VacuumCleaner.A1.LineReader
import VacuumCleaner.Lib.CMemory

/-! What the receiving side touches of its buffers while it reads a stream and
takes its lines apart. -/
namespace VacuumCleaner.A1.LineReader

open Lib.Hex Lib.CText Lib.CMemory InstructionHandler

inductive Buffer
  | command | value | commandArray | requestIdArray
  deriving DecidableEq, Repr

def Buffer.size : Buffer → Nat
  | .command => maxCommandSize
  | .value => maxInputSize
  | .commandArray => commandSize + 1
  | .requestIdArray => idSize + 1

/-- The copy of `count` digits into a zeroed array, and the call of `strtol`. -/
def numberAccesses (array : Buffer) (start count : Nat) (input : List Char) : List (Access Buffer) :=
  span array 0 (count + 1) ++ span .command start (readCount count (input.drop start)) ++
    span array 0 count ++
      span array 0 (strtolHexRead (cString (strncpy (count + 1) count (input.drop start))))

def fetchCommandAccesses : List Char → List (Access Buffer) :=
  numberAccesses .commandArray 1 commandSize

def fetchRequestIdAccesses : List Char → List (Access Buffer) :=
  numberAccesses .requestIdArray (1 + commandSize + 1) idSize

/-- The copy of the parameters into the zeroed `value`. -/
def valueAccesses (input : List Char) : List (Access Buffer) :=
  let start := 1 + commandSize + 1 + idSize + 1
  span .value 0 maxInputSize ++ span .command start (readCount maxInputSize (input.drop start)) ++
    span .value 0 maxInputSize

/-- All that `_handle` reads and writes before it calls a callback. -/
def handleAccesses (input : List Char) : List (Access Buffer) :=
  ⟨.command, 0⟩ ::
    if charAt input 0 ≠ startPrefix then [] else
  ⟨.command, commandSize + 1⟩ ::
    if charAt input (commandSize + 1) ≠ idDevider then [] else
  ⟨.command, commandSize + 1 + idSize + 1⟩ ::
    if charAt input (commandSize + 1 + idSize + 1) ≠ parametersDevider then [] else
  fetchCommandAccesses input ++ fetchRequestIdAccesses input ++ valueAccesses input

/-- The write of a byte, and what is done with a complete line. -/
def Reading.accesses (beyond : List Char) (look : Poll) (reading : Reading) : List (Access Buffer) :=
  (look.symbol.map fun _ => ⟨.command, reading.collected.length⟩).toList ++
    match reading.turn look with
    | some .ready =>
      handleAccesses ((reading.extend look).collected.rightpad maxCommandSize nul ++ beyond)
    | _ => []

namespace Reader

/-- The accesses of one look at the port; a reading begins with `memset`. -/
def accesses (beyond : List Char) (look : Poll) (reader : Reader) : List (Access Buffer) :=
  match reader.begun look with
  | none => []
  | some reading =>
    (if reader.reading.isNone then span .command 0 maxCommandSize else []) ++
      reading.accesses beyond look

/-- All accesses are inside, and a callback gets a string. -/
structure StaysInside (beyond : List Char) (polls : List Poll) : Prop where
  inside : ∀ before look after, polls = before ++ look :: after →
    Inside Buffer.size ((run beyond before).accesses beyond look)
  terminated : ∀ handed ∈ (run beyond polls).handed, ∀ callback requestId value,
    handle (handed.buffer ++ beyond) = .ok callback requestId value →
      value.length = maxInputSize ∧ nul ∈ value

/-- The LF is about to fill the last place of the buffer, behind separators in
their places and parameters without a NUL. -/
def FillsBuffer (look : Poll) (reader : Reader) : Prop :=
  look.symbol = some '\n' ∧ ∃ reading, reader.reading = some reading ∧
    reading.collected.length + 1 = maxCommandSize ∧
      charAt reading.collected 0 = startPrefix ∧
      charAt reading.collected (commandSize + 1) = idDevider ∧
      charAt reading.collected (commandSize + 1 + idSize + 1) = parametersDevider ∧
      nul ∉ reading.collected.drop (1 + commandSize + 1 + idSize + 1)

end Reader

theorem numberAccesses_inside {array : Buffer} {start count : Nat} (input : List Char)
    (harray : array.size = count + 1) (hstart : start + count ≤ maxCommandSize) :
    Inside Buffer.size (numberAccesses array start count input) := by
  have hcopy : (cString (strncpy (count + 1) count (input.drop start))).length ≤ count := by
    rw [cString_strncpy]
    exact List.length_take_le ..
  have hread := readCount_le count (input.drop start)
  have hstrtol := strtolHexRead_le (cString (strncpy (count + 1) count (input.drop start)))
  have hcommand : Buffer.size .command = maxCommandSize := rfl
  simp only [numberAccesses, inside_append, inside_span, harray, hcommand]
  refine ⟨⟨⟨?_, ?_⟩, ?_⟩, ?_⟩ <;> omega

theorem handleAccesses_inside_iff (input : List Char) :
    Inside Buffer.size (handleAccesses input) ↔
      (charAt input 0 = startPrefix → charAt input (commandSize + 1) = idDevider →
        charAt input (commandSize + 1 + idSize + 1) = parametersDevider →
          readCount maxInputSize (input.drop (1 + commandSize + 1 + idSize + 1)) ≤
            maxCommandSize - (1 + commandSize + 1 + idSize + 1)) := by
  have hcommand : Inside Buffer.size (fetchCommandAccesses input) :=
    numberAccesses_inside input rfl (by decide)
  have hid : Inside Buffer.size (fetchRequestIdAccesses input) :=
    numberAccesses_inside input rfl (by decide)
  have hvalue : Inside Buffer.size (valueAccesses input) ↔
      readCount maxInputSize (input.drop (1 + commandSize + 1 + idSize + 1)) ≤
        maxCommandSize - (1 + commandSize + 1 + idSize + 1) := by
    simp [valueAccesses, Buffer.size, maxCommandSize, maxInputSize, commandSize, idSize]
    omega
  have hsize : Buffer.size .command = maxCommandSize := rfl
  have hplaces : 0 < maxCommandSize ∧ commandSize + 1 < maxCommandSize ∧
      commandSize + 1 + idSize + 1 < maxCommandSize := by decide
  unfold handleAccesses
  split
  · rename_i hfirst
    exact iff_of_true (by simpa [hsize] using hplaces.1) fun h => absurd h hfirst
  · split
    · rename_i hfirst hsecond
      exact iff_of_true (by simpa [hsize] using ⟨hplaces.1, hplaces.2.1⟩)
        fun _ h => absurd h hsecond
    · split
      · rename_i hfirst hsecond hthird
        exact iff_of_true (by simpa [hsize] using hplaces) fun _ _ h => absurd h hthird
      · rename_i hfirst hsecond hthird
        simp only [inside_cons, inside_append, hsize, hplaces, hcommand, hid, hvalue, true_and,
          not_not.mp hfirst, not_not.mp hsecond, not_not.mp hthird, true_imp_iff]

section buffer

variable {collected : List Char}

theorem charAt_buffer_eq_iff (beyond : List Char) {index : Nat} {separator : Char}
    (hindex : index < maxCommandSize) (hnewline : separator ≠ '\n') (hnul : separator ≠ nul) :
    charAt ((collected ++ ['\n']).rightpad maxCommandSize nul ++ beyond) index = separator ↔
      charAt collected index = separator := by
  unfold charAt List.rightpad
  rw [List.getD_eq_getElem?_getD, List.getD_eq_getElem?_getD, List.append_assoc, List.append_assoc]
  by_cases hcollected : index < collected.length
  · rw [List.getElem?_append_left hcollected]
  · rw [List.getElem?_eq_none (l := collected) (by omega),
      List.getElem?_append_right (by omega), Option.getD_none]
    refine iff_of_false ?_ hnul.symm
    cases hbehind : index - collected.length with
    | zero => exact hnewline.symm
    | succ offset =>
      have hpad : offset < maxCommandSize - (collected ++ ['\n']).length := by
        rw [List.length_append, List.length_singleton]
        omega
      rw [List.singleton_append, List.getElem?_cons_succ,
        List.getElem?_append_left (by rwa [List.length_replicate]),
        List.getElem?_replicate_of_lt hpad]
      exact hnul.symm

theorem nul_mem_drop_buffer_iff {start : Nat} (hstart : start + 1 < maxCommandSize)
    (hroom : collected.length < maxCommandSize) :
    nul ∈ ((collected ++ ['\n']).rightpad maxCommandSize nul).drop start ↔
      collected.length + 1 < maxCommandSize ∨ nul ∈ collected.drop start := by
  unfold List.rightpad
  rw [List.length_append, List.length_singleton]
  by_cases hfull : collected.length + 1 < maxCommandSize
  · obtain ⟨count, hcount⟩ := Nat.exists_eq_add_of_lt hfull
    have hpad : maxCommandSize - (collected.length + 1) = count + 1 := by omega
    refine iff_of_true ?_ (.inl hfull)
    rw [hpad, List.replicate_succ', ← List.append_assoc, List.drop_append_of_le_length]
    · exact List.mem_append_right _ (List.mem_singleton_self _)
    · simp only [List.length_append, List.length_singleton, List.length_replicate]
      omega
  · have hpad : maxCommandSize - (collected.length + 1) = 0 := by omega
    rw [hpad, List.replicate_zero, List.append_nil, List.drop_append_of_le_length (by omega),
      List.mem_append, or_iff_right hfull]
    exact or_iff_left (by decide)

theorem nul_mem_strncpy {size count : Nat} {source : List Char}
    (hshort : (cString source).length < size) : nul ∈ strncpy size count source := by
  unfold strncpy List.rightpad
  refine List.mem_append_right _ (List.mem_replicate.mpr ⟨?_, rfl⟩)
  have hle := List.length_take_le' count (cString source)
  omega

end buffer

namespace Reading

variable {reading : Reading} {look : Poll} (beyond : List Char)

/-- Whether the parameters of a line end inside the command buffer. -/
def HasEnd (reading : Reading) : Prop :=
  charAt reading.collected 0 = startPrefix →
    charAt reading.collected (commandSize + 1) = idDevider →
      charAt reading.collected (commandSize + 1 + idSize + 1) = parametersDevider →
        reading.collected.length + 1 < maxCommandSize ∨
          nul ∈ reading.collected.drop (1 + commandSize + 1 + idSize + 1)

theorem readCount_value_le_iff (hroom : reading.collected.length < maxCommandSize) :
    readCount maxInputSize (((reading.collected ++ ['\n']).rightpad maxCommandSize nul ++
        beyond).drop (1 + commandSize + 1 + idSize + 1)) ≤
        maxCommandSize - (1 + commandSize + 1 + idSize + 1) ↔
      reading.collected.length + 1 < maxCommandSize ∨
        nul ∈ reading.collected.drop (1 + commandSize + 1 + idSize + 1) := by
  have hlength : ((reading.collected ++ ['\n']).rightpad maxCommandSize nul).length =
      maxCommandSize := by
    rw [List.length_rightpad, List.length_append, List.length_singleton]
    omega
  have hdrop : (((reading.collected ++ ['\n']).rightpad maxCommandSize nul).drop
      (1 + commandSize + 1 + idSize + 1)).length =
      maxCommandSize - (1 + commandSize + 1 + idSize + 1) := by
    rw [List.length_drop, hlength]
  rw [List.drop_append_of_le_length (by rw [hlength]; decide), ← hdrop,
    readCount_append_le_iff beyond (by rw [hdrop]; decide),
    nul_mem_drop_buffer_iff (by decide) hroom]

theorem handleAccesses_inside_iff (hroom : reading.collected.length < maxCommandSize) :
    Inside Buffer.size (handleAccesses
        ((reading.collected ++ ['\n']).rightpad maxCommandSize nul ++ beyond)) ↔
      reading.HasEnd := by
  rw [LineReader.handleAccesses_inside_iff, readCount_value_le_iff beyond hroom,
    charAt_buffer_eq_iff beyond (by decide) (by decide) (by decide),
    charAt_buffer_eq_iff beyond (by decide) (by decide) (by decide),
    charAt_buffer_eq_iff beyond (by decide) (by decide) (by decide), HasEnd]

theorem HasEnd.terminated {callback : Callback} {requestId : RequestId} {value : List Char}
    (hroom : reading.collected.length < maxCommandSize) (hend : reading.HasEnd)
    (hhandle : handle ((reading.collected ++ ['\n']).rightpad maxCommandSize nul ++ beyond) =
      .ok callback requestId value) : value.length = maxInputSize ∧ nul ∈ value := by
  unfold handle at hhandle
  split at hhandle
  · cases hhandle
  · rename_i hplaced
    push Not at hplaced
    obtain ⟨hfirst, hsecond, hthird⟩ := hplaced
    rw [charAt_buffer_eq_iff beyond (by decide) (by decide) (by decide)] at hfirst hsecond hthird
    have hread := (readCount_value_le_iff beyond hroom).mpr (hend hfirst hsecond hthird)
    dsimp only at hhandle
    split at hhandle
    · cases hhandle
      constructor
      · unfold strncpy
        rw [List.length_rightpad, Nat.max_eq_left (List.length_take_le ..)]
      · apply nul_mem_strncpy
        unfold readCount at hread
        have hlimits : maxCommandSize - (1 + commandSize + 1 + idSize + 1) < maxInputSize := by
          decide
        omega
    · cases hhandle

theorem turn_eq_ready_iff : reading.turn look = some .ready ↔ look.symbol = some '\n' := by
  unfold turn
  split
  · rename_i symbol hsymbol
    rw [hsymbol, Option.some.injEq]
    by_cases hnewline : symbol = '\n'
    · exact iff_of_true (if_pos hnewline) hnewline
    · refine iff_of_false ?_ hnewline
      rw [if_neg hnewline]
      split
      · simp
      · split <;> simp
  · rename_i hsymbol
    refine iff_of_false ?_ (by simp [hsymbol])
    split <;> simp

theorem accesses_inside_iff (hroom : reading.collected.length < maxCommandSize) :
    Inside Buffer.size (reading.accesses beyond look) ↔
      (look.symbol = some '\n' → reading.HasEnd) := by
  have hwrite : Inside Buffer.size
      (look.symbol.map fun _ => Access.mk Buffer.command reading.collected.length).toList := by
    cases look.symbol
    · exact inside_nil
    · exact inside_cons.mpr ⟨hroom, inside_nil⟩
  unfold accesses
  rw [inside_append, and_iff_right hwrite]
  split
  · rename_i hturn
    have hnewline := turn_eq_ready_iff.mp hturn
    have hextend : (reading.extend look).collected = reading.collected ++ ['\n'] := by
      rw [extend, hnewline]
      rfl
    rw [hextend, handleAccesses_inside_iff beyond hroom]
    exact ⟨fun h _ => h, fun h => h hnewline⟩
  · rename_i hturn
    exact iff_of_true inside_nil fun hnewline => absurd (turn_eq_ready_iff.mpr hnewline) hturn

end Reading

namespace Reader

variable {beyond : List Char} {polls : List Poll} {reader : Reader} {look : Poll}
  {reading : Reading}

theorem fillsBuffer_iff (htracks : Tracks polls reader) (hbegun : reader.begun look = some reading) :
    reader.FillsBuffer look ↔ look.symbol = some '\n' ∧ ¬ reading.HasEnd := by
  have hroom := (htracks.begun hbegun).room
  constructor
  · rintro ⟨hnewline, current, hreading, hfull, hfirst, hsecond, hthird, hnul⟩
    have hsame : reading = current := by
      rw [begun, hreading] at hbegun
      exact (Option.some.inj hbegun).symm
    subst hsame
    refine ⟨hnewline, fun hend => ?_⟩
    rcases hend hfirst hsecond hthird with hshort | hmem
    · omega
    · exact hnul hmem
  · rintro ⟨hnewline, hend⟩
    unfold Reading.HasEnd at hend
    push Not at hend
    obtain ⟨hfirst, hsecond, hthird, hfull, hnul⟩ := hend
    refine ⟨hnewline, reading, ?_, by omega, hfirst, hsecond, hthird, hnul⟩
    unfold begun at hbegun
    split at hbegun
    · rename_i hreading
      exact hreading.trans hbegun
    · split at hbegun
      · cases hbegun
        exact absurd hfull (Nat.not_le.mpr (by decide : 1 < maxCommandSize))
      · cases hbegun

theorem accesses_inside_iff (htracks : Tracks polls reader) :
    Inside Buffer.size (reader.accesses beyond look) ↔ ¬ reader.FillsBuffer look := by
  unfold accesses
  cases hbegun : reader.begun look with
  | none =>
    refine iff_of_true inside_nil ?_
    rintro ⟨-, reading, hreading, -⟩
    rw [begun, hreading] at hbegun
    cases hbegun
  | some reading =>
    have hmemset : Inside Buffer.size
        (if reader.reading.isNone then span .command 0 maxCommandSize else []) := by
      split
      · exact inside_span.mpr (.inr (Nat.zero_add _).le)
      · exact inside_nil
    have hroom := (htracks.begun hbegun).room
    rw [inside_append, and_iff_right hmemset, reading.accesses_inside_iff beyond hroom,
      fillsBuffer_iff htracks hbegun, not_and_not_right]

theorem terminated_poll (htracks : Tracks polls reader) (hlook : ¬ reader.FillsBuffer look)
    (hall : ∀ handed ∈ reader.handed, ∀ callback requestId value,
      handle (handed.buffer ++ beyond) = .ok callback requestId value →
        value.length = maxInputSize ∧ nul ∈ value) :
    ∀ handed ∈ (reader.poll beyond look).handed, ∀ callback requestId value,
      handle (handed.buffer ++ beyond) = .ok callback requestId value →
        value.length = maxInputSize ∧ nul ∈ value := by
  have hpolled : Polled beyond reader look (reader.poll beyond look) :=
    polled fun reading hreading => (htracks.reading reading hreading).1
  generalize reader.poll beyond look = next at hpolled ⊢
  cases hpolled with
  | idle => exact hall
  | @ready reading hbegun hnewline =>
    have hend : reading.HasEnd := by
      by_contra hend
      exact hlook ((fillsBuffer_iff htracks hbegun).mpr ⟨hnewline, hend⟩)
    intro handed hhanded callback requestId value hhandle
    rcases List.mem_append.mp hhanded with hhanded | hhanded
    · exact hall handed hhanded callback requestId value hhandle
    · rw [List.mem_singleton.mp hhanded, Reading.extend, hnewline] at hhandle
      exact hend.terminated beyond (htracks.begun hbegun).room hhandle
  | isOver => exact hall
  | goesOn => exact hall

/-- A run stays inside its buffers exactly when no line of an instruction fills
the command buffer. -/
theorem staysInside_iff (beyond : List Char) (polls : List Poll) :
    StaysInside beyond polls ↔ ∀ before look after, polls = before ++ look :: after →
      ¬ (run beyond before).FillsBuffer look := by
  constructor
  · intro hstays before look after hsplit
    exact (accesses_inside_iff (tracks beyond before)).mp (hstays.inside before look after hsplit)
  · intro hfits
    refine ⟨fun before look after hsplit => (accesses_inside_iff (tracks beyond before)).mpr
      (hfits before look after hsplit), ?_⟩
    induction polls using List.reverseRecOn with
    | nil => simp [run]
    | append_singleton polls look ih =>
      rw [run_append]
      refine terminated_poll (tracks beyond polls) (hfits polls look [] rfl) (ih ?_)
      intro before other after hsplit
      apply hfits before other (after ++ [look])
      rw [hsplit, List.append_assoc, List.cons_append]

/-- An instruction with 97 characters of parameters, which is as long as the
command buffer. -/
def filling : List Poll :=
  ("#10:0000:".toList ++ List.replicate 97 'x' ++ ['\n']).map fun symbol => { symbol }

theorem not_staysInside_filling : ¬ StaysInside [] filling ∧
    (run [] filling).handed.map (fun handed => handed.buffer.length) = [maxCommandSize] ∧
    ⟨.command, maxCommandSize⟩ ∈
      (run [] (filling.take 106)).accesses [] { symbol := some '\n' } := by
  have hread : ⟨.command, maxCommandSize⟩ ∈
      (run [] (filling.take 106)).accesses [] { symbol := some '\n' } := by
    decide +kernel
  refine ⟨fun hstays => ?_, by decide +kernel, hread⟩
  have hinside := hstays.inside (filling.take 106) { symbol := some '\n' } [] (by decide +kernel)
  exact absurd (hinside _ hread) (Nat.lt_irrefl maxCommandSize)

end Reader

end VacuumCleaner.A1.LineReader
