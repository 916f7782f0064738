import Mathlib.Data.List.DropRight
import VacuumCleaner.A1.InstructionHandler

/-! `perform` in time. The port is looked at again and again; a byte begins a
reading, and a reading ends with an LF, a full buffer or the timeout. -/
namespace VacuumCleaner.A1.LineReader

open Lib.CText InstructionHandler

/-- One look at the port: the byte that it gives, and the two values of
`millis`, before a reading that begins with this look and behind the look. -/
structure Poll where
  symbol : Option Char
  startTime : UInt32 := 0
  now : UInt32 := 0
  deriving DecidableEq, Repr

def Poll.isNewline (poll : Poll) : Bool := poll.symbol == some '\n'

def serialReadingTimeoutMs : UInt32 := 200

/-- A call of `_read_from_sream` under way: `buf` up to `index`, and all bytes
that were read before it. -/
structure Reading where
  before : List Char
  startTime : UInt32
  collected : List Char := []
  deriving DecidableEq, Repr

def Reading.extend (poll : Poll) (reading : Reading) : Reading :=
  { reading with collected := reading.collected ++ poll.symbol.toList }

def Reading.IsLate (poll : Poll) (reading : Reading) : Prop :=
  poll.now - reading.startTime > serialReadingTimeoutMs

instance (poll : Poll) (reading : Reading) : Decidable (reading.IsLate poll) :=
  inferInstanceAs (Decidable (_ < _))

/-- One turn of the loop; without a status it goes on. -/
def Reading.turn (poll : Poll) (reading : Reading) : Option SerialReadingStatus :=
  match poll.symbol with
  | some symbol =>
    if symbol = '\n' then some .ready
    else if (reading.extend poll).collected.length ≥ maxCommandSize then some .error
    else if reading.IsLate poll then some .error else none
  | none => if reading.IsLate poll then some .error else none

/-- What `_handle` is called with, and all bytes that were read before it. -/
structure Handed where
  before : List Char
  buffer : List Char
  deriving DecidableEq, Repr

/-- The reader with what it has read and done; `rejected` holds the bytes read
until each `ERROR`. -/
structure Reader where
  reading : Option Reading := none
  stream : List Char := []
  handed : List Handed := []
  rejected : List (List Char) := []
  sent : List (List Char) := []
  deriving DecidableEq, Repr

/-- The answer of `perform` to a buffer, with the memory behind it. -/
def replyTo (beyond buffer : List Char) : List (List Char) :=
  match handle (buffer ++ beyond) with
  | .undefinedCommand => ["UC".toList]
  | .wrongInstruction => ["WI".toList]
  | .ok .. => []

namespace Reader

variable (beyond : List Char)

/-- The reading that the next turn belongs to: none as long as `available` is 0. -/
def begun (poll : Poll) (reader : Reader) : Option Reading :=
  match reader.reading with
  | some reading => some reading
  | none =>
    if poll.symbol.isSome then some { before := reader.stream, startTime := poll.startTime }
    else none

def handOver (reading : Reading) (reader : Reader) : Reader :=
  let buffer := reading.collected.rightpad maxCommandSize nul
  { reader with
    reading := none
    handed := reader.handed ++ [⟨reading.before, buffer⟩]
    sent := reader.sent ++ replyTo beyond buffer }

def reject (reader : Reader) : Reader :=
  { reader with
    reading := none
    rejected := reader.rejected ++ [reader.stream]
    sent := reader.sent ++ ["SE".toList] }

def read (poll : Poll) (reader : Reader) : Reader :=
  { reader with stream := reader.stream ++ poll.symbol.toList }

def poll (poll : Poll) (reader : Reader) : Reader :=
  match reader.begun poll with
  | none => reader
  | some reading =>
    match reading.turn poll with
    | some .ready => (reader.read poll).handOver beyond (reading.extend poll)
    | some _ => (reader.read poll).reject
    | none => { reader.read poll with reading := some (reading.extend poll) }

def run (polls : List Poll) : Reader :=
  polls.foldl (fun reader look => reader.poll beyond look) {}

/-- A buffer with one complete line of the stream, from its beginning to its LF. -/
def HoldsLine (stream : List Char) (handed : Handed) : Prop :=
  (handed.before = [] ∨ handed.before.getLast? = some '\n') ∧
    ∃ line, '\n' ∉ line ∧ handed.buffer = (line ++ ['\n']).rightpad maxCommandSize nul ∧
      handed.before ++ line ++ ['\n'] <+: stream

/-- Every buffer holds a line, and none begins in the rest of a rejected one. -/
structure Framed (reader : Reader) : Prop where
  lines : ∀ handed ∈ reader.handed, HoldsLine reader.stream handed
  rests : ∀ read ∈ reader.rejected, ∀ handed ∈ reader.handed, read <+: handed.before →
    '\n' ∈ handed.before.drop read.length

end Reader

/-- The polls since the last LF. -/
def currentLine (polls : List Poll) : List Poll := polls.rtakeWhile fun poll => !poll.isNewline

/-- The polls of a line from its first byte on. -/
def arrived (line : List Poll) : List Poll := line.dropWhile (·.symbol.isNone)

def bytes (polls : List Poll) : List Char := polls.filterMap (·.symbol)

/-- The bytes of a line leave room for its LF, and with none of its polls have
more than 200 ms passed since its first byte. -/
def InTime (line : List Poll) : Prop :=
  ∀ first ∈ (arrived line).head?, (bytes line).length < maxCommandSize ∧
    ∀ poll ∈ arrived line, poll.now - first.startTime ≤ serialReadingTimeoutMs

/-- So it is with every line until its LF comes. -/
def LinesInTime (polls : List Poll) : Prop :=
  ∀ before poll after, polls = before ++ poll :: after → poll.isNewline = true →
    InTime (currentLine before)

theorem Reading.turn_readLoop {reading : Reading} {poll : Poll} {symbol : Char}
    (hsymbol : poll.symbol = some symbol) (htime : ¬ reading.IsLate poll) (stream : List Char) :
    readLoop reading.collected (symbol :: stream) =
      match reading.turn poll with
      | some status => (status, (reading.extend poll).collected, stream)
      | none => readLoop (reading.extend poll).collected stream := by
  have hextend : (reading.extend poll).collected = reading.collected ++ [symbol] := by
    rw [extend, hsymbol]
    rfl
  rw [readLoop, turn, hsymbol, hextend]
  dsimp only
  by_cases hnewline : symbol = '\n'
  · rw [if_pos hnewline, if_pos hnewline]
  · by_cases hfull : (reading.collected ++ [symbol]).length ≥ maxCommandSize
    · rw [if_neg hnewline, if_neg hnewline, if_pos hfull, if_pos hfull]
    · rw [if_neg hnewline, if_neg hnewline, if_neg hfull, if_neg hfull, if_neg htime]

section lines

variable {polls line : List Poll} {look first : Poll}

@[simp] theorem bytes_append (left right : List Poll) :
    bytes (left ++ right) = bytes left ++ bytes right := List.filterMap_append

@[simp] theorem bytes_singleton (look : Poll) : bytes [look] = look.symbol.toList := by
  unfold bytes
  cases hsymbol : look.symbol <;> simp [hsymbol]

theorem currentLine_newline (hnewline : look.isNewline = true) :
    currentLine (polls ++ [look]) = [] :=
  List.rtakeWhile_concat_neg _ _ _ (by simp [hnewline])

theorem currentLine_other (hother : look.isNewline = false) :
    currentLine (polls ++ [look]) = currentLine polls ++ [look] :=
  List.rtakeWhile_concat_pos _ _ _ (by simp [hother])

theorem newline_not_mem_bytes (hline : ∀ look ∈ line, look.isNewline = false) :
    '\n' ∉ bytes line := by
  intro hmem
  obtain ⟨look, hlook, hsymbol⟩ := List.mem_filterMap.mp hmem
  have hnot := hline look hlook
  simp [Poll.isNewline, hsymbol] at hnot

theorem newline_not_mem_currentLine (polls : List Poll) : '\n' ∉ bytes (currentLine polls) :=
  newline_not_mem_bytes fun look hlook => by simpa using List.mem_rtakeWhile_imp hlook

theorem exists_before (polls : List Poll) : ∃ before, bytes polls = before ++ bytes (currentLine polls) ∧
    (before = [] ∨ before.getLast? = some '\n') := by
  refine ⟨bytes (polls.rdropWhile fun look => !look.isNewline), ?_, ?_⟩
  · rw [currentLine, ← bytes_append, List.rdropWhile_append_rtakeWhile]
  · by_cases hnil : (polls.rdropWhile fun look => !look.isNewline) = []
    · left
      rw [hnil]
      rfl
    · right
      have hlast := List.rdropWhile_last_not (fun look => !look.isNewline) polls hnil
      have hsymbol : ((polls.rdropWhile fun look => !look.isNewline).getLast hnil).symbol =
          some '\n' := by simpa [Poll.isNewline] using hlast
      rw [← List.dropLast_append_getLast hnil, bytes_append, bytes_singleton, hsymbol]
      simp

theorem arrived_append (line : List Poll) (look : Poll) : arrived (line ++ [look]) =
    if arrived line = [] then arrived [look] else arrived line ++ [look] := by
  unfold arrived
  rw [List.dropWhile_append]
  simp only [List.isEmpty_iff]

theorem bytes_eq_nil_iff (line : List Poll) : bytes line = [] ↔ arrived line = [] := by
  simp [bytes, arrived, List.filterMap_eq_nil_iff, List.dropWhile_eq_nil_iff]

theorem inTime_of_append (htime : InTime (line ++ [look])) : InTime line := by
  intro first hfirst
  have hne : arrived line ≠ [] := by
    intro hnil
    rw [hnil] at hfirst
    cases hfirst
  have hhead : first ∈ (arrived (line ++ [look])).head? := by
    rw [arrived_append, if_neg hne, List.head?_append, hfirst]
    rfl
  obtain ⟨hroom, hall⟩ := htime first hhead
  rw [arrived_append, if_neg hne] at hall
  rw [bytes_append, List.length_append] at hroom
  exact ⟨by omega, fun poll hpoll => hall poll (List.mem_append_left _ hpoll)⟩

theorem inTime_append_iff (hhead : (arrived (line ++ [look])).head? = some first) :
    InTime (line ++ [look]) ↔ InTime line ∧ (bytes (line ++ [look])).length < maxCommandSize ∧
      look.now - first.startTime ≤ serialReadingTimeoutMs := by
  constructor
  · intro htime
    obtain ⟨hroom, hall⟩ := htime first hhead
    refine ⟨inTime_of_append htime, hroom, hall look ?_⟩
    rw [arrived_append] at hhead ⊢
    split
    · rename_i hnil
      rw [if_pos hnil] at hhead
      rw [arrived, List.dropWhile_cons] at hhead ⊢
      split at hhead
      · cases hhead
      · rename_i hsymbol
        rw [if_neg hsymbol]
        exact List.mem_singleton_self look
    · exact List.mem_append_right _ (List.mem_singleton_self look)
  · rintro ⟨hline, hroom, hlook⟩ first' hfirst'
    obtain rfl : first' = first := Option.some.inj (hfirst'.symm.trans hhead)
    refine ⟨hroom, fun poll hpoll => ?_⟩
    rw [arrived_append] at hhead hpoll
    split at hhead
    · rename_i hnil
      rw [if_pos hnil] at hpoll
      rwa [List.mem_singleton.mp (List.dropWhile_subset _ hpoll)]
    · rename_i hne
      rw [if_neg hne] at hpoll
      rcases List.mem_append.mp hpoll with hpoll | hpoll
      · obtain ⟨head, rest, hcons⟩ := List.exists_cons_of_ne_nil hne
        have hsame : head = first' := by simpa [hcons] using hhead
        exact (hline first' (by rw [hcons, hsame]; rfl)).2 poll hpoll
      · rwa [List.mem_singleton.mp hpoll]

end lines

/-- A reading is given up when the buffer is full or the time is over. -/
def Reading.IsOver (look : Poll) (reading : Reading) : Prop :=
  (reading.extend look).collected.length ≥ maxCommandSize ∨ reading.IsLate look

namespace Reader

variable {beyond : List Char} {reader : Reader} {look : Poll}

/-- What a look at the port can do: nothing begins, a line is handed over, a
part of one is given up, or the reading goes on. -/
inductive Polled (beyond : List Char) (reader : Reader) (look : Poll) : Reader → Prop
  | idle (hreading : reader.reading = none) (hsymbol : look.symbol = none) :
    Polled beyond reader look reader
  | ready {reading : Reading} (hbegun : reader.begun look = some reading)
    (hnewline : look.symbol = some '\n') :
    Polled beyond reader look ((reader.read look).handOver beyond (reading.extend look))
  | isOver {reading : Reading} (hbegun : reader.begun look = some reading)
    (hnewline : look.isNewline = false) (hover : reading.IsOver look) :
    Polled beyond reader look (reader.read look).reject
  | goesOn {reading : Reading} (hbegun : reader.begun look = some reading)
    (hnewline : look.isNewline = false) (hover : ¬ reading.IsOver look) :
    Polled beyond reader look { reader.read look with reading := some (reading.extend look) }

theorem symbol_of_begun_none (hbegun : reader.begun look = none) :
    reader.reading = none ∧ look.symbol = none := by
  unfold begun at hbegun
  split at hbegun
  · cases hbegun
  · rename_i hreading
    exact ⟨hreading, by simpa using hbegun⟩

theorem room_of_begun {reading : Reading} (hroom : ∀ reading, reader.reading = some reading →
    reading.collected.length < maxCommandSize) (hbegun : reader.begun look = some reading) :
    reading.collected.length < maxCommandSize := by
  unfold begun at hbegun
  split at hbegun
  · rename_i hreading
    exact hroom reading (hreading.trans hbegun)
  · split at hbegun
    · cases hbegun
      simp [maxCommandSize, commandSize, idSize, maxInputSize]
    · cases hbegun

theorem polled (hroom : ∀ reading, reader.reading = some reading →
    reading.collected.length < maxCommandSize) :
    Polled beyond reader look (reader.poll beyond look) := by
  unfold poll
  cases hbegun : reader.begun look with
  | none =>
    obtain ⟨hreading, hsymbol⟩ := symbol_of_begun_none hbegun
    exact .idle hreading hsymbol
  | some reading =>
    have hshort := room_of_begun hroom hbegun
    dsimp only
    unfold Reading.turn
    cases hsymbol : look.symbol with
    | none =>
      have hnewline : look.isNewline = false := by simp [Poll.isNewline, hsymbol]
      have hextend : (reading.extend look).collected = reading.collected := by
        simp [Reading.extend, hsymbol]
      dsimp only
      by_cases hlate : reading.IsLate look
      · rw [if_pos hlate]
        exact .isOver hbegun hnewline (.inr hlate)
      · rw [if_neg hlate]
        refine .goesOn hbegun hnewline ?_
        rintro (hfull | hlate')
        · rw [hextend] at hfull
          omega
        · exact hlate hlate'
    | some symbol =>
      dsimp only
      by_cases hsame : symbol = '\n'
      · rw [if_pos hsame]
        exact .ready hbegun (by rw [hsymbol, hsame])
      have hnewline : look.isNewline = false := by simp [Poll.isNewline, hsymbol, hsame]
      rw [if_neg hsame]
      by_cases hfull : (reading.extend look).collected.length ≥ maxCommandSize
      · rw [if_pos hfull]
        exact .isOver hbegun hnewline (.inl hfull)
      rw [if_neg hfull]
      by_cases hlate : reading.IsLate look
      · rw [if_pos hlate]
        exact .isOver hbegun hnewline (.inr hlate)
      · rw [if_neg hlate]
        exact .goesOn hbegun hnewline fun hover => hover.elim hfull hlate

/-- Where the reader stands in the stream after `polls`. As long as the current
line is in time, the reading holds all of it; behind that, less than all. -/
structure Tracks (polls : List Poll) (reader : Reader) : Prop where
  stream : reader.stream = bytes polls
  reading : ∀ reading, reader.reading = some reading →
    reading.collected.length < maxCommandSize ∧
      reader.stream = reading.before ++ reading.collected ∧
      reading.collected <:+ bytes (currentLine polls)
  inTime : InTime (currentLine polls) →
    reader.reading.map (fun reading => (reading.startTime, reading.collected)) =
      (arrived (currentLine polls)).head?.map fun first =>
        (first.startTime, bytes (currentLine polls))
  late : ¬ InTime (currentLine polls) → ∀ reading, reader.reading = some reading →
    reading.collected.length < (bytes (currentLine polls)).length
  handed : ∀ handed ∈ reader.handed, handed.before.length < reader.stream.length
  rejected : ∀ read ∈ reader.rejected, read <+: reader.stream ∧
    (InTime (currentLine polls) → '\n' ∈ reader.stream.drop read.length)

/-- The same of the reading that the next turn belongs to. -/
structure Begun (polls : List Poll) (stream : List Char) (look : Poll) (reading : Reading) :
    Prop where
  room : reading.collected.length < maxCommandSize
  stream : stream = reading.before ++ reading.collected
  suffix : reading.collected <:+ bytes (currentLine polls)
  inTime : InTime (currentLine polls) → reading.collected = bytes (currentLine polls) ∧
    ∃ first, (arrived (currentLine polls ++ [look])).head? = some first ∧
      reading.startTime = first.startTime
  late : ¬ InTime (currentLine polls) →
    reading.collected.length < (bytes (currentLine polls)).length

variable {polls : List Poll} {reading : Reading}

theorem Tracks.begun (htracks : Tracks polls reader) (hbegun : reader.begun look = some reading) :
    Begun polls reader.stream look reading := by
  have hroom := room_of_begun (fun reading hreading => (htracks.reading reading hreading).1) hbegun
  unfold Reader.begun at hbegun
  split at hbegun
  · rename_i current hreading
    cases hbegun
    obtain ⟨-, hstream, hsuffix⟩ := htracks.reading _ hreading
    refine ⟨hroom, hstream, hsuffix, fun htime => ?_, fun hlate => htracks.late hlate _ hreading⟩
    have hsame := htracks.inTime htime
    rw [hreading, Option.map_some, eq_comm, Option.map_eq_some_iff] at hsame
    obtain ⟨first, hhead, hpair⟩ := hsame
    obtain ⟨hstart, hcollected⟩ := Prod.mk.inj hpair
    refine ⟨hcollected.symm, first, ?_, hstart.symm⟩
    rw [arrived_append, if_neg (by rintro hnil; rw [hnil] at hhead; cases hhead),
      List.head?_append, hhead]
    rfl
  · rename_i hreading
    split at hbegun
    · rename_i hsymbol
      cases hbegun
      refine ⟨hroom, (List.append_nil _).symm, List.nil_suffix, fun htime => ?_, fun hlate => ?_⟩
      · have hsame := htracks.inTime htime
        rw [hreading, Option.map_none, eq_comm, Option.map_eq_none_iff, List.head?_eq_none_iff]
          at hsame
        refine ⟨((bytes_eq_nil_iff _).mpr hsame).symm, look, ?_, rfl⟩
        rw [arrived_append, if_pos hsame, arrived,
          List.dropWhile_cons_of_neg (by simpa [Option.isSome_iff_ne_none] using hsymbol)]
        rfl
      · rw [List.length_nil, List.length_pos_iff, ne_eq, bytes_eq_nil_iff]
        intro hnil
        exact hlate fun first hfirst => by simp [hnil] at hfirst
    · cases hbegun

theorem Begun.inTime_iff {stream : List Char} (hbegun : Begun polls stream look reading) :
    InTime (currentLine polls ++ [look]) ↔ InTime (currentLine polls) ∧ ¬ reading.IsOver look := by
  by_cases htime : InTime (currentLine polls)
  · obtain ⟨hcollected, first, hhead, hstart⟩ := hbegun.inTime htime
    rw [inTime_append_iff hhead, Reading.IsOver, Reading.IsLate, Reading.extend, hcollected, hstart,
      not_or, gt_iff_lt, UInt32.not_lt, ge_iff_le, Nat.not_le, bytes_append, bytes_singleton]
  · exact ⟨fun h => absurd (inTime_of_append h) htime, fun h => absurd h.1 htime⟩

theorem Tracks.rejected_append (htracks : Tracks polls reader) (more : List Char)
    {read : List Char} (hread : read ∈ reader.rejected)
    (htime : InTime (currentLine polls) ∨ '\n' ∈ more) :
    read <+: reader.stream ++ more ∧ '\n' ∈ (reader.stream ++ more).drop read.length := by
  obtain ⟨hpre, hnewline⟩ := htracks.rejected read hread
  refine ⟨hpre.trans (List.prefix_append _ _), ?_⟩
  rw [List.drop_append_of_le_length hpre.length_le]
  exact List.mem_append.mpr (htime.imp hnewline id)

theorem Tracks.stream_append (htracks : Tracks polls reader) :
    reader.stream ++ look.symbol.toList = bytes (polls ++ [look]) := by
  rw [htracks.stream, bytes_append, bytes_singleton]

theorem Tracks.idle (htracks : Tracks polls reader) (hreading : reader.reading = none)
    (hsymbol : look.symbol = none) : Tracks (polls ++ [look]) reader := by
  have hstream : reader.stream ++ look.symbol.toList = bytes (polls ++ [look]) :=
    htracks.stream_append
  have hother : look.isNewline = false := by simp [Poll.isNewline, hsymbol]
  rw [hsymbol, Option.toList_none, List.append_nil] at hstream
  have hline : InTime (currentLine (polls ++ [look])) → arrived (currentLine polls) = [] := by
    rw [currentLine_other hother]
    intro htime
    have hsame := htracks.inTime (inTime_of_append htime)
    rwa [hreading, Option.map_none, eq_comm, Option.map_eq_none_iff, List.head?_eq_none_iff]
      at hsame
  refine ⟨hstream, ?_, fun htime => ?_, ?_, htracks.handed, fun read hread => ?_⟩
  · rw [hreading]
    rintro _ ⟨⟩
  · rw [hreading, currentLine_other hother, arrived_append, if_pos (hline htime), arrived,
      List.dropWhile_cons_of_pos (by simp [hsymbol])]
    rfl
  · rw [hreading]
    rintro - _ ⟨⟩
  · obtain ⟨hpre, hnewline⟩ := htracks.rejected read hread
    refine ⟨hpre, fun htime => hnewline ?_⟩
    rw [currentLine_other hother] at htime
    exact inTime_of_append htime

theorem Tracks.ready (htracks : Tracks polls reader) (hbegun : reader.begun look = some reading)
    (hnewline : look.symbol = some '\n') :
    Tracks (polls ++ [look]) ((reader.read look).handOver beyond (reading.extend look)) := by
  have hpoll : look.isNewline = true := by simp [Poll.isNewline, hnewline]
  refine ⟨htracks.stream_append, by rintro _ ⟨⟩, fun _ => by rw [currentLine_newline hpoll]; rfl,
    by rintro - _ ⟨⟩, fun handed hhanded => ?_, fun read hread => ?_⟩
  · rcases List.mem_append.mp hhanded with hhanded | hhanded
    · exact (htracks.handed handed hhanded).trans_le
        (List.sublist_append_left _ look.symbol.toList).length_le
    · rw [List.mem_singleton.mp hhanded]
      have hbefore := congrArg List.length (htracks.begun hbegun).stream
      rw [List.length_append] at hbefore
      simp only [handOver, Reader.read, Reading.extend, hnewline, List.length_append,
        Option.toList_some, List.length_singleton]
      omega
  · have hboth := htracks.rejected_append look.symbol.toList hread (.inr (by simp [hnewline]))
    exact ⟨hboth.1, fun _ => hboth.2⟩

theorem Tracks.reject (htracks : Tracks polls reader) (hbegun : reader.begun look = some reading)
    (hother : look.isNewline = false) (hover : reading.IsOver look) :
    Tracks (polls ++ [look]) (reader.read look).reject := by
  have hlate : ¬ InTime (currentLine (polls ++ [look])) := by
    rw [currentLine_other hother, (htracks.begun hbegun).inTime_iff]
    exact fun h => h.2 hover
  refine ⟨htracks.stream_append, by rintro _ ⟨⟩, fun htime => absurd htime hlate, by rintro - _ ⟨⟩,
    fun handed hhanded => (htracks.handed handed hhanded).trans_le
      (List.sublist_append_left _ look.symbol.toList).length_le,
    fun read hread => ⟨?_, fun htime => absurd htime hlate⟩⟩
  rcases List.mem_append.mp hread with hread | hread
  · exact (htracks.rejected read hread).1.trans (List.prefix_append _ _)
  · rw [List.mem_singleton.mp hread]
    exact List.prefix_rfl

theorem Tracks.goOn (htracks : Tracks polls reader) (hbegun : reader.begun look = some reading)
    (hother : look.isNewline = false) (hover : ¬ reading.IsOver look) :
    Tracks (polls ++ [look])
      { reader.read look with reading := some (reading.extend look) } := by
  have hiff : InTime (currentLine (polls ++ [look])) ↔ InTime (currentLine polls) := by
    rw [currentLine_other hother, (htracks.begun hbegun).inTime_iff]
    exact and_iff_left hover
  obtain ⟨-, hbefore, hsuffix, htime, hlate⟩ := htracks.begun hbegun
  have hbytes : bytes (currentLine (polls ++ [look])) =
      bytes (currentLine polls) ++ look.symbol.toList := by
    rw [currentLine_other hother, bytes_append, bytes_singleton]
  refine ⟨htracks.stream_append, ?_, fun hin => ?_, fun hnot => ?_,
    fun handed hhanded => (htracks.handed handed hhanded).trans_le
      (List.sublist_append_left _ look.symbol.toList).length_le,
    fun read hread => ?_⟩
  · rintro _ ⟨⟩
    refine ⟨Nat.not_le.mp fun hfull => hover (.inl hfull), ?_, ?_⟩
    · simp only [Reader.read, Reading.extend, hbefore, List.append_assoc]
    · rw [hbytes]
      exact List.suffix_append_self_iff.mpr hsuffix
  · obtain ⟨hcollected, first, hhead, hstart⟩ := htime (hiff.mp hin)
    rw [hbytes, currentLine_other hother, hhead, Option.map_some, Option.map_some,
      Reading.extend, hcollected, hstart]
  · rintro _ ⟨⟩
    have hshort := hlate (mt hiff.mpr hnot)
    rw [hbytes, Reading.extend, List.length_append, List.length_append]
    omega
  · obtain ⟨hpre, -⟩ := htracks.rejected read hread
    refine ⟨hpre.trans (List.prefix_append _ _), fun hin => ?_⟩
    exact (htracks.rejected_append look.symbol.toList hread (.inl (hiff.mp hin))).2

theorem Tracks.poll (htracks : Tracks polls reader) :
    Tracks (polls ++ [look]) (reader.poll beyond look) := by
  have hpolled : Polled beyond reader look (reader.poll beyond look) :=
    polled fun reading hreading => (htracks.reading reading hreading).1
  generalize reader.poll beyond look = next at hpolled ⊢
  cases hpolled with
  | idle hreading hsymbol => exact htracks.idle hreading hsymbol
  | ready hbegun hnewline => exact htracks.ready hbegun hnewline
  | isOver hbegun hother hover => exact htracks.reject hbegun hother hover
  | goesOn hbegun hother hover => exact htracks.goOn hbegun hother hover

theorem run_append (polls : List Poll) (look : Poll) :
    run beyond (polls ++ [look]) = (run beyond polls).poll beyond look := by
  rw [run, List.foldl_append]
  rfl

theorem tracks (beyond : List Char) (polls : List Poll) : Tracks polls (run beyond polls) := by
  induction polls using List.reverseRecOn with
  | nil =>
    refine ⟨rfl, by rintro _ ⟨⟩, fun _ => rfl, by rintro - _ ⟨⟩, ?_, ?_⟩ <;> simp [run]
  | append_singleton polls look ih =>
    rw [run_append]
    exact ih.poll

theorem Begun.exists_missing (hbegun : Begun polls (bytes polls) look reading) :
    ∃ before missing, (before = [] ∨ before.getLast? = some '\n') ∧
      bytes (currentLine polls) = missing ++ reading.collected ∧
      reading.before = before ++ missing := by
  obtain ⟨before, hbefore, hends⟩ := exists_before polls
  obtain ⟨missing, hmissing⟩ := hbegun.suffix
  refine ⟨before, missing, hends, hmissing.symm, ?_⟩
  have hstream := hbegun.stream
  rw [hbefore, ← hmissing, ← List.append_assoc] at hstream
  exact (List.append_cancel_right hstream).symm

theorem Begun.begins_iff (hbegun : Begun polls (bytes polls) look reading) :
    (reading.before = [] ∨ reading.before.getLast? = some '\n') ↔
      InTime (currentLine polls) := by
  obtain ⟨before, missing, hends, hline, hbefore⟩ := hbegun.exists_missing
  rw [hbefore]
  constructor
  · intro hbegins
    by_contra hlate
    have hshort := hbegun.late hlate
    rw [hline, List.length_append] at hshort
    have hmissing : missing ≠ [] := List.length_pos_iff.mp (by omega)
    rcases hbegins with hnil | hlast
    · exact hmissing (List.append_eq_nil_iff.mp hnil).2
    · rw [List.getLast?_append_of_ne_nil _ hmissing] at hlast
      apply newline_not_mem_currentLine polls
      rw [hline]
      exact List.mem_append_left _ (List.mem_of_getLast? hlast)
  · intro htime
    have hall := (hbegun.inTime htime).1
    rw [hline, List.self_eq_append_left] at hall
    rwa [hall, List.append_nil]

theorem HoldsLine.mono {stream longer : List Char} {handed : Handed}
    (hholds : HoldsLine stream handed) (hpre : stream <+: longer) : HoldsLine longer handed := by
  obtain ⟨hbegins, line, hline, hbuffer, hread⟩ := hholds
  exact ⟨hbegins, line, hline, hbuffer, hread.trans hpre⟩

theorem Begun.holdsLine (hbegun : Begun polls (bytes polls) look reading)
    (htime : InTime (currentLine polls)) (hnewline : look.symbol = some '\n') :
    HoldsLine (bytes polls ++ ['\n'])
      ⟨reading.before, (reading.extend look).collected.rightpad maxCommandSize nul⟩ := by
  refine ⟨hbegun.begins_iff.mpr htime, reading.collected, ?_, ?_, ?_⟩
  · rw [(hbegun.inTime htime).1]
    exact newline_not_mem_currentLine polls
  · rw [Reading.extend, hnewline]
    rfl
  · simp only [hbegun.stream, List.prefix_rfl]

theorem Framed.poll (htracks : Tracks polls reader) (hframed : reader.Framed)
    (hlines : look.isNewline = true → InTime (currentLine polls)) :
    (reader.poll beyond look).Framed := by
  have hpolled : Polled beyond reader look (reader.poll beyond look) :=
    polled fun reading hreading => (htracks.reading reading hreading).1
  have hgrown : ∀ handed ∈ reader.handed,
      HoldsLine (reader.stream ++ look.symbol.toList) handed := fun handed hhanded =>
    (hframed.lines handed hhanded).mono (List.prefix_append _ _)
  generalize reader.poll beyond look = next at hpolled ⊢
  cases hpolled with
  | idle => exact hframed
  | @ready reading hbegun hnewline =>
    have htime := hlines (by simp [Poll.isNewline, hnewline])
    have hfrom := htracks.begun hbegun
    rw [htracks.stream] at hfrom
    constructor
    · intro handed hhanded
      rcases List.mem_append.mp hhanded with hhanded | hhanded
      · exact hgrown handed hhanded
      · have hholds := hfrom.holdsLine htime hnewline
        rw [← htracks.stream] at hholds
        rw [List.mem_singleton.mp hhanded, handOver, Reader.read, hnewline]
        exact hholds
    · intro read hread handed hhanded hpre
      rcases List.mem_append.mp hhanded with hhanded | hhanded
      · exact hframed.rests read hread handed hhanded hpre
      · rw [List.mem_singleton.mp hhanded] at hpre ⊢
        change read <+: reading.before at hpre
        have hmem := (htracks.rejected read hread).2 htime
        rw [htracks.stream, hfrom.stream, List.drop_append_of_le_length hpre.length_le,
          (hfrom.inTime htime).1] at hmem
        exact (List.mem_append.mp hmem).resolve_right (newline_not_mem_currentLine polls)
  | isOver hbegun hother hover =>
    refine ⟨hgrown, fun read hread handed hhanded hpre => ?_⟩
    rcases List.mem_append.mp hread with hread | hread
    · exact hframed.rests read hread handed hhanded hpre
    · have hlength := hpre.length_le
      rw [List.mem_singleton.mp hread, Reader.read, List.length_append] at hlength
      have hshorter := htracks.handed handed hhanded
      omega
  | goesOn => exact ⟨hgrown, hframed.rests⟩

theorem handed_subset_poll : reader.handed ⊆ (reader.poll beyond look).handed := by
  unfold Reader.poll
  split
  · exact List.Subset.refl _
  · split
    · exact List.subset_append_left _ _
    · exact List.Subset.refl _
    · exact List.Subset.refl _

theorem Tracks.inTime_of_begins (htracks : Tracks polls reader) (hnewline : look.isNewline = true)
    (hbegins : ∀ handed ∈ (reader.poll beyond look).handed,
      handed.before = [] ∨ handed.before.getLast? = some '\n') :
    InTime (currentLine polls) := by
  have hpolled : Polled beyond reader look (reader.poll beyond look) :=
    polled fun reading hreading => (htracks.reading reading hreading).1
  generalize reader.poll beyond look = next at hpolled hbegins
  cases hpolled with
  | idle _ hsymbol => simp [Poll.isNewline, hsymbol] at hnewline
  | @ready reading hbegun =>
    have hfrom := htracks.begun hbegun
    rw [htracks.stream] at hfrom
    exact hfrom.begins_iff.mp (hbegins _ (List.mem_append_right _ (List.mem_singleton_self _)))
  | isOver _ hother => exact absurd hnewline (by simp [hother])
  | goesOn _ hother => exact absurd hnewline (by simp [hother])

end Reader

theorem linesInTime_append (polls : List Poll) (look : Poll) : LinesInTime (polls ++ [look]) ↔
    LinesInTime polls ∧ (look.isNewline = true → InTime (currentLine polls)) := by
  constructor
  · intro hlines
    refine ⟨fun before poll after hsplit => hlines before poll (after ++ [look]) ?_,
      hlines polls look [] rfl⟩
    rw [hsplit, List.append_assoc, List.cons_append]
  · rintro ⟨hlines, hlast⟩ before poll after hsplit hnewline
    rcases List.eq_nil_or_concat after with rfl | ⟨initial, last, rfl⟩
    · obtain ⟨rfl, rfl⟩ := List.append_singleton_inj.mp hsplit
      exact hlast hnewline
    · rw [List.concat_eq_append, ← List.cons_append, ← List.append_assoc] at hsplit
      exact hlines before poll initial (List.append_singleton_inj.mp hsplit).1 hnewline

namespace Reader

/-- The reader keeps to the lines of the stream exactly when every line that is
completed fits into the buffer and came in time. -/
theorem framed_iff_linesInTime (beyond : List Char) (polls : List Poll) :
    (run beyond polls).Framed ↔ LinesInTime polls := by
  constructor
  · intro hframed
    have hbegins : ∀ handed ∈ (run beyond polls).handed,
        handed.before = [] ∨ handed.before.getLast? = some '\n' :=
      fun handed hhanded => (hframed.lines handed hhanded).1
    clear hframed
    induction polls using List.reverseRecOn with
    | nil => intro before poll after hsplit; simp at hsplit
    | append_singleton polls look ih =>
      rw [run_append] at hbegins
      rw [linesInTime_append]
      exact ⟨ih fun handed hhanded => hbegins handed (handed_subset_poll hhanded),
        fun hnewline => (tracks beyond polls).inTime_of_begins hnewline hbegins⟩
  · intro hlines
    induction polls using List.reverseRecOn with
    | nil => constructor <;> simp [run]
    | append_singleton polls look ih =>
      rw [linesInTime_append] at hlines
      rw [run_append]
      exact (ih hlines.1).poll (tracks beyond polls) hlines.2

/-- A line of 107 other bytes and a command: `MAX_COMMAND_SIZE` bytes are
rejected, and the rest of the line cuts off the power. -/
def overlong : List Poll :=
  (List.replicate maxCommandSize 'x' ++ "#10:0000:\n".toList).map fun symbol => { symbol }

theorem not_framed_overlong : ¬ (run [] overlong).Framed ∧
    (run [] overlong).rejected = [List.replicate maxCommandSize 'x'] ∧
    (run [] overlong).handed.map (fun handed => handle handed.buffer) =
      [.ok .onCutOffThePower 0 ("\n".toList.rightpad maxInputSize nul)] := by
  have hrejected : (run [] overlong).rejected = [List.replicate maxCommandSize 'x'] := by
    decide +kernel
  have hhanded : (run [] overlong).handed = [⟨List.replicate maxCommandSize 'x',
      "#10:0000:\n".toList.rightpad maxCommandSize nul⟩] := by
    decide +kernel
  refine ⟨fun hframed => ?_, hrejected, ?_⟩
  · have hnewline := hframed.rests (List.replicate maxCommandSize 'x') (by simp [hrejected])
      _ (hhanded.symm ▸ List.mem_singleton_self _) List.prefix_rfl
    rw [List.drop_length] at hnewline
    cases hnewline
  · rw [hhanded]
    decide +kernel

end Reader

end VacuumCleaner.A1.LineReader
