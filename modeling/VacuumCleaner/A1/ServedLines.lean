import VacuumCleaner.A1.LineReader
import VacuumCleaner.Lib.Lines

/-! What `perform` makes of a stream that is in time: each line is handed over
once, as a whole and in its order, and nothing is rejected. -/
namespace VacuumCleaner.A1.ServedLines

open Lib.CText Lib.Lines InstructionHandler LineReader

/-- `buf` behind the line feed of a line. -/
def commandBuffer (line : List Char) : List Char :=
  (line ++ ['\n']).rightpad maxCommandSize nul

/-- The reader has handed over `lines` and has rejected nothing. -/
structure Served (beyond : List Char) (lines : List (List Char)) (reader : Reader) : Prop where
  handed : reader.handed.map Handed.buffer = lines.map commandBuffer
  rejected : reader.rejected = []
  sent : reader.sent = lines.flatMap fun line => replyTo beyond (commandBuffer line)

/-- The lines of the stream are served so far; of the last one, its bytes wait. -/
structure Serving (beyond : List Char) (polls : List Poll) (lines : List (List Char))
    (reader : Reader) : Prop where
  cut : Cut ['\n'] (bytes polls) lines (bytes (currentLine polls))
  served : Served beyond lines reader

variable {beyond : List Char} {polls : List Poll} {look : Poll} {lines : List (List Char)}
  {reader : Reader} {reading : Reading}

theorem clear_currentLine (polls : List Poll) : ¬ ['\n'] <:+: bytes (currentLine polls) := by
  intro hwithin
  exact newline_not_mem_currentLine polls (hwithin.subset (List.mem_singleton_self _))

theorem endsFirst_currentLine (polls : List Poll) : EndsFirst ['\n'] (bytes (currentLine polls)) :=
  endsFirst_of_not_mem (newline_not_mem_currentLine polls)

theorem cut_other (hcut : Cut ['\n'] (bytes polls) lines (bytes (currentLine polls)))
    (hother : look.isNewline = false) :
    Cut ['\n'] (bytes (polls ++ [look])) lines (bytes (currentLine (polls ++ [look]))) := by
  refine ⟨?_, hcut.first, clear_currentLine _⟩
  rw [currentLine_other hother, bytes_append, bytes_append, hcut.whole, List.append_assoc]

theorem cut_newline (hcut : Cut ['\n'] (bytes polls) lines (bytes (currentLine polls)))
    (hnewline : look.symbol = some '\n') :
    Cut ['\n'] (bytes (polls ++ [look])) (lines ++ [bytes (currentLine polls)])
      (bytes (currentLine (polls ++ [look]))) := by
  have hpoll : look.isNewline = true := by simp [Poll.isNewline, hnewline]
  refine ⟨?_, fun line hline => ?_, clear_currentLine _⟩
  · rw [currentLine_newline hpoll, bytes_append, hcut.whole, bytes_singleton, hnewline]
    simp [bytes]
  · rcases List.mem_append.mp hline with hline | hline
    · exact hcut.first line hline
    · rw [List.mem_singleton.mp hline]
      exact endsFirst_currentLine polls

theorem Served.handOver (hserved : Served beyond lines reader)
    (hcollected : reading.collected = bytes (currentLine polls))
    (hnewline : look.symbol = some '\n') :
    Served beyond (lines ++ [bytes (currentLine polls)])
      ((reader.read look).handOver beyond (reading.extend look)) := by
  have hbuffer : (reading.extend look).collected.rightpad maxCommandSize nul =
      commandBuffer (bytes (currentLine polls)) := by
    rw [Reading.extend, hnewline, hcollected]
    rfl
  obtain ⟨hhanded, hrejected, hsent⟩ := hserved
  refine ⟨?_, hrejected, ?_⟩
  · simp only [Reader.handOver, Reader.read, hbuffer, List.map_append, hhanded, List.map_cons,
      List.map_nil]
  · simp only [Reader.handOver, Reader.read, hbuffer, hsent, List.flatMap_append,
      List.flatMap_singleton]

theorem Serving.poll (hserving : Serving beyond polls lines reader)
    (htracks : Reader.Tracks polls reader) (htime : InTime (currentLine polls))
    (hnext : InTime (currentLine (polls ++ [look]))) :
    ∃ more, Serving beyond (polls ++ [look]) more (reader.poll beyond look) := by
  obtain ⟨hcut, hserved⟩ := hserving
  have hpolled : Reader.Polled beyond reader look (reader.poll beyond look) :=
    Reader.polled fun reading hreading => (htracks.reading reading hreading).1
  generalize reader.poll beyond look = next at hpolled ⊢
  cases hpolled with
  | idle _ hsymbol =>
    exact ⟨lines, cut_other hcut (by simp [Poll.isNewline, hsymbol]), hserved⟩
  | ready hbegun hnewline =>
    have hcollected := ((htracks.begun hbegun).inTime htime).1
    exact ⟨_, cut_newline hcut hnewline, hserved.handOver hcollected hnewline⟩
  | isOver hbegun hother hover =>
    rw [currentLine_other hother, (htracks.begun hbegun).inTime_iff] at hnext
    exact absurd hover hnext.2
  | goesOn hbegun hother =>
    exact ⟨lines, cut_other hcut hother, hserved.handed, hserved.rejected, hserved.sent⟩

theorem exists_serving (beyond : List Char) (hlines : LinesInTime polls)
    (htime : InTime (currentLine polls)) :
    ∃ lines, Serving beyond polls lines (Reader.run beyond polls) := by
  induction polls using List.reverseRecOn with
  | nil => exact ⟨[], cut_nil (by simp), rfl, rfl, rfl⟩
  | append_singleton polls look ih =>
    obtain ⟨hbefore, hnewline⟩ := (linesInTime_append polls look).mp hlines
    have hearlier : InTime (currentLine polls) := by
      cases hlook : look.isNewline with
      | true => exact hnewline hlook
      | false =>
        rw [currentLine_other hlook] at htime
        exact inTime_of_append htime
    obtain ⟨lines, hserving⟩ := ih hbefore hearlier
    rw [Reader.run_append]
    exact hserving.poll (Reader.tracks beyond polls) hearlier htime

end VacuumCleaner.A1.ServedLines
