import VacuumCleaner.App.RequestHandler
import VacuumCleaner.Core.Responses
import VacuumCleaner.Lib.JsonLine
import VacuumCleaner.Lib.Lines

/-! The responses of the core on their way to the app: one JSON text a line,
read as `BufferedReader` cuts the stream and as Moshi's adapter takes the names. -/
namespace VacuumCleaner.Link.ResponseLines

open Lib Lib.Json Lib.Lines Core.Requests Core.RequestHandling Core.Responses Core.Clients
open Core.RequestHandling (Response Status)

/-! What the core writes. -/

def Status.text : Status → List Char
  | .ok => "OK".toList
  | .error => "ERROR".toList
  | .badRequest => "BAD_REQUEST".toList

/-- `dataclasses.asdict` of a response. -/
def asdict (response : Response) : Value :=
  .object [("endpoint".toList, response.endpoint), ("request_id".toList, response.requestId),
    ("status".toList, .string (Status.text response.status)), ("data".toList, response.data),
    ("error_message".toList, (response.errorMessage.map Value.string).getD .null)]

def responseJson (response : Response) : List Char := dumpsLine (asdict response)

/-- `send` of each of them. -/
def written (responses : List Response) : List Char :=
  responses.flatMap fun response => responseJson response ++ ['\n']

/-! What the app reads. -/

/-- A `BufferedReader`: the lines that `readLine` has returned, and what waits.
A line ends with LF, CR or both; `skipLF` stands behind a CR. -/
structure BufferedReader where
  lines : List (List Char) := []
  pending : List Char := []
  skipLF : Bool := false
  deriving DecidableEq, Repr

def BufferedReader.readChar (reader : BufferedReader) (c : Char) : BufferedReader :=
  if c = '\n' then
    if reader.skipLF then { reader with skipLF := false }
    else { lines := reader.lines ++ [reader.pending] }
  else if c = '\r' then { lines := reader.lines ++ [reader.pending], skipLF := true }
  else { reader with pending := reader.pending ++ [c], skipLF := false }

def BufferedReader.readLines (stream : List Char) : List (List Char) :=
  (stream.foldl readChar {}).lines

def text? : Value → Option (List Char)
  | .string text => some text
  | _ => none

def status? (name : List Char) : Option App.RequestHandler.ResponseStatus :=
  if name = "OK".toList then some .ok
  else if name = "ERROR".toList then some .error
  else if name = "BAD_REQUEST".toList then some .badRequest
  else none

variable {Data : Type} (any : Value → Data)

/-- A nullable property; a name that is not there is as a null. -/
def nullable (value : Option Value) : Option Value :=
  match value with
  | none | some .null => none
  | some value => some value

/-- The adapter of the app's `Response`; `any` is what Moshi makes of a value for
which no type is given. -/
def responseAdapter : Value → Option (App.RequestHandler.Response Data)
  | .object members => do
    let endpoint ← (getItem "endpoint".toList members).bind text?
    let requestId ← (getItem "request_id".toList members).bind text?
    let status ← ((getItem "status".toList members).bind text?).bind status?
    let errorMessage ← match nullable (getItem "error_message".toList members) with
      | none => some none
      | some value => (text? value).map some
    some ⟨endpoint, requestId, status, (nullable (getItem "data".toList members)).map any,
      errorMessage⟩
  | _ => none

/-- A line that the listener thread has got. -/
def fromJson (py : Runtime) (line : List Char) : Option (App.RequestHandler.Response Data) :=
  (loads py line).toOption.bind (responseAdapter any)

/-- A response as the app is told of it. -/
def told (response : Response) : Option (App.RequestHandler.Response Data) := do
  let endpoint ← text? response.endpoint
  let requestId ← text? response.requestId
  some ⟨endpoint, requestId,
    match response.status with
      | .ok => .ok
      | .error => .error
      | .badRequest => .badRequest,
    (nullable (some response.data)).map any, response.errorMessage⟩

theorem responseAdapter_asdict (response : Response) :
    responseAdapter any (asdict response) = told any response := by
  obtain ⟨endpoint, requestId, status, data, errorMessage⟩ := response
  cases status <;> cases errorMessage <;> rfl

/-- Its names differ, and its parts are such as are read back. -/
def Sendable (py : Runtime) (response : Response) : Prop :=
  Readable py py.recursionLimit (asdict response)

theorem fromJson_responseJson {py : Runtime} {response : Response} (h : Sendable py response) :
    fromJson any py (responseJson response) = told any response := by
  rw [fromJson, responseJson, loads_dumpsLine h]
  exact responseAdapter_asdict any response

/-! The lines of a stream. -/

theorem readLines_eq_scan {stream : List Char} (hstream : '\r' ∉ stream) :
    BufferedReader.readLines stream = (scan ['\n'] stream).lines := by
  have hreader : stream.foldl BufferedReader.readChar {} =
      { lines := (scan ['\n'] stream).lines, pending := (scan ['\n'] stream).rest } := by
    induction stream using List.reverseRecOn with
    | nil => rfl
    | append_singleton stream c ih =>
      rw [List.mem_append, not_or, List.mem_singleton] at hstream
      have hscan : scan ['\n'] (stream ++ [c]) = scanSymbol ['\n'] (scan ['\n'] stream) c := by
        rw [scan, List.foldl_concat]
        rfl
      have hsuffix : ['\n'] <:+ (scan ['\n'] stream).rest ++ [c] ↔ c = '\n' := by
        constructor
        · rintro ⟨front, hfront⟩
          exact (List.append_singleton_inj.mp hfront).2.symm
        · rintro rfl
          exact List.suffix_append _ _
      rw [List.foldl_concat, ih hstream.1, hscan, BufferedReader.readChar, scanSymbol]
      by_cases hc : c = '\n'
      · rw [if_pos hc, if_pos (hsuffix.mpr hc)]
        simp
      · rw [if_neg hc, if_neg (Ne.symm hstream.2), if_neg (mt hsuffix.mp hc)]
  rw [BufferedReader.readLines, hreader]

theorem written_eq_joined (responses : List Response) :
    written responses = joined ['\n'] (responses.map responseJson) := by
  rw [joined, List.flatMap_map]
  rfl

theorem not_mem_responseJson {py : Runtime} {response : Response} (h : Sendable py response) :
    '\n' ∉ responseJson response ∧ '\r' ∉ responseJson response := by
  have hprintable := printable_dumpsLine h
  exact ⟨fun hmem => absurd (hprintable _ hmem) (by decide),
    fun hmem => absurd (hprintable _ hmem) (by decide)⟩

theorem readLines_written {py : Runtime} {responses : List Response} {received : List Char}
    (hsendable : ∀ response ∈ responses, Sendable py response)
    (hreceived : received <+: written responses) :
    received.count '\n' ≤ responses.length ∧ BufferedReader.readLines received =
      (responses.take (received.count '\n')).map responseJson := by
  have hmark : ['\n'] ≠ [] := List.cons_ne_nil _ _
  have hlines : ∀ line ∈ responses.map responseJson, EndsFirst ['\n'] line ∧ '\n' ∉ line := by
    intro line hline
    obtain ⟨response, hresponse, rfl⟩ := List.mem_map.mp hline
    have hnot := (not_mem_responseJson (hsendable response hresponse)).1
    exact ⟨endsFirst_of_not_mem hnot, hnot⟩
  have hreturn : '\r' ∉ received := by
    intro hmem
    obtain ⟨response, hresponse, hc⟩ := List.mem_flatMap.mp (hreceived.subset hmem)
    obtain hc | hc := List.mem_append.mp hc
    · exact (not_mem_responseJson (hsendable response hresponse)).2 hc
    · exact absurd hc (by decide)
  rw [written_eq_joined] at hreceived
  have hcut := cut_scan hmark received
  have hcount := hcut.count [] hreceived List.not_mem_nil hlines
  have hpre := hcut.lines_prefix hmark hreceived (cut_joined hmark fun line hline =>
    (hlines line hline).1)
  rw [readLines_eq_scan hreturn, hcount, List.map_take]
  refine ⟨?_, List.prefix_iff_eq_take.mp hpre⟩
  have hlength := hpre.length_le
  rwa [List.length_map] at hlength

/-- One client of a fresh service that sends well-formed lines and stays connected,
with nobody else beside it: however the threads of the service interleave, what it
has received of the answers at some moment is read as the first of them, as many as
have come whole, and each answers its request. -/
theorem answers_read (py : Runtime) (str : Raised → List Char) (handlers : List RequestHandler)
    {lines : List (List Char)} {world : World} {received : List Char}
    (hformed : WellFormed py lines)
    (hrun : (machine py (handlers.map (·.endpoint))).Reach (onlyConnection lines) opened world)
    (hsendable : ∀ response ∈ responses str handlers world, Sendable py response)
    (hreceived : received <+: written (responses str handlers world)) :
    let read := (BufferedReader.readLines received).map (fromJson any py)
    read.length = received.count '\n' ∧ ∀ turn response, read[turn]? = some response →
      ∃ request answer, (requestsOf py lines)[turn]? = some request ∧
        Answers handlers turn request answer ∧ response = told any answer := by
  intro read
  have hinv : Inv py lines world := hrun.invariant (Inv py lines) (Inv.start lines)
    fun _ _ _ inv hguard hstep => inv.step hformed hguard hstep
  obtain ⟨hcount, hlines⟩ := readLines_written hsendable hreceived
  have hread : read =
      ((responses str handlers world).take (received.count '\n')).map (told any) := by
    unfold read
    rw [hlines, List.map_map]
    refine List.map_congr_left fun response hresponse => ?_
    exact fromJson_responseJson any (hsendable response (List.mem_of_mem_take hresponse))
  rw [hread]
  refine ⟨?_, fun turn response hresponse => ?_⟩
  · rw [List.length_map, List.length_take, Nat.min_eq_left hcount]
  · rw [List.getElem?_map] at hresponse
    obtain ⟨answer, hanswer, rfl⟩ := Option.map_eq_some_iff.mp hresponse
    rw [List.getElem?_take, Option.ite_none_right_eq_some] at hanswer
    obtain ⟨request, hrequest, hanswers⟩ := hinv.answers str handlers hanswer.2
    exact ⟨request, answer, hrequest, hanswers, rfl⟩

/-- The first response of a client with two requests, before the second has come
to its end. -/
theorem answers_read_twoRequests : ∃ world received,
    (responses (fun _ => []) [pid] world).length = 2 ∧ received.count '\n' = 1 ∧
      let read := (BufferedReader.readLines received).map (fromJson id exactRuntime)
      read.length = received.count '\n' ∧ ∀ turn response, read[turn]? = some response →
        ∃ request answer, (requestsOf exactRuntime [pidRequest, pidRequest])[turn]? = some request ∧
          Answers [pid] turn request answer ∧ response = told id answer := by
  have hguard : (machine exactRuntime [['/', 'p']]).Guarded
      (onlyConnection [pidRequest, pidRequest]) opened twoRequests := by
    decide +kernel
  let first : Response := { endpoint := .string ['/', 'p'], requestId := .string ['1'],
                            status := .ok, data := .bool true }
  let second : Response := { endpoint := .string ['/', 'p'], requestId := .string ['1'],
                             status := .error, errorMessage := some [] }
  have hexec : ∃ world, (machine exactRuntime [['/', 'p']]).exec opened twoRequests = some world ∧
      responses (fun _ => []) [pid] world = [first, second] := ⟨_, rfl, rfl⟩
  obtain ⟨world, hexec, hresponses⟩ := hexec
  have hformed : WellFormed exactRuntime [pidRequest, pidRequest] := by
    intro data hdata
    obtain rfl : data = pidRequest := by simpa using hdata
    exact ⟨_, rfl⟩
  have hsendable : ∀ response ∈ responses (fun _ => []) [pid] world,
      Sendable exactRuntime response := by
    rw [hresponses]
    simp only [List.forall_mem_cons, List.not_mem_nil, false_imp_iff, implies_true, and_true]
    refine ⟨.object (by decide) ?_, .object (by decide) ?_⟩
    · simp only [List.forall_mem_cons, List.not_mem_nil, false_imp_iff, implies_true, and_true]
      exact ⟨.string, .string, .string, .bool, .null⟩
    · simp only [List.forall_mem_cons, List.not_mem_nil, false_imp_iff, implies_true, and_true]
      exact ⟨.string, .string, .string, .null, .string⟩
  have hreceived : written [first] ++ ['{'] <+: written (responses (fun _ => []) [pid] world) := by
    rw [hresponses]
    exact ⟨_, rfl⟩
  refine ⟨world, written [first] ++ ['{'], ?_, ?_, ?_⟩
  · rw [hresponses]
    rfl
  · decide
  · exact answers_read id exactRuntime (fun _ => []) [pid] hformed
      (Machine.reach_of_exec_guarded hguard hexec) hsendable hreceived

end VacuumCleaner.Link.ResponseLines
