import VacuumCleaner.Core.Service

/-! A line that is no request ends the reader thread. As long as every line is
one, the loop of `start_handling` has a reader that goes on queueing requests
and that sees the end of the connection. -/
namespace VacuumCleaner.Core.MalformedLines

open Lib Lib.Json Requests Service

/-- In `_keep_handling_incoming_requests`. -/
def isHandling : Handler → Bool
  | .testing | .polling | .performing _ | .sending _ => true
  | _ => false

/-- The thread started last, by the current call of `start_handling`. -/
def readerThread (world : World) : Nat := world.readers.length - 1

/-- Only this thread moves, and what it reads is `data`. -/
def hears (thread : Nat) (data : List Char) (_ : World) : Event → Prop
  | .reader other (.line received) => other = thread ∧ received = data
  | .reader other .test | .reader other .call | .reader other .parse => other = thread
  | _ => False

/-- Only this thread moves, and it finds its connection ended. -/
def hearsEnd (thread : Nat) (_ : World) : Event → Prop
  | .reader other .connectionClosed | .reader other .close => other = thread
  | .reader other .test | .reader other .call | .reader other .parse => other = thread
  | _ => False

def handlerOnly (_ : World) : Event → Prop
  | .handler _ => True
  | .reader .. => False

variable (py : Runtime) (endpoints : List (List Char))

def Returns (world : World) : Prop :=
  ∃ next, (machine py endpoints).Reach handlerOnly world next ∧ next.handler = .accepting

/-- The next line that is a request gets to the end of the queue, behind what
the thread may still hold. -/
def QueuesNext (world : World) (thread : Nat) : Prop :=
  ∀ data request, parseRequest py data = .ok request →
    ∃ next held connection, (machine py endpoints).Reach (hears thread data) world next ∧
      next.queue = world.queue ++ held ++ [⟨connection, request⟩]

/-- The end of the connection sets the flag, and `start_handling` returns. -/
def SeesEnd (world : World) (thread : Nat) : Prop :=
  ∃ next, (machine py endpoints).Reach (hearsEnd thread) world next ∧
    next.isConnectionClosed = true ∧ Returns py endpoints next

/-- A reader that has been told of the end is past its last line. -/
structure Running (world : World) (thread : Nat) (reader : Reader) : Prop where
  found : world.readers[thread]? = some reader
  alive : reader ≠ .died ∧ reader ≠ .finished
  queuesNext : reader ≠ .closing → QueuesNext py endpoints world thread
  seesEnd : SeesEnd py endpoints world thread

structure Serves (world : World) : Prop where
  returns : isHandling world.handler = true → world.isConnectionClosed = true →
    Returns py endpoints world
  running : isHandling world.handler = true → world.isConnectionClosed = false →
    ∃ reader, Running py endpoints world (readerThread world) reader

/-- Every line that arrives is a request. -/
def wellFormed (_ : World) : Event → Prop
  | .reader _ (.line data) => ∃ request, parseRequest py data = .ok request
  | .reader _ .undecodable => False
  | _ => True

instance (world : World) : (event : Event) → Decidable (wellFormed py world event)
  | .reader _ (.line data) =>
    match h : parseRequest py data with
    | .ok request => .isTrue ⟨request, h⟩
    | .error _ => .isFalse fun ⟨_, hrequest⟩ => by rw [h] at hrequest; cases hrequest
  | .reader _ .undecodable => .isFalse id
  | .reader _ .test | .reader _ .call | .reader _ .connectionClosed | .reader _ .parse
  | .reader _ .close | .handler _ => .isTrue trivial

variable {py endpoints}

section Handler

variable {world next : World}

theorem Returns.of_turn {step : HandlerStep} (hturn : Turns endpoints world step next)
    (h : Returns py endpoints next) : Returns py endpoints world := by
  obtain ⟨final, hrun, haccepting⟩ := h
  have hfirst : (machine py endpoints).step world (.handler step) = some next :=
    (stepHandler_iff endpoints).mpr hturn
  exact ⟨final, .head hfirst trivial hrun, haccepting⟩

theorem returns_of_testing (hhandler : world.handler = .testing)
    (hclosed : world.isConnectionClosed = true) : Returns py endpoints world := by
  apply Returns.of_turn (.leave hhandler hclosed)
  exact ⟨_, .refl, rfl⟩

theorem returns_of_sending {received : Received} (hhandler : world.handler = .sending received)
    (hclosed : world.isConnectionClosed = true) : Returns py endpoints world := by
  apply Returns.of_turn (.answer hhandler)
  exact returns_of_testing rfl hclosed

theorem returns_of_performing {received : Received}
    (hhandler : world.handler = .performing received)
    (hclosed : world.isConnectionClosed = true) : Returns py endpoints world := by
  apply Returns.of_turn (.perform hhandler)
  exact returns_of_sending rfl hclosed

theorem returns_of_polling (hhandler : world.handler = .polling)
    (hclosed : world.isConnectionClosed = true) : Returns py endpoints world := by
  cases hqueue : world.queue with
  | nil =>
    apply Returns.of_turn (.idle hhandler hqueue)
    exact returns_of_testing rfl hclosed
  | cons received queue =>
    apply Returns.of_turn (.take hhandler hqueue)
    exact returns_of_performing rfl hclosed

theorem returns_of_closed (hhandling : isHandling world.handler = true)
    (hclosed : world.isConnectionClosed = true) : Returns py endpoints world := by
  cases hhandler : world.handler with
  | testing => exact returns_of_testing hhandler hclosed
  | polling => exact returns_of_polling hhandler hclosed
  | performing received => exact returns_of_performing hhandler hclosed
  | sending received => exact returns_of_sending hhandler hclosed
  | accepting | accepted | starting | spawning | failed =>
    rw [hhandler] at hhandling
    cases hhandling

end Handler

section Reader

variable {world : World} {thread : Nat} {before after : Reader} {step : ReaderStep}
  {queued : List Received} {raised : Bool}

variable (py endpoints) in
theorem step_of_move (hfound : world.readers[thread]? = some before)
    (hmove : Moves py world step before after queued raised) :
    (machine py endpoints).step world (.reader thread step) =
      some (world.move thread after queued raised) :=
  (stepReader_iff py).mpr ⟨_, _, _, _, hfound, hmove, rfl⟩

theorem found_after_move (hfound : world.readers[thread]? = some before) :
    (world.move thread after queued raised).readers[thread]? = some after := by
  have hlt := (List.getElem?_eq_some_iff.mp hfound).1
  simp [hlt]

theorem QueuesNext.of_move (hfound : world.readers[thread]? = some before)
    (hmove : Moves py world step before after queued raised)
    (hheard : ∀ data, hears thread data world (.reader thread step))
    (h : QueuesNext py endpoints (world.move thread after queued raised) thread) :
    QueuesNext py endpoints world thread := by
  intro data request hparse
  obtain ⟨next, held, connection, hrun, hqueue⟩ := h data request hparse
  refine ⟨next, queued ++ held, connection, .head (step_of_move py endpoints hfound hmove) (hheard data) hrun, ?_⟩
  rw [hqueue]
  simp

theorem queuesNext_of_reading {connection : Nat}
    (hfound : world.readers[thread]? = some (.reading connection)) :
    QueuesNext py endpoints world thread := by
  intro data request hparse
  have hline := step_of_move py endpoints hfound (.line connection data)
  have hheld : (world.move thread (.holding connection data) [] false).readers[thread]? =
      some (.holding connection data) := found_after_move hfound
  have hput := step_of_move py endpoints hheld (.put hparse)
  refine ⟨_, [], connection, .head hline ⟨rfl, rfl⟩ (.one hput rfl), ?_⟩
  simp

theorem queuesNext_of_calling (hfound : world.readers[thread]? = some .calling) :
    QueuesNext py endpoints world thread :=
  .of_move hfound .call (fun _ => rfl) (queuesNext_of_reading (found_after_move hfound))

theorem queuesNext_of_testing (hfound : world.readers[thread]? = some .testing)
    (hopen : world.isConnectionClosed = false) : QueuesNext py endpoints world thread :=
  .of_move hfound (.enter hopen) (fun _ => rfl) (queuesNext_of_calling (found_after_move hfound))

theorem queuesNext_of_holding {connection : Nat} {data : List Char} {request : Request}
    (hfound : world.readers[thread]? = some (.holding connection data))
    (hparse : parseRequest py data = .ok request) (hopen : world.isConnectionClosed = false) :
    QueuesNext py endpoints world thread := by
  apply QueuesNext.of_move hfound (.put hparse) (fun _ => rfl)
  apply queuesNext_of_testing (found_after_move hfound)
  simp [hopen]

theorem SeesEnd.of_move (hfound : world.readers[thread]? = some before)
    (hmove : Moves py world step before after queued raised)
    (hheard : hearsEnd thread world (.reader thread step))
    (h : SeesEnd py endpoints (world.move thread after queued raised) thread) :
    SeesEnd py endpoints world thread := by
  obtain ⟨next, hrun, hclosed, hreturns⟩ := h
  exact ⟨next, .head (step_of_move py endpoints hfound hmove) hheard hrun, hclosed, hreturns⟩

theorem seesEnd_of_closing (hfound : world.readers[thread]? = some .closing)
    (hhandling : isHandling world.handler = true) : SeesEnd py endpoints world thread := by
  have hclose := step_of_move py endpoints hfound .close
  have hclosed : (world.move thread .testing [] true).isConnectionClosed = true := by
    simp
  exact ⟨_, .one hclose rfl, hclosed, returns_of_closed hhandling hclosed⟩

theorem seesEnd_of_reading {connection : Nat}
    (hfound : world.readers[thread]? = some (.reading connection))
    (hhandling : isHandling world.handler = true) : SeesEnd py endpoints world thread :=
  .of_move hfound (.ended connection) rfl (seesEnd_of_closing (found_after_move hfound) hhandling)

theorem seesEnd_of_calling (hfound : world.readers[thread]? = some .calling)
    (hhandling : isHandling world.handler = true) : SeesEnd py endpoints world thread :=
  .of_move hfound .call rfl (seesEnd_of_reading (found_after_move hfound) hhandling)

theorem seesEnd_of_testing (hfound : world.readers[thread]? = some .testing)
    (hopen : world.isConnectionClosed = false)
    (hhandling : isHandling world.handler = true) : SeesEnd py endpoints world thread :=
  .of_move hfound (.enter hopen) rfl (seesEnd_of_calling (found_after_move hfound) hhandling)

theorem seesEnd_of_holding {connection : Nat} {data : List Char} {request : Request}
    (hfound : world.readers[thread]? = some (.holding connection data))
    (hparse : parseRequest py data = .ok request) (hopen : world.isConnectionClosed = false)
    (hhandling : isHandling world.handler = true) : SeesEnd py endpoints world thread := by
  apply SeesEnd.of_move hfound (.put hparse) rfl
  apply seesEnd_of_testing (found_after_move hfound) _ hhandling
  simp [hopen]

end Reader

/-- What a run on requests alone makes of its readers: none has died, and what
one holds is a request. -/
def isHealthy (py : Runtime) : Reader → Prop
  | .died => False
  | .holding _ data => ∃ request, parseRequest py data = .ok request
  | _ => True

structure Inv (py : Runtime) (world : World) : Prop where
  healthy : ∀ reader ∈ world.readers, isHealthy py reader
  running : isHandling world.handler = true → world.isConnectionClosed = false →
    ∃ reader, world.readers[readerThread world]? = some reader ∧ reader ≠ .finished

theorem running_of_healthy {world : World} {thread : Nat} {reader : Reader}
    (hfound : world.readers[thread]? = some reader) (hhealthy : isHealthy py reader)
    (hfinished : reader ≠ .finished) (hopen : world.isConnectionClosed = false)
    (hhandling : isHandling world.handler = true) :
    Running py endpoints world thread reader := by
  cases reader with
  | testing =>
    exact ⟨hfound, ⟨nofun, nofun⟩, fun _ => queuesNext_of_testing hfound hopen,
      seesEnd_of_testing hfound hopen hhandling⟩
  | calling =>
    exact ⟨hfound, ⟨nofun, nofun⟩, fun _ => queuesNext_of_calling hfound,
      seesEnd_of_calling hfound hhandling⟩
  | reading connection =>
    exact ⟨hfound, ⟨nofun, nofun⟩, fun _ => queuesNext_of_reading hfound,
      seesEnd_of_reading hfound hhandling⟩
  | holding connection data =>
    obtain ⟨request, hparse⟩ := hhealthy
    exact ⟨hfound, ⟨nofun, nofun⟩, fun _ => queuesNext_of_holding hfound hparse hopen,
      seesEnd_of_holding hfound hparse hopen hhandling⟩
  | closing =>
    exact ⟨hfound, ⟨nofun, nofun⟩, fun h => absurd rfl h, seesEnd_of_closing hfound hhandling⟩
  | finished => exact absurd rfl hfinished
  | died => cases hhealthy

theorem Inv.serves {world : World} (hinv : Inv py world) : Serves py endpoints world := by
  constructor
  · exact returns_of_closed
  · intro hhandling hopen
    obtain ⟨reader, hfound, hfinished⟩ := hinv.running hhandling hopen
    have hhealthy := hinv.healthy reader (List.mem_of_getElem? hfound)
    exact ⟨reader, running_of_healthy hfound hhealthy hfinished hopen hhandling⟩

theorem Inv.reader {world next : World} {thread : Nat} {step : ReaderStep} (hinv : Inv py world)
    (hguard : wellFormed py world (.reader thread step))
    (hstep : world.stepReader py thread step = some next) : Inv py next := by
  obtain ⟨before, after, queued, raised, hfound, hmove, rfl⟩ := (stepReader_iff py).mp hstep
  have hbefore := hinv.healthy before (List.mem_of_getElem? hfound)
  have hafter : isHealthy py after := by
    cases hmove with
    | line connection data => exact hguard
    | undecodable => exact hguard
    | malformed herror =>
      obtain ⟨request, hparse⟩ := hbefore
      rw [hparse] at herror
      cases herror
    | _ => trivial
  constructor
  · intro reader hreader
    rcases List.mem_or_eq_of_mem_set hreader with hold | rfl
    · exact hinv.healthy reader hold
    · exact hafter
  · intro hhandling hopen
    have hwas : world.isConnectionClosed = false := by
      rw [isConnectionClosed_move, Bool.or_eq_false_iff] at hopen
      exact hopen.1
    obtain ⟨reader, hlast, hfinished⟩ := hinv.running hhandling hwas
    by_cases hthread : thread = readerThread world
    · -- the reader of this connection leaves only when it finds the flag up
      subst hthread
      have hsame : readerThread (world.move (readerThread world) after queued raised) =
          readerThread world := by
        simp [readerThread]
      refine ⟨after, by rw [hsame]; exact found_after_move hfound, ?_⟩
      rintro rfl
      cases hmove with
      | leave hclosed =>
        rw [hwas] at hclosed
        cases hclosed
    · have hkept := List.getElem?_set_ne (l := world.readers) (a := after) hthread
      refine ⟨reader, ?_, hfinished⟩
      rw [← hlast, ← hkept]
      simp [readerThread]

theorem Inv.handler {world next : World} {step : HandlerStep} (hinv : Inv py world)
    (hstep : world.stepHandler endpoints step = some next) : Inv py next := by
  cases (stepHandler_iff endpoints).mp hstep with
  | accept | makefile | reset | leave | raised => exact ⟨hinv.healthy, by simp [isHandling]⟩
  | spawn =>
    constructor
    · intro reader hreader
      rcases List.mem_append.mp hreader with hold | hnew
      · exact hinv.healthy reader hold
      · rw [List.mem_singleton.mp hnew]
        trivial
    · intro _ _
      exact ⟨.testing, by simp [readerThread], nofun⟩
  | stay hhandler | idle hhandler | take hhandler | perform hhandler | answer hhandler =>
    exact ⟨hinv.healthy, fun _ => hinv.running (by rw [hhandler]; rfl)⟩

theorem serves_of_wellFormed (py : Runtime) (endpoints : List (List Char)) (world : World)
    (run : (machine py endpoints).Reach (wellFormed py) {} world) : Serves py endpoints world := by
  have hinv : Inv py world := by
    apply run.invariant (Inv py) ⟨by simp, fun h => by cases h⟩
    intro state event next hinv hguard hstep
    cases event with
    | reader thread step => exact hinv.reader hguard hstep
    | handler step => exact hinv.handler hstep
  exact hinv.serves

/-- A request, and another one that arrives while the first is performed. -/
def twoRequests : List Event :=
  [.handler .accept, .handler .makefile, .handler .reset, .handler .spawn, .reader 0 .test,
    .handler .test, .reader 0 .call, .reader 0 (.line pidRequest), .handler .poll, .reader 0 .parse,
    .handler .test, .reader 0 .test, .handler .poll, .reader 0 .call, .handler .perform,
    .reader 0 (.line pidRequest), .handler (.send false)]

theorem serves_after_twoRequests :
    ∃ world, (machine exactRuntime [['/', 'p']]).exec {} twoRequests = some world ∧
      isHandling world.handler = true ∧ world.isConnectionClosed = false ∧
      Serves exactRuntime [['/', 'p']] world := by
  have hguard : (machine exactRuntime [['/', 'p']]).Guarded (wellFormed exactRuntime) {}
      twoRequests := by
    decide +kernel
  have hexec : ∃ world, (machine exactRuntime [['/', 'p']]).exec {} twoRequests = some world ∧
      isHandling world.handler = true ∧ world.isConnectionClosed = false := ⟨_, rfl, rfl, rfl⟩
  obtain ⟨world, hexec, hhandling, hopen⟩ := hexec
  exact ⟨world, hexec, hhandling, hopen,
    serves_of_wellFormed _ _ world (Machine.reach_of_exec_guarded hguard hexec)⟩

/-- A line that is not JSON, the client waiting for an answer. -/
def notJson : List Event :=
  [.handler .accept, .handler .makefile, .handler .reset, .handler .spawn, .handler .test,
    .reader 0 .test, .reader 0 .call, .reader 0 (.line ['x', '\n']), .reader 0 .parse]

/-- The reader it kills never sees the end of the connection. -/
theorem not_serves_after_notJson :
    ¬ ∀ world, (machine exactRuntime [['/', 'p']]).Reach Machine.anyEvent {} world →
      Serves exactRuntime [['/', 'p']] world := by
  intro hevery
  have hexec : ∃ world, (machine exactRuntime [['/', 'p']]).exec {} notJson = some world ∧
      isHandling world.handler = true ∧ world.isConnectionClosed = false ∧
      world.readers = [.died] := ⟨_, rfl, rfl, rfl, rfl⟩
  obtain ⟨world, hexec, hhandling, hopen, hreaders⟩ := hexec
  obtain ⟨reader, hrunning⟩ := (hevery world (Machine.reach_of_exec hexec)).running hhandling hopen
  have hfound := hrunning.found
  rw [hreaders] at hfound
  simp only [readerThread, hreaders] at hfound
  cases hfound
  exact hrunning.alive.1 rfl

end VacuumCleaner.Core.MalformedLines
