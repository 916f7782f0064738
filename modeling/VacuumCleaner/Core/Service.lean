import VacuumCleaner.Core.Requests
import VacuumCleaner.Lib.Machine

/-! `RequestHandlerService` under the thread that accepts connections. Each call
of `start_handling` starts a reader thread; one that saw the end of its
connection may still run when the next is served. -/
namespace VacuumCleaner.Core.Service

open Lib Lib.Json Requests

/-- A request with the connection it was read on, which the code forgets. -/
structure Received where
  connection : Nat
  request : Request

/-- Where a reader thread stands in `_keep_reading_data`. -/
inductive Reader
  | testing
  | calling
  | reading (connection : Nat)
  | holding (connection : Nat) (data : List Char)
  | closing
  | finished
  | died

/-- Where the service thread stands between `accept_connection` and the end of
`start_handling`. -/
inductive Handler
  | accepting
  | accepted
  | starting
  | spawning
  | testing
  | polling
  | performing (received : Received)
  | sending (received : Received)
  | failed

/-- What the clients can see: a handler performed, or a response sent, on the
connection that was the current one. -/
structure Act where
  received : Received
  connection : Nat

/-- `connection` and `reader` are the connections behind the two attributes of
the communicator, which are assigned one after the other. -/
structure World where
  connection : Nat := 0
  reader : Nat := 0
  isConnectionClosed : Bool := false
  queue : List Received := []
  readers : List Reader := []
  handler : Handler := .accepting
  performed : List Act := []
  sent : List Act := []

inductive ReaderStep
  | test
  | call
  | line (data : List Char)
  | undecodable
  | connectionClosed
  | parse
  | close
  deriving DecidableEq

inductive HandlerStep
  | accept
  | makefile
  | reset
  | spawn
  | test
  | poll
  | perform
  | send (raises : Bool)
  deriving DecidableEq

inductive Event
  | reader (thread : Nat) (step : ReaderStep)
  | handler (step : HandlerStep)
  deriving DecidableEq

variable (py : Runtime) (endpoints : List (List Char))

def World.setReader (world : World) (thread : Nat) (reader : Reader) : World :=
  { world with readers := world.readers.set thread reader }

def World.stepReader (world : World) (thread : Nat) (step : ReaderStep) : Option World :=
  match world.readers[thread]?, step with
  | some .testing, .test =>
    some (world.setReader thread (if world.isConnectionClosed then .finished else .calling))
  | some .calling, .call => some (world.setReader thread (.reading world.reader))
  | some (.reading connection), .line data =>
    some (world.setReader thread (.holding connection data))
  | some (.reading _), .undecodable => some (world.setReader thread .died)
  | some (.reading _), .connectionClosed => some (world.setReader thread .closing)
  | some (.holding connection data), .parse =>
    match parseRequest py data with
    | .ok request =>
      some { world.setReader thread .testing with
        queue := world.queue ++ [⟨connection, request⟩] }
    | .error _ => some (world.setReader thread .died)
  | some .closing, .close =>
    some { world.setReader thread .testing with isConnectionClosed := true }
  | _, _ => none

/-- `_find_corresponding_handler`. -/
def isRegistered (request : Request) : Bool :=
  match request.endpoint with
  | .string endpoint => endpoints.contains endpoint
  | _ => false

/-- A response is sent for a wrong endpoint as well. A send that raises ends
the service thread. -/
def World.stepHandler (world : World) (step : HandlerStep) : Option World :=
  match world.handler, step with
  | .accepting, .accept =>
    some { world with connection := world.connection + 1, handler := .accepted }
  | .accepted, .makefile => some { world with reader := world.connection, handler := .starting }
  | .starting, .reset => some { world with isConnectionClosed := false, handler := .spawning }
  | .spawning, .spawn =>
    some { world with readers := world.readers ++ [.testing], handler := .testing }
  | .testing, .test =>
    some { world with handler := if world.isConnectionClosed then .accepting else .polling }
  | .polling, .poll =>
    match world.queue with
    | [] => some { world with handler := .testing }
    | received :: queue => some { world with queue, handler := .performing received }
  | .performing received, .perform =>
    some { world with
      handler := .sending received
      performed := if isRegistered endpoints received.request then
        world.performed ++ [⟨received, world.connection⟩] else world.performed }
  | .sending received, .send raises =>
    if raises then some { world with handler := .failed }
    else some { world with
      handler := .testing
      sent := world.sent ++ [⟨received, world.connection⟩] }
  | _, _ => none

def World.step (world : World) : Event → Option World
  | .reader thread step => world.stepReader py thread step
  | .handler step => world.stepHandler endpoints step

def machine : Machine World Event := ⟨World.step py endpoints⟩

/-- Everything performed or sent belongs to the connection it was read on. -/
def OwnConnection (world : World) : Prop :=
  (∀ act ∈ world.performed, act.received.connection = act.connection) ∧
    ∀ act ∈ world.sent, act.received.connection = act.connection

/-- What the steps of a reader do: `queued` is what it puts on the queue, and
`raised` whether it sets the flag. -/
inductive Moves (world : World) : ReaderStep → Reader → Reader → List Received → Bool → Prop
  | leave : world.isConnectionClosed = true → Moves world .test .testing .finished [] false
  | enter : world.isConnectionClosed = false → Moves world .test .testing .calling [] false
  | call : Moves world .call .calling (.reading world.reader) [] false
  | line (connection : Nat) (data : List Char) :
    Moves world (.line data) (.reading connection) (.holding connection data) [] false
  | undecodable (connection : Nat) : Moves world .undecodable (.reading connection) .died [] false
  | ended (connection : Nat) :
    Moves world .connectionClosed (.reading connection) .closing [] false
  | put {connection : Nat} {data : List Char} {request : Request} :
    parseRequest py data = .ok request →
    Moves world .parse (.holding connection data) .testing [⟨connection, request⟩] false
  | malformed {connection : Nat} {data : List Char} {error : ParseError} :
    parseRequest py data = .error error →
    Moves world .parse (.holding connection data) .died [] false
  | close : Moves world .close .closing .testing [] true

def World.move (world : World) (thread : Nat) (after : Reader) (queued : List Received)
    (raised : Bool) : World :=
  { world.setReader thread after with
    queue := world.queue ++ queued
    isConnectionClosed := world.isConnectionClosed || raised }

theorem move_quiet (world : World) (thread : Nat) (after : Reader) :
    world.move thread after [] false = world.setReader thread after := by
  simp [World.move, World.setReader]

@[simp] theorem queue_move (world : World) (thread : Nat) (after : Reader)
    (queued : List Received) (raised : Bool) :
    (world.move thread after queued raised).queue = world.queue ++ queued := rfl

@[simp] theorem isConnectionClosed_move (world : World) (thread : Nat) (after : Reader)
    (queued : List Received) (raised : Bool) :
    (world.move thread after queued raised).isConnectionClosed =
      (world.isConnectionClosed || raised) := rfl

@[simp] theorem readers_move (world : World) (thread : Nat) (after : Reader)
    (queued : List Received) (raised : Bool) :
    (world.move thread after queued raised).readers = world.readers.set thread after := rfl

theorem stepReader_iff {world next : World} {thread : Nat} {step : ReaderStep} :
    world.stepReader py thread step = some next ↔
      ∃ before after queued raised, world.readers[thread]? = some before ∧
        Moves py world step before after queued raised ∧
        next = world.move thread after queued raised := by
  constructor
  · intro h
    unfold World.stepReader at h
    split at h <;> rename_i hreader
    · cases h
      cases hclosed : world.isConnectionClosed
      · exact ⟨_, _, _, _, hreader, .enter hclosed, (move_quiet ..).symm⟩
      · exact ⟨_, _, _, _, hreader, .leave hclosed, (move_quiet ..).symm⟩
    · cases h
      exact ⟨_, _, _, _, hreader, .call, (move_quiet ..).symm⟩
    · cases h
      exact ⟨_, _, _, _, hreader, .line .., (move_quiet ..).symm⟩
    · cases h
      exact ⟨_, _, _, _, hreader, .undecodable _, (move_quiet ..).symm⟩
    · cases h
      exact ⟨_, _, _, _, hreader, .ended _, (move_quiet ..).symm⟩
    · split at h <;> rename_i hparse
      · cases h
        exact ⟨_, _, _, _, hreader, .put hparse, by simp [World.move, World.setReader]⟩
      · cases h
        exact ⟨_, _, _, _, hreader, .malformed hparse, (move_quiet ..).symm⟩
    · cases h
      exact ⟨_, _, _, _, hreader, .close, by simp [World.move, World.setReader]⟩
    · cases h
  · rintro ⟨before, after, queued, raised, hreader, hmove, rfl⟩
    cases hmove <;> simp [World.stepReader, World.move, World.setReader, *]

/-- What the steps of the service thread do. -/
inductive Turns (world : World) : HandlerStep → World → Prop
  | accept : world.handler = .accepting →
    Turns world .accept { world with connection := world.connection + 1, handler := .accepted }
  | makefile : world.handler = .accepted →
    Turns world .makefile { world with reader := world.connection, handler := .starting }
  | reset : world.handler = .starting →
    Turns world .reset { world with isConnectionClosed := false, handler := .spawning }
  | spawn : world.handler = .spawning →
    Turns world .spawn { world with readers := world.readers ++ [.testing], handler := .testing }
  | leave : world.handler = .testing → world.isConnectionClosed = true →
    Turns world .test { world with handler := .accepting }
  | stay : world.handler = .testing → world.isConnectionClosed = false →
    Turns world .test { world with handler := .polling }
  | idle : world.handler = .polling → world.queue = [] →
    Turns world .poll { world with handler := .testing }
  | take {received : Received} {queue : List Received} : world.handler = .polling →
    world.queue = received :: queue →
    Turns world .poll { world with queue, handler := .performing received }
  | perform {received : Received} : world.handler = .performing received →
    Turns world .perform { world with
      handler := .sending received
      performed := if isRegistered endpoints received.request then
        world.performed ++ [⟨received, world.connection⟩] else world.performed }
  | raised {received : Received} : world.handler = .sending received →
    Turns world (.send true) { world with handler := .failed }
  | answer {received : Received} : world.handler = .sending received →
    Turns world (.send false) { world with
      handler := .testing
      sent := world.sent ++ [⟨received, world.connection⟩] }

theorem stepHandler_iff {world next : World} {step : HandlerStep} :
    world.stepHandler endpoints step = some next ↔ Turns endpoints world step next := by
  constructor
  · intro h
    unfold World.stepHandler at h
    split at h <;> rename_i hhandler
    · cases h
      exact .accept hhandler
    · cases h
      exact .makefile hhandler
    · cases h
      exact .reset hhandler
    · cases h
      exact .spawn hhandler
    · by_cases hclosed : world.isConnectionClosed = true
      · rw [if_pos hclosed] at h
        cases h
        exact .leave hhandler hclosed
      · rw [if_neg hclosed] at h
        cases h
        exact .stay hhandler (Bool.eq_false_iff.mpr hclosed)
    · split at h <;> rename_i hqueue
      · cases h
        exact .idle hhandler hqueue
      · cases h
        exact .take hhandler hqueue
    · cases h
      exact .perform hhandler
    · split at h
      · rename_i hraises
        subst hraises
        cases h
        exact .raised hhandler
      · rename_i hraises
        rw [Bool.not_eq_true] at hraises
        subst hraises
        cases h
        exact .answer hhandler
    · cases h
  · intro hturn
    cases hturn <;> simp [World.stepHandler, *]

theorem Turns.sent_grows {world next : World} {step : HandlerStep}
    (hturn : Turns endpoints world step next) : world.sent <+: next.sent := by
  cases hturn with
  | answer => exact List.prefix_append _ _
  | _ => exact List.prefix_rfl

/-- A reader between its test of the flag and the queue. -/
def Reader.isBusy : Reader → Bool
  | .calling | .reading _ | .holding .. => true
  | _ => false

/-- The handling loop leaves only when nothing is queued and no reader is busy. -/
def leavesIdle (world : World) : Event → Prop
  | .handler .test => world.isConnectionClosed = true →
      world.queue = [] ∧ ∀ reader ∈ world.readers, reader.isBusy = false
  | _ => True

instance (world : World) : (event : Event) → Decidable (leavesIdle world event)
  | .handler .test => inferInstanceAs (Decidable (world.isConnectionClosed = true →
      world.queue = [] ∧ ∀ reader ∈ world.readers, reader.isBusy = false))
  | .handler .accept | .handler .makefile | .handler .reset | .handler .spawn | .handler .poll
  | .handler .perform | .handler (.send _) | .reader .. => .isTrue trivial

end VacuumCleaner.Core.Service
