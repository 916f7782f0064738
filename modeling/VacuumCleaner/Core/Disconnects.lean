import VacuumCleaner.Core.Clients
import VacuumCleaner.Core.MalformedLines

/-! Clients that disappear. The service gets back to `accept_connection` as long
as no response is sent to a client that has gone, and no client leaves in the
middle of a line. -/
namespace VacuumCleaner.Core.Disconnects

open Lib Lib.Json Requests Service Clients
open MalformedLines (isHandling readerThread)

variable (py : Runtime)

def isRequest (data : List Char) : Bool :=
  match parseRequest py data with
  | .ok _ => true
  | .error _ => false

def isRequestPiece : Piece → Bool
  | .line data => isRequest py data
  | .undecodable => false

/-- Clients send requests; they may disappear at any moment. -/
def sendsRequests (_ : Clients.World) : Clients.Event → Prop
  | .arrive _ data => isRequest py data = true
  | _ => True

/-- A reader at this place gets a request, if it gets anything. -/
def getsRequest (place : Option Reader) (step : ReaderStep) : Bool :=
  match step, place with
  | .undecodable, _ => false
  | .parse, some (.holding _ data) => isRequest py data
  | _, _ => true

/-- No response is sent to a client that has gone, and the reader of the
connection gets no line that its client has left unfinished. -/
def staysForResponse (world : Clients.World) : Clients.Event → Prop
  | .arrive _ data => isRequest py data = true
  | .service (.reader thread step) =>
    isHandling world.service.handler = true → world.service.isConnectionClosed = false →
      thread = readerThread world.service →
      getsRequest py world.service.readers[thread]? step = true
  | .service (.handler (.send _)) => world.current.isGone = false
  | _ => True

instance (world : Clients.World) : (event : Clients.Event) → Decidable (sendsRequests py world event)
  | .arrive .. => inferInstanceAs (Decidable (_ = true))
  | .leave .. | .reset .. | .service _ => .isTrue trivial

instance (world : Clients.World) :
    (event : Clients.Event) → Decidable (staysForResponse py world event)
  | .arrive .. => inferInstanceAs (Decidable (_ = true))
  | .service (.reader thread step) =>
    inferInstanceAs (Decidable (_ = true → _ = false → thread = readerThread world.service →
      getsRequest py world.service.readers[thread]? step = true))
  | .service (.handler (.send _)) => inferInstanceAs (Decidable (_ = false))
  | .service (.handler .accept) | .service (.handler .makefile) | .service (.handler .reset)
  | .service (.handler .spawn) | .service (.handler .test) | .service (.handler .poll)
  | .service (.handler .perform) | .leave .. | .reset .. => .isTrue trivial

/-- The next client is answered whatever it asks. -/
def CanServe (endpoints : List (List Char)) (world : Clients.World) : Prop :=
  (world.client (world.service.connection + 1)).isGone = false →
    ∀ data request, parseRequest py data = .ok request →
      ∃ next, (Clients.machine py endpoints).Reach (sendsRequests py) world next ∧
        next.service.connection = world.service.connection + 1 ∧
        ⟨⟨next.service.connection, request⟩, next.service.connection⟩ ∈ next.service.sent

/-- The service waits for the next client. -/
def isBack (world : Clients.World) : Prop := world.service.handler = .accepting

/-- What `run` promises about clients that disappear. -/
structure Survives {endpoints : List (List Char)} {start : Clients.World}
    (behaviour : Behaviour (Clients.machine py endpoints) start) : Prop where
  never : ∀ instant, (behaviour.state instant).service.handler ≠ .failed
  returns : behaviour.LeadsTo (fun world => world.current.isGone = true) isBack
  serves : ∀ instant, isBack (behaviour.state instant) →
    CanServe py endpoints (behaviour.state instant)

/-- A reader of the connection that will see its end. -/
def keeps (connection : Nat) (isClosed : Bool) : Reader → Prop
  | .reading own => own = connection
  | .holding own _ => own = connection
  | .finished | .died => isClosed = true
  | .testing | .calling | .closing => True

def Phase (service : Service.World) : Prop :=
  match service.handler with
  | .accepting | .accepted => True
  | .starting | .spawning => service.reader = service.connection
  | .testing | .polling | .performing _ | .sending _ =>
    service.reader = service.connection ∧ ∃ reader, service.readers[readerThread service]? = some reader ∧
      keeps service.connection service.isConnectionClosed reader
  | .failed => False

structure Inv (world : Clients.World) : Prop where
  unread : ∀ connection, (world.client connection).isGone = false →
    ∀ piece ∈ (world.client connection).unread, isRequestPiece py piece = true
  phase : Phase world.service

theorem Inv.start : Inv py {} where
  unread _ _ _ hpiece := by cases hpiece
  phase := trivial

variable {py} {endpoints : List (List Char)} {world next : Clients.World}

theorem isRequest_iff {data : List Char} :
    isRequest py data = true ↔ ∃ request, parseRequest py data = .ok request := by
  unfold isRequest
  cases parseRequest py data with
  | ok request => simp
  | error error => simp

section Steps

theorem unread_setClient (inv : Inv py world) {connection : Nat} {client : Client}
    (hclient : client.isGone = false → ∀ piece ∈ client.unread, isRequestPiece py piece = true)
    (other : Nat) (hhere : ((world.setClient connection client).client other).isGone = false) :
    ∀ piece ∈ ((world.setClient connection client).client other).unread,
      isRequestPiece py piece = true := by
  by_cases hsame : other = connection
  · subst hsame
    simp only [Clients.World.setClient, Function.update_self] at hhere ⊢
    exact hclient hhere
  · simp only [Clients.World.setClient, Function.update_of_ne hsame] at hhere ⊢
    exact inv.unread other hhere

theorem Inv.of_client (inv : Inv py world) {event : Clients.Event}
    (hguard : staysForResponse py world event) (hclient : ∀ service, event ≠ .service service)
    (hstep : Clients.World.step py endpoints world event = some next) : Inv py next := by
  obtain ⟨connection, client, hacts, -, rfl⟩ := stepClient_cases hstep hclient
  refine ⟨unread_setClient inv fun hhere => ?_, inv.phase⟩
  cases hacts with
  | arrive connection data =>
    intro piece hpiece
    obtain hold | hnew := List.mem_append.mp hpiece
    · exact inv.unread connection hhere piece hold
    · rw [List.mem_singleton.mp hnew]
      exact hguard
  | leave | reset => cases hhere

theorem alive_of_move {step : ReaderStep} {before after : Reader} {queued : List Received}
    {raised : Bool} (hmove : Moves py world.service step before after queued raised)
    (hgets : getsRequest py (some before) step = true) : after ≠ .died := by
  cases hmove with
  | undecodable => cases hgets
  | malformed herror =>
    obtain ⟨request, hparse⟩ := isRequest_iff.mp hgets
    rw [hparse] at herror
    cases herror
  | _ => nofun

theorem keeps_of_move {step : ReaderStep} {before after : Reader} {queued : List Received}
    {raised : Bool} (hmove : Moves py world.service step before after queued raised)
    (hreader : world.service.reader = world.service.connection)
    (hkeeps : keeps world.service.connection world.service.isConnectionClosed before)
    (hgets : world.service.isConnectionClosed = false →
      getsRequest py (some before) step = true) :
    keeps world.service.connection (world.service.isConnectionClosed || raised) after := by
  have hclosed : after = .died → world.service.isConnectionClosed = true := by
    intro hdied
    by_contra hopen
    exact alive_of_move hmove (hgets (by simpa using hopen)) hdied
  cases hmove with
  | leave hflag => simpa [keeps] using hflag
  | enter | put | ended | close => trivial
  | call => exact hreader
  | line => exact hkeeps
  | undecodable | malformed => simpa [keeps] using hclosed rfl

theorem keeps_raised {connection : Nat} {isClosed : Bool} {reader : Reader} (raised : Bool)
    (hkeeps : keeps connection isClosed reader) :
    keeps connection (isClosed || raised) reader := by
  cases reader with
  | finished | died =>
    rw [show isClosed = true from hkeeps, Bool.true_or]
    rfl
  | _ => exact hkeeps

theorem readerThread_move (service : Service.World) (thread : Nat) (after : Reader)
    (queued : List Received) (raised : Bool) :
    readerThread (service.move thread after queued raised) = readerThread service := by
  simp [readerThread]

theorem Inv.of_reader (inv : Inv py world) {thread : Nat} {step : ReaderStep}
    (hguard : staysForResponse py world (.service (.reader thread step)))
    (hstep : Clients.World.step py endpoints world (.service (.reader thread step)) = some next) :
    Inv py next := by
  obtain ⟨before, after, queued, raised, hfound, hmove, hservice, hhears⟩ := stepReader_cases hstep
  constructor
  · intro connection hhere piece hpiece
    rw [(hhears.client_same connection).2] at hhere
    obtain hsame | ⟨head, htaken⟩ := hhears.unread connection
    · exact inv.unread connection hhere piece (hsame ▸ hpiece)
    · exact inv.unread connection hhere piece (htaken ▸ .tail _ hpiece)
  · have hphase := inv.phase
    rw [hservice]
    unfold Phase at hphase ⊢
    rw [show (world.service.move thread after queued raised).handler = world.service.handler from rfl]
    cases hhandler : world.service.handler with
    | accepting | accepted => trivial
    | failed =>
      rw [hhandler] at hphase
      exact hphase
    | starting | spawning =>
      rw [hhandler] at hphase
      exact hphase
    | testing | polling | performing received | sending received =>
      rw [hhandler] at hphase
      obtain ⟨hreader, reader, hkeeper, hkeeps⟩ := hphase
      refine ⟨hreader, ?_⟩
      rw [readerThread_move, isConnectionClosed_move, readers_move, List.getElem?_set]
      by_cases hthread : thread = readerThread world.service
      · have hbound : thread < world.service.readers.length :=
          (List.getElem?_eq_some_iff.mp hfound).1
        rw [← hthread, hfound] at hkeeper
        cases hkeeper
        rw [if_pos hthread, if_pos hbound]
        refine ⟨after, rfl, keeps_of_move hmove hreader hkeeps fun hopen => ?_⟩
        have hgets := hguard (by rw [hhandler]; rfl) hopen hthread
        rwa [hfound] at hgets
      · rw [if_neg hthread]
        exact ⟨reader, hkeeper, keeps_raised raised hkeeps⟩

theorem Inv.of_handler (inv : Inv py world) {step : HandlerStep}
    (hguard : staysForResponse py world (.service (.handler step)))
    (hstep : Clients.World.step py endpoints world (.service (.handler step)) = some next) :
    Inv py next := by
  obtain ⟨hturn, hclient, hraises⟩ := stepHandler_cases hstep
  refine ⟨by rw [hclient]; exact inv.unread, ?_⟩
  have hphase := inv.phase
  unfold Phase at hphase
  generalize next.service = service at hturn
  cases hturn with
  | accept => trivial
  | makefile => rfl
  | reset hhandler =>
    rw [hhandler] at hphase
    exact hphase
  | spawn hhandler =>
    rw [hhandler] at hphase
    refine ⟨hphase, .testing, ?_, trivial⟩
    simp [readerThread]
  | leave => trivial
  | raised =>
    have hgone := hraises true rfl
    rw [show world.current.isGone = false from hguard] at hgone
    cases hgone
  | stay hhandler | idle hhandler | take hhandler | perform hhandler | answer hhandler =>
    rw [hhandler] at hphase
    exact hphase

theorem Inv.step (inv : Inv py world) {event : Clients.Event}
    (hguard : staysForResponse py world event)
    (hstep : Clients.World.step py endpoints world event = some next) : Inv py next := by
  match event with
  | .arrive .. | .leave .. | .reset .. => exact inv.of_client hguard nofun hstep
  | .service (.reader ..) => exact inv.of_reader hguard hstep
  | .service (.handler _) => exact inv.of_handler hguard hstep

/-! The way back to `accept_connection` once the client has gone. -/

/-- The steps of a reader to the end of the connection, or to the next line. -/
def stepsToEnd : Reader → Nat
  | .holding .. => 5
  | .testing => 4
  | .calling => 3
  | .reading _ => 2
  | .closing => 1
  | _ => 0

/-- Decreases towards the flag. -/
def stepsToFlag (world : Clients.World) : Nat :=
  5 * world.current.unread.length +
    (world.service.readers[readerThread world.service]?).elim 0 stepsToEnd + 4

/-- The turns of the service thread to its handling loop. -/
def turnsToLoop : Handler → Nat
  | .accepted => 12
  | .starting => 11
  | .spawning => 10
  | _ => 0

/-- The turns of the handling loop to its end, with the flag up. -/
def turnsLeft : Handler → Nat
  | .polling => 4
  | .performing _ => 3
  | .sending _ => 2
  | .testing => 1
  | _ => 0

def stepsBack (world : Clients.World) : Nat :=
  if isHandling world.service.handler then
    if world.service.isConnectionClosed then turnsLeft world.service.handler
    else stepsToFlag world
  else 5 * world.current.unread.length + turnsToLoop world.service.handler

/-- The thread that the way back waits for. -/
def awaited (world : Clients.World) : Thread :=
  if isHandling world.service.handler && !world.service.isConnectionClosed then
    .reader (readerThread world.service)
  else .handler

/-- The client has gone while its connection is served. -/
structure Left (py : Runtime) (world : Clients.World) : Prop where
  inv : Inv py world
  gone : world.current.isGone = true

theorem stepsToEnd_of_move {step : ReaderStep} {before after : Reader} {queued : List Received}
    {client : Nat → Client} (hmove : Moves py world.service step before after queued false)
    (hhears : Hears world step before client)
    (hopen : world.service.isConnectionClosed = false)
    (hkeeps : keeps world.service.connection false before)
    (hgets : getsRequest py (some before) step = true) :
    5 * (client world.service.connection).unread.length + stepsToEnd after <
      5 * world.current.unread.length + stepsToEnd before := by
  have halive := alive_of_move hmove hgets
  unfold Clients.World.current
  cases hhears with
  | @line connection data unread hunread =>
    cases hmove
    obtain rfl : connection = world.service.connection := hkeeps
    simp only [Function.update_self, hunread, List.length_cons, stepsToEnd]
    omega
  | undecodable => cases hgets
  | parse =>
    cases hmove with
    | put => exact Nat.lt_succ_self _
    | malformed => exact absurd rfl halive
  | test =>
    cases hmove with
    | leave hclosed =>
      rw [hopen] at hclosed
      cases hclosed
    | enter => exact Nat.lt_succ_self _
  | call | ended =>
    cases hmove
    exact Nat.lt_succ_self _
  | close => cases hmove

theorem stepsToEnd_pos {connection : Nat} {reader : Reader}
    (hkeeps : keeps connection false reader) : 0 < stepsToEnd reader := by
  cases reader with
  | finished | died => cases hkeeps
  | _ => exact Nat.zero_lt_succ _

theorem client_gone {event : Clients.Event}
    (hstep : Clients.World.step py endpoints world event = some next)
    (hclient : ∀ service, event ≠ .service service) {connection : Nat}
    (hgone : (world.client connection).isGone = true) :
    next.service = world.service ∧ next.client connection = world.client connection := by
  obtain ⟨own, client, -, hhere, rfl⟩ := stepClient_cases hstep hclient
  refine ⟨rfl, Function.update_of_ne ?_ ..⟩
  rintro rfl
  rw [hgone] at hhere
  cases hhere

theorem unread_le_of_hears {step : ReaderStep} {before : Reader} {client : Nat → Client}
    (hhears : Hears world step before client) (connection : Nat) :
    (client connection).unread.length ≤ (world.client connection).unread.length := by
  obtain hsame | ⟨piece, htaken⟩ := hhears.unread connection
  · rw [hsame]
  · rw [htaken]
    exact Nat.le_succ _

/-- As long as the flag is down the keeper comes closer to the end, and every
other reader thread leaves it there or takes a line from it. -/
theorem stepsToFlag_of_move {thread : Nat} {step : ReaderStep}
    {before after : Reader} {queued : List Received} {client : Nat → Client}
    (hfound : world.service.readers[thread]? = some before)
    (hmove : Moves py world.service step before after queued false)
    (hhears : Hears world step before client)
    (hopen : world.service.isConnectionClosed = false) {reader : Reader}
    (hkeeper : world.service.readers[readerThread world.service]? = some reader)
    (hkeeps : keeps world.service.connection false reader)
    (hgets : thread = readerThread world.service →
      getsRequest py world.service.readers[thread]? step = true) :
    stepsToFlag ⟨world.service.move thread after queued false, client⟩ < stepsToFlag world ∨
      thread ≠ readerThread world.service ∧
      stepsToFlag ⟨world.service.move thread after queued false, client⟩ = stepsToFlag world := by
  have hunread := unread_le_of_hears hhears world.service.connection
  unfold stepsToFlag
  simp only [Clients.World.current, readerThread_move, readers_move, List.getElem?_set]
  rw [show (world.service.move thread after queued false).connection = world.service.connection
    from rfl]
  by_cases hthread : thread = readerThread world.service
  · left
    have hbound : thread < world.service.readers.length :=
      (List.getElem?_eq_some_iff.mp hfound).1
    rw [← hthread, hfound] at hkeeper
    cases hkeeper
    have hgets := hgets hthread
    rw [hfound] at hgets
    have hfalls := stepsToEnd_of_move hmove hhears hopen hkeeps hgets
    rw [if_pos hthread, if_pos hbound, ← hthread, hfound]
    simp only [Option.elim_some]
    exact Nat.add_lt_add_right hfalls 4
  · rw [if_neg hthread]
    obtain hless | hsame := Nat.lt_or_eq_of_le hunread
    · left
      omega
    · right
      exact ⟨hthread, by rw [hsame]⟩

theorem Left.step (hleft : Left py world) {event : Clients.Event} (hback : ¬ isBack world)
    (hguard : staysForResponse py world event)
    (hstep : Clients.World.step py endpoints world event = some next) : Left py next := by
  refine ⟨hleft.inv.step hguard hstep, ?_⟩
  have hgone := hleft.gone
  unfold Clients.World.current at hgone ⊢
  match event with
  | .arrive .. | .leave .. | .reset .. =>
    obtain ⟨hservice, hclient⟩ := client_gone hstep nofun hgone
    rw [hservice, hclient]
    exact hgone
  | .service (.reader thread step) =>
    obtain ⟨before, after, queued, raised, -, -, hservice, hhears⟩ := stepReader_cases hstep
    rw [hservice]
    exact (hhears.client_same _).2.trans hgone
  | .service (.handler step) =>
    obtain ⟨hturn, hclient, -⟩ := stepHandler_cases hstep
    rw [hclient]
    generalize next.service = service at hturn
    cases hturn with
    | accept hhandler => exact absurd hhandler hback
    | _ => exact hgone

theorem turnsLeft_le (handler : Handler) : turnsLeft handler ≤ 4 := by
  cases handler with
  | polling | performing | sending | testing => simp [turnsLeft]
  | _ => exact Nat.zero_le _

theorem Phase.handling (hphase : Phase world.service)
    (hhandling : isHandling world.service.handler = true) :
    world.service.reader = world.service.connection ∧
      ∃ reader, world.service.readers[readerThread world.service]? = some reader ∧
        keeps world.service.connection world.service.isConnectionClosed reader := by
  unfold Phase at hphase
  cases hhandler : world.service.handler with
  | testing | polling | performing received | sending received =>
    rw [hhandler] at hphase
    exact hphase
  | _ =>
    rw [hhandler] at hhandling
    cases hhandling

theorem Left.reader_approaches (hleft : Left py world) {reader : Nat} {step : ReaderStep}
    (hnext : Left py next) (hguard : staysForResponse py world (.service (.reader reader step)))
    (hstep : Clients.World.step py endpoints world (.service (.reader reader step)) = some next) :
    Behaviour.Approaches isBack (Left py) stepsBack thread awaited world
      (.service (.reader reader step)) next := by
  refine .inr ⟨hnext, ?_⟩
  obtain ⟨before, after, queued, raised, hfound, hmove, hservice, hhears⟩ := stepReader_cases hstep
  obtain ⟨service, client⟩ := next
  dsimp only at hservice hhears
  subst hservice
  have hhandler : (world.service.move reader after queued raised).handler =
    world.service.handler := rfl
  unfold stepsBack awaited
  dsimp only
  rw [hhandler, isConnectionClosed_move, readerThread_move]
  cases hhandling : isHandling world.service.handler with
  | false =>
    have hunread := unread_le_of_hears hhears world.service.connection
    obtain hless | hsame := Nat.lt_or_eq_of_le hunread
    · left
      simpa [Clients.World.current, Service.World.move, Service.World.setReader] using hless
    · right
      refine ⟨by simp [thread], ?_, rfl⟩
      simpa [Clients.World.current, Service.World.move, Service.World.setReader] using hsame
  | true =>
    obtain ⟨-, own, hkeeper, hkeeps⟩ := hleft.inv.phase.handling hhandling
    cases hclosed : world.service.isConnectionClosed with
    | true =>
      right
      exact ⟨by simp [thread], rfl, rfl⟩
    | false =>
      rw [hclosed] at hkeeps
      cases raised with
      | true =>
        left
        have hbound := turnsLeft_le world.service.handler
        have hpos := stepsToEnd_pos hkeeps
        simp only [Bool.or_true, if_true, stepsToFlag, hkeeper, Option.elim_some]
        rw [if_neg (by decide)]
        omega
      | false =>
        obtain hless | ⟨hother, hsame⟩ :=
          stepsToFlag_of_move hfound hmove hhears hclosed hkeeper hkeeps (hguard hhandling hclosed)
        · left
          simpa using hless
        · right
          refine ⟨?_, by simpa using hsame, rfl⟩
          simpa [thread] using hother

theorem thread_handler_ne (step : HandlerStep) (reader : Nat) :
    thread (.service (.handler step)) ≠ some (.reader reader) := by
  cases step <;> nofun

theorem turn_approaches {service : Service.World} (step : HandlerStep)
    (hhandling : isHandling world.service.handler = true)
    (hstill : isHandling service.handler = true)
    (hclosed : service.isConnectionClosed = world.service.isConnectionClosed)
    (hconnection : service.connection = world.service.connection)
    (hreaders : service.readers = world.service.readers)
    (hless : world.service.isConnectionClosed = true →
      turnsLeft service.handler < turnsLeft world.service.handler) :
    stepsBack ⟨service, world.client⟩ < stepsBack world ∨
      thread (.service (.handler step)) ≠ some (awaited world) ∧
        stepsBack ⟨service, world.client⟩ = stepsBack world ∧
        awaited ⟨service, world.client⟩ = awaited world := by
  unfold stepsBack awaited
  simp only [hhandling, hstill, hclosed, if_true, Bool.true_and]
  cases hflag : world.service.isConnectionClosed with
  | true => exact .inl (hless hflag)
  | false =>
    right
    refine ⟨thread_handler_ne step _, ?_, ?_⟩
    · simp [stepsToFlag, Clients.World.current, readerThread, hconnection, hreaders]
    · simp [readerThread, hreaders]

theorem handler_approaches {step : HandlerStep} (hback : ¬ isBack world)
    (hnext : Left py next) (hguard : staysForResponse py world (.service (.handler step)))
    (hstep : Clients.World.step py endpoints world (.service (.handler step)) = some next) :
    Behaviour.Approaches isBack (Left py) stepsBack thread awaited world
      (.service (.handler step)) next := by
  obtain ⟨hturn, hclient, hraises⟩ := stepHandler_cases hstep
  obtain ⟨service, client⟩ := next
  dsimp only at hturn hclient
  subst hclient
  cases hturn with
  | accept hhandler => exact absurd hhandler hback
  | leave => exact .inl rfl
  | raised =>
    have hgone := hraises true rfl
    rw [show world.current.isGone = false from hguard] at hgone
    cases hgone
  | makefile hhandler | reset hhandler =>
    refine .inr ⟨hnext, .inl ?_⟩
    simp [stepsBack, isHandling, turnsToLoop, hhandler, Clients.World.current]
  | spawn hhandler =>
    refine .inr ⟨hnext, .inl ?_⟩
    cases hflag : world.service.isConnectionClosed <;>
      simp [stepsBack, isHandling, turnsToLoop, turnsLeft, stepsToFlag, stepsToEnd, readerThread,
        hhandler, Clients.World.current]
  | stay hhandler hopen =>
    refine .inr ⟨hnext, turn_approaches _ (by rw [hhandler]; rfl) rfl rfl rfl rfl fun hflag => ?_⟩
    rw [hopen] at hflag
    cases hflag
  | idle hhandler | take hhandler | perform hhandler | answer hhandler =>
    refine .inr ⟨hnext, turn_approaches _ (by rw [hhandler]; rfl) rfl rfl rfl rfl fun _ => ?_⟩
    rw [hhandler]
    simp [turnsLeft]

theorem Left.approaches (hleft : Left py world) {event : Clients.Event} (hback : ¬ isBack world)
    (hguard : staysForResponse py world event)
    (hstep : Clients.World.step py endpoints world event = some next) :
    Behaviour.Approaches isBack (Left py) stepsBack thread awaited world event next := by
  have hnext := hleft.step hback hguard hstep
  match event with
  | .arrive .. | .leave .. | .reset .. =>
    obtain ⟨hservice, hclient⟩ := client_gone hstep nofun hleft.gone
    refine .inr ⟨hnext, .inr ⟨nofun, ?_, ?_⟩⟩
    · simp only [stepsBack, stepsToFlag, Clients.World.current, hservice, hclient]
    · simp only [awaited, hservice]
  | .service (.reader ..) => exact hleft.reader_approaches hnext hguard hstep
  | .service (.handler _) => exact handler_approaches hback hnext hguard hstep

theorem Left.enabled (hleft : Left py world) (hback : ¬ isBack world) :
    Behaviour.Enabled (Clients.machine py endpoints) thread (awaited world) world := by
  have hphase := hleft.inv.phase
  unfold awaited
  split
  · rename_i hwaits
    rw [Bool.and_eq_true, Bool.not_eq_true'] at hwaits
    obtain ⟨hhandling, hopen⟩ := hwaits
    obtain ⟨-, reader, hkeeper, hkeeps⟩ := hphase.handling hhandling
    refine enabled_reader_iff.mpr ⟨reader, hkeeper, ?_⟩
    rw [hopen] at hkeeps
    cases reader with
    | testing | calling | holding | closing => trivial
    | finished | died => cases hkeeps
    | reading connection =>
      obtain rfl : connection = world.service.connection := hkeeps
      exact .inr hleft.gone
  · refine enabled_handler_iff.mpr ⟨hback, fun hfailed => ?_⟩
    unfold Phase at hphase
    rw [hfailed] at hphase
    exact hphase

end Steps

/-! The next client is served: its lines are read, and the queue is worked off. -/

section Serving

/-- The loop runs for a client that is there, with a thread of its own where
the client's lines are read. -/
structure Runs (thread : Nat) (place : Reader) (world : Clients.World) : Prop where
  handler : world.service.handler = .testing
  isOpen : world.service.isConnectionClosed = false
  reader : world.service.reader = world.service.connection
  found : world.service.readers[thread]? = some place
  here : world.current.isGone = false

/-- Reader steps that put `queued` on the queue. -/
structure Fetches (py : Runtime) (endpoints : List (List Char)) (world next : Clients.World)
    (queued : List Received) : Prop where
  run : (Clients.machine py endpoints).Reach (sendsRequests py) world next
  connection : next.service.connection = world.service.connection
  queue : next.service.queue = world.service.queue ++ queued

theorem Fetches.trans {middle : Clients.World} {first second : List Received}
    (left : Fetches py endpoints world middle first)
    (right : Fetches py endpoints middle next second) :
    Fetches py endpoints world next (first ++ second) := by
  refine ⟨left.run.trans right.run, right.connection.trans left.connection, ?_⟩
  rw [right.queue, left.queue, List.append_assoc]

variable (py endpoints)

theorem Runs.move {thread : Nat} {step : ReaderStep} {before after : Reader}
    {queued : List Received} {client : Nat → Client} (hruns : Runs thread before world)
    (hmove : Moves py world.service step before after queued false)
    (hhears : Hears world step before client) :
    ∃ next, Fetches py endpoints world next queued ∧ Runs thread after next ∧
      next.client = client := by
  obtain ⟨hhandler, hopen, hreader, hfound, hhere⟩ := hruns
  have hstep : (Clients.machine py endpoints).step world (.service (.reader thread step)) =
      some ⟨world.service.move thread after queued false, client⟩ :=
    step_of_hears hfound hmove hhears
  refine ⟨_, ⟨.one hstep trivial, rfl, rfl⟩, ⟨hhandler, ?_, hreader, ?_, ?_⟩, rfl⟩
  · rw [isConnectionClosed_move, hopen]
    rfl
  · rw [readers_move, List.getElem?_set, if_pos rfl,
      if_pos (List.getElem?_eq_some_iff.mp hfound).1]
  · exact (hhears.client_same _).2.trans hhere

theorem Runs.read {thread : Nat} (hruns : Runs thread .testing world) {data : List Char}
    {unread : List Piece} {request : Request}
    (hunread : world.current.unread = .line data :: unread)
    (hparse : parseRequest py data = .ok request) :
    ∃ next, Fetches py endpoints world next [⟨world.service.connection, request⟩] ∧
      Runs thread .testing next ∧ next.current.unread = unread := by
  obtain ⟨first, hfirst, hruns₁, hclient₁⟩ :=
    hruns.move py endpoints (.enter hruns.isOpen) .test
  obtain ⟨second, hsecond, hruns₂, hclient₂⟩ :=
    hruns₁.move py endpoints .call .call
  have hconnection : first.service.reader = world.service.connection :=
    hruns₁.reader.trans hfirst.connection
  have hthere : (second.client first.service.reader).unread = .line data :: unread := by
    rw [hclient₂, hclient₁, hconnection]
    exact hunread
  obtain ⟨third, hthird, hruns₃, hclient₃⟩ :=
    hruns₂.move py endpoints (.line _ data) (.line hthere)
  obtain ⟨next, hlast, hruns₄, hclient₄⟩ :=
    hruns₃.move py endpoints (.put hparse) .parse
  have hfetches := ((hfirst.trans hsecond).trans hthird).trans hlast
  rw [hconnection] at hfetches
  refine ⟨next, hfetches, hruns₄, ?_⟩
  rw [Clients.World.current, hfetches.connection, hclient₄, hclient₃, hconnection,
    Function.update_self]

theorem Runs.readAll {thread : Nat} {unread : List Piece} (hruns : Runs thread .testing world)
    (hunread : world.current.unread = unread)
    (hrequests : ∀ piece ∈ unread, isRequestPiece py piece = true) :
    ∃ next queued, Fetches py endpoints world next queued ∧ Runs thread .testing next ∧
      ∀ data request, Piece.line data ∈ unread → parseRequest py data = .ok request →
        ⟨world.service.connection, request⟩ ∈ queued := by
  induction unread generalizing world with
  | nil => exact ⟨world, [], ⟨.refl, rfl, (List.append_nil _).symm⟩, hruns, nofun⟩
  | cons piece unread ih =>
    have hpiece := hrequests piece (.head _)
    cases piece with
    | undecodable => cases hpiece
    | line data =>
      obtain ⟨request, hparse⟩ := isRequest_iff.mp hpiece
      obtain ⟨middle, hmiddle, hruns, hunread⟩ := hruns.read py endpoints hunread hparse
      obtain ⟨next, queued, hnext, hruns, hqueued⟩ :=
        ih hruns hunread fun piece hpiece => hrequests piece (.tail _ hpiece)
      refine ⟨next, _, hmiddle.trans hnext, hruns, fun other asked hother hasked => ?_⟩
      obtain heq | hlater := List.mem_cons.mp hother
      · cases heq
        rw [hparse] at hasked
        cases hasked
        exact .head _
      · rw [hmiddle.connection] at hqueued
        exact .tail _ (hqueued other asked hlater hasked)

/-- The world with the first request of the queue answered. -/
def answered (endpoints : List (List Char)) (world : Clients.World) (received : Received)
    (queue : List Received) : Clients.World :=
  { world with service := { world.service with
      handler := .testing
      queue
      performed := if isRegistered endpoints received.request then
        world.service.performed ++ [⟨received, world.service.connection⟩]
        else world.service.performed
      sent := world.service.sent ++ [⟨received, world.service.connection⟩] } }

theorem reach_answered (hhandler : world.service.handler = .testing)
    (hopen : world.service.isConnectionClosed = false) (hhere : world.current.isGone = false)
    {received : Received} {queue : List Received} (hqueue : world.service.queue = received :: queue) :
    (Clients.machine py endpoints).Reach (sendsRequests py) world
      (answered endpoints world received queue) := by
  have hguard : ∀ start, (Clients.machine py endpoints).Guarded (sendsRequests py) start
      [.service (.handler .test), .service (.handler .poll), .service (.handler .perform),
        .service (.handler (.send false))] := fun _ =>
    ⟨trivial, fun _ _ => ⟨trivial, fun _ _ => ⟨trivial, fun _ _ => ⟨trivial, fun _ _ => trivial⟩⟩⟩⟩
  refine Machine.reach_of_exec_guarded (hguard world) ?_
  unfold Clients.World.current at hhere
  simp [Clients.machine, Clients.World.step, Clients.World.hear, Service.World.step,
    Service.World.stepHandler, answered, hhandler, hopen, hqueue, hhere, Clients.World.current]

theorem reach_allAnswered {queue : List Received} (hhandler : world.service.handler = .testing)
    (hopen : world.service.isConnectionClosed = false) (hhere : world.current.isGone = false)
    (hqueue : world.service.queue = queue) :
    ∃ next, (Clients.machine py endpoints).Reach (sendsRequests py) world next ∧
      next.service.connection = world.service.connection ∧
      world.service.sent <+: next.service.sent ∧
      ∀ received ∈ queue, ⟨received, world.service.connection⟩ ∈ next.service.sent := by
  induction queue generalizing world with
  | nil => exact ⟨world, .refl, rfl, List.prefix_rfl, nofun⟩
  | cons received queue ih =>
    have hone := reach_answered py endpoints hhandler hopen hhere hqueue
    have hhandlerNow : (answered endpoints world received queue).service.handler = .testing := rfl
    obtain ⟨next, hnext, hconnection, hsent, hall⟩ := ih hhandlerNow hopen hhere rfl
    refine ⟨next, hone.trans hnext, hconnection, ?_, fun other hother => ?_⟩
    · exact (List.prefix_append _ _).trans hsent
    · obtain rfl | hlater := List.mem_cons.mp hother
      · exact hsent.subset (List.mem_append_right _ (List.mem_singleton.mpr rfl))
      · exact hall other hlater

theorem reach_next (hback : isBack world)
    (hhere : (world.client (world.service.connection + 1)).isGone = false) :
    ∃ next, (Clients.machine py endpoints).Reach (sendsRequests py) world next ∧
      Runs world.service.readers.length .testing next ∧
      next.service.connection = world.service.connection + 1 ∧ next.client = world.client := by
  have hguard : (Clients.machine py endpoints).Guarded (sendsRequests py) world
      [.service (.handler .accept), .service (.handler .makefile), .service (.handler .reset),
        .service (.handler .spawn)] :=
    ⟨trivial, fun _ _ => ⟨trivial, fun _ _ => ⟨trivial, fun _ _ => ⟨trivial, fun _ _ => trivial⟩⟩⟩⟩
  unfold isBack at hback
  refine ⟨{ world with service := { world.service with
      connection := world.service.connection + 1
      reader := world.service.connection + 1
      isConnectionClosed := false
      readers := world.service.readers ++ [.testing]
      handler := .testing } }, ?_, ⟨rfl, rfl, rfl, ?_, hhere⟩, rfl, rfl⟩
  · refine Machine.reach_of_exec_guarded hguard ?_
    simp [Clients.machine, Clients.World.step, Clients.World.hear, Service.World.step,
      Service.World.stepHandler, hback]
  · simp

theorem Runs.arrive {thread : Nat} {place : Reader} (hruns : Runs thread place world)
    {data : List Char} (hrequest : isRequest py data = true) :
    ∃ next, (Clients.machine py endpoints).Reach (sendsRequests py) world next ∧
      Runs thread place next ∧ next.service.connection = world.service.connection ∧
      next.current.unread = world.current.unread ++ [.line data] := by
  have hhere := hruns.here
  have hstep : (Clients.machine py endpoints).step world (.arrive world.service.connection data) =
      some (world.setClient world.service.connection { world.current with
        arrived := world.current.arrived ++ [data]
        unread := world.current.unread ++ [.line data] }) := by
    unfold Clients.World.current at hhere ⊢
    simp [Clients.machine, Clients.World.step, hhere]
  refine ⟨_, .one hstep hrequest, ?_, rfl, ?_⟩
  · refine ⟨hruns.handler, hruns.isOpen, hruns.reader, hruns.found, ?_⟩
    simpa [Clients.World.current, Clients.World.setClient] using hhere
  · simp [Clients.World.current, Clients.World.setClient]

theorem Inv.canServe (inv : Inv py world) (hback : isBack world) : CanServe py endpoints world := by
  intro hhere data request hparse
  have hrequest : isRequest py data = true := isRequest_iff.mpr ⟨request, hparse⟩
  obtain ⟨first, hfirst, hruns, hconnection, hclient⟩ :=
    reach_next py endpoints hback hhere
  obtain ⟨second, hsecond, hruns, hsame, hunread⟩ :=
    hruns.arrive py endpoints hrequest
  have hrequests : ∀ piece ∈ first.current.unread ++ [.line data],
      isRequestPiece py piece = true := by
    intro piece hpiece
    obtain hold | hnew := List.mem_append.mp hpiece
    · rw [Clients.World.current, hclient] at hold
      exact inv.unread _ (hconnection ▸ hhere) piece hold
    · rw [List.mem_singleton.mp hnew]
      exact hrequest
  obtain ⟨third, queued, hthird, hruns, hqueued⟩ :=
    hruns.readAll py endpoints hunread hrequests
  obtain ⟨next, hnext, hlast, -, hall⟩ := reach_allAnswered py endpoints
    hruns.handler hruns.isOpen hruns.here hthird.queue
  have hthere : third.service.connection = world.service.connection + 1 := by
    rw [hthird.connection, hsame, hconnection]
  refine ⟨next, ((hfirst.trans hsecond).trans hthird.run).trans hnext, hlast.trans hthere, ?_⟩
  have hown := hqueued data request (List.mem_append_right _ (.head _)) hparse
  have hsent := hall _ (List.mem_append_right _ hown)
  rw [hlast, hthird.connection]
  rw [hthird.connection] at hsent
  exact hsent

end Serving

/-- In every fair behaviour in which nobody leaves in the middle of a line, and
no response is sent to a client that has gone, the service survives. -/
theorem survives_of_staysForResponse (endpoints : List (List Char))
    (behaviour : Behaviour (Clients.machine py endpoints) {}) (hfair : behaviour.Fair thread)
    (hguard : behaviour.Guarded (staysForResponse py)) : Survives py behaviour := by
  have hinv : ∀ instant, Inv py (behaviour.state instant) := fun instant =>
    (hguard.reach instant).invariant (Inv py) (Inv.start py)
      fun _ _ _ inv hguard hstep => inv.step hguard hstep
  refine ⟨fun instant hfailed => ?_, ?_, fun instant hback => (hinv instant).canServe py endpoints hback⟩
  · have hphase := (hinv instant).phase
    unfold Phase at hphase
    rw [hfailed] at hphase
    exact hphase
  · have hleads : behaviour.LeadsTo (Left py) isBack :=
      hfair.leadsTo stepsBack awaited hguard
        (fun _ _ _ hleft hback hguard hstep => hleft.approaches hback hguard hstep)
        fun _ hleft hback => hleft.enabled hback
    exact fun instant hgone => hleads instant ⟨hinv instant, hgone⟩

/-- A client that is answered and leaves. -/
def answeredClient : List Clients.Event :=
  [.service (.handler .accept), .service (.handler .makefile), .service (.handler .reset),
    .service (.handler .spawn), .arrive 1 pidRequest, .service (.reader 0 .test),
    .service (.reader 0 .call), .service (.reader 0 (.line pidRequest)),
    .service (.reader 0 .parse), .service (.handler .test), .service (.handler .poll),
    .service (.handler .perform), .service (.handler (.send false)), .leave 1 none,
    .service (.reader 0 .test), .service (.reader 0 .call),
    .service (.reader 0 .connectionClosed), .service (.reader 0 .close),
    .service (.handler .test), .service (.reader 0 .test)]

theorem survives_after_answeredClient :
    ∃ behaviour : Behaviour (Clients.machine exactRuntime [['/', 'p']]) {},
      behaviour.Fair thread ∧ behaviour.Guarded (staysForResponse exactRuntime) ∧
      (∃ instant, (behaviour.state instant).current.isGone = true) ∧
      Survives exactRuntime behaviour := by
  have hguard : (Clients.machine exactRuntime [['/', 'p']]).Guarded
      (staysForResponse exactRuntime) {} answeredClient := by
    decide +kernel
  have hexec : ∃ world, (Clients.machine exactRuntime [['/', 'p']]).exec {} answeredClient =
        some world ∧
      world.current.isGone = true ∧ world.service.readers = [.finished] ∧
      world.service.handler = .accepting := ⟨_, rfl, rfl, rfl, rfl⟩
  obtain ⟨world, hexec, hgone, hreaders, hhandler⟩ := hexec
  obtain ⟨behaviour, hguarded, hfair, hfinish⟩ := Behaviour.exists_of_exec hguard hexec
    (not_enabled_of_rest hreaders (.inl hhandler))
  refine ⟨behaviour, hfair, hguarded, ⟨_, by rw [hfinish]; exact hgone⟩, ?_⟩
  exact survives_of_staysForResponse _ behaviour hfair hguarded

/-- A client that leaves while its request is performed. -/
def impatientClient : List Clients.Event :=
  [.service (.handler .accept), .service (.handler .makefile), .service (.handler .reset),
    .service (.handler .spawn), .arrive 1 pidRequest, .service (.reader 0 .test),
    .service (.reader 0 .call), .service (.reader 0 (.line pidRequest)),
    .service (.reader 0 .parse), .service (.handler .test), .service (.handler .poll),
    .leave 1 none, .service (.handler .perform), .service (.handler (.send true)),
    .service (.reader 0 .test), .service (.reader 0 .call),
    .service (.reader 0 .connectionClosed), .service (.reader 0 .close),
    .service (.reader 0 .test)]

/-- The response that cannot be sent ends the service for good. -/
theorem not_survives_after_impatientClient :
    ¬ ∀ behaviour : Behaviour (Clients.machine exactRuntime [['/', 'p']]) {},
      behaviour.Fair thread → behaviour.Guarded (sendsRequests exactRuntime) →
        Survives exactRuntime behaviour := by
  intro hevery
  have hguard : (Clients.machine exactRuntime [['/', 'p']]).Guarded
      (sendsRequests exactRuntime) {} impatientClient := by
    decide +kernel
  have hexec : ∃ world, (Clients.machine exactRuntime [['/', 'p']]).exec {} impatientClient =
        some world ∧
      world.service.readers = [.finished] ∧ world.service.handler = .failed := ⟨_, rfl, rfl, rfl⟩
  obtain ⟨world, hexec, hreaders, hhandler⟩ := hexec
  obtain ⟨behaviour, hguarded, hfair, hfinish⟩ := Behaviour.exists_of_exec hguard hexec
    (not_enabled_of_rest hreaders (.inr hhandler))
  exact (hevery behaviour hfair hguarded).never _ (by rw [hfinish]; exact hhandler)

/-- The loop runs on without a reader thread. -/
structure Stuck (world : Clients.World) : Prop where
  handler : isHandling world.service.handler = true ∨ world.service.handler = .failed
  isOpen : world.service.isConnectionClosed = false
  died : ∀ reader ∈ world.service.readers, reader = .died

theorem Stuck.step (hstuck : Stuck world) {event : Clients.Event}
    (hstep : Clients.World.step py endpoints world event = some next) : Stuck next := by
  obtain ⟨hhandler, hopen, hdied⟩ := hstuck
  match event with
  | .arrive .. | .leave .. | .reset .. =>
    obtain ⟨connection, client, -, -, rfl⟩ := stepClient_cases hstep (by simp)
    exact ⟨hhandler, hopen, hdied⟩
  | .service (.reader thread step) =>
    obtain ⟨before, after, queued, raised, hfound, hmove, -, -⟩ := stepReader_cases hstep
    cases hdied before (List.mem_of_getElem? hfound)
    cases hmove
  | .service (.handler step) =>
    obtain ⟨hturn, -, -⟩ := stepHandler_cases hstep
    obtain ⟨service, client⟩ := next
    dsimp only at hturn
    cases hturn with
    | accept hplace | makefile hplace | reset hplace | spawn hplace =>
      rw [hplace] at hhandler
      simp [isHandling] at hhandler
    | leave _ hclosed =>
      rw [hopen] at hclosed
      cases hclosed
    | raised => exact ⟨.inr rfl, hopen, hdied⟩
    | stay | idle | take | perform | answer => exact ⟨.inl rfl, hopen, hdied⟩

/-- A client that leaves in the middle of a line. -/
def unfinishedLine : List Clients.Event :=
  [.service (.handler .accept), .service (.handler .makefile), .service (.handler .reset),
    .service (.handler .spawn), .leave 1 (some (.line (pidRequest.take 5))),
    .service (.reader 0 .test), .service (.reader 0 .call),
    .service (.reader 0 (.line (pidRequest.take 5))), .service (.reader 0 .parse)]

/-- What it has begun kills the reader thread, and nobody sees that it has gone. -/
theorem not_isBack_after_unfinishedLine :
    ∃ world, (Clients.machine exactRuntime [['/', 'p']]).exec {} unfinishedLine = some world ∧
      world.current.isGone = true ∧
      ∀ next, (Clients.machine exactRuntime [['/', 'p']]).Reach Machine.anyEvent world next →
        ¬ isBack next := by
  have hexec : ∃ world, (Clients.machine exactRuntime [['/', 'p']]).exec {} unfinishedLine =
        some world ∧
      world.current.isGone = true ∧ world.service.readers = [.died] ∧
      world.service.isConnectionClosed = false ∧ isHandling world.service.handler = true :=
    ⟨_, rfl, rfl, rfl, rfl, rfl⟩
  obtain ⟨world, hexec, hgone, hreaders, hopen, hhandling⟩ := hexec
  have hstuck : Stuck world := ⟨.inl hhandling, hopen, by simp [hreaders]⟩
  refine ⟨world, hexec, hgone, fun next hreach hback => ?_⟩
  have hstill := (hreach.invariant Stuck hstuck fun _ _ _ hstuck _ hstep => hstuck.step hstep).handler
  rw [show next.service.handler = .accepting from hback] at hstill
  simp [isHandling] at hstill

end VacuumCleaner.Core.Disconnects
