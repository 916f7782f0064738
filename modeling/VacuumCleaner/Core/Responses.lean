import VacuumCleaner.Core.Clients
import VacuumCleaner.Core.Connections
import VacuumCleaner.Core.RequestHandling

/-! One connection that stays open until all its requests are answered: in any
interleaving of reader and handling loop every request gets one response, in
the order of arrival. -/
namespace VacuumCleaner.Core.Responses

open Lib Lib.Json Requests RequestHandling Clients

/-- `start_handling` begins on a fresh service. -/
def opened : World := { service := { connection := 1, reader := 1, handler := .starting } }

variable (py : Runtime) (lines : List (List Char))

/-- The client sends `lines` one after the other, and stays until the last of
them is answered; nobody else connects. -/
def onlyConnection (world : World) : Event → Prop
  | .arrive connection data =>
    connection = 1 ∧ lines[(world.client 1).arrived.length]? = some data
  | .leave connection unfinished =>
    connection = 1 ∧ unfinished = none ∧ world.service.sent.length = lines.length
  | .reset connection _ => connection = 1 ∧ world.service.sent.length = lines.length
  | .service (.handler .accept) => False
  | .service _ => True

instance (world : World) : (event : Event) → Decidable (onlyConnection lines world event)
  | .arrive .. => inferInstanceAs (Decidable (_ ∧ _))
  | .leave .. => inferInstanceAs (Decidable (_ ∧ _))
  | .reset .. => inferInstanceAs (Decidable (_ ∧ _))
  | .service (.handler .accept) => .isFalse id
  | .service (.handler .makefile) | .service (.handler .reset) | .service (.handler .spawn)
  | .service (.handler .test) | .service (.handler .poll) | .service (.handler .perform)
  | .service (.handler (.send _)) | .service (.reader ..) => .isTrue trivial

/-- Each line is a request. -/
def WellFormed : Prop := ∀ data ∈ lines, ∃ request, parseRequest py data = .ok request

/-- The requests of the lines that are some. -/
def requestsOf : List Request := lines.filterMap fun data => (parseRequest py data).toOption

variable (str : Raised → List Char) (handlers : List RequestHandler)

/-- The responses sent so far, each computed in the turn of its request. -/
def responses (world : World) : List Response :=
  world.service.sent.mapIdx fun turn act => respond str handlers turn act.received.request

/-- The request between the queue and its response. -/
def inHand : Service.Handler → List Request
  | .performing received => [received.request]
  | .sending received => [received.request]
  | _ => []

/-- The line between its client and the queue. -/
def held : Service.Reader → List (List Char)
  | .holding _ data => [data]
  | _ => []

variable {py lines}

theorem requestsOf_append (first second : List (List Char)) :
    requestsOf py (first ++ second) = requestsOf py first ++ requestsOf py second :=
  List.filterMap_append

theorem requestsOf_singleton {data : List Char} {request : Request}
    (hparse : parseRequest py data = .ok request) : requestsOf py [data] = [request] := by
  simp [requestsOf, hparse, Except.toOption]

theorem length_requestsOf (hformed : WellFormed py lines) :
    (requestsOf py lines).length = lines.length := by
  induction lines with
  | nil => rfl
  | cons data lines ih =>
    obtain ⟨request, hparse⟩ := hformed data (.head _)
    have hrest := ih fun other hother => hformed other (.tail _ hother)
    have hsplit : requestsOf py ([data] ++ lines) = requestsOf py [data] ++ requestsOf py lines :=
      requestsOf_append [data] lines
    rw [requestsOf_singleton hparse] at hsplit
    rw [← List.singleton_append, hsplit, List.length_append, hrest, List.length_append]
    rfl

theorem prefix_snoc {first : List (List Char)} {data : List Char} (hbegins : first <+: lines)
    (hnext : lines[first.length]? = some data) : first ++ [data] <+: lines := by
  obtain ⟨rest, rfl⟩ := hbegins
  rw [List.getElem?_append_right (Nat.le_refl _), Nat.sub_self] at hnext
  cases rest with
  | nil => cases hnext
  | cons other rest =>
    cases hnext
    exact ⟨rest, by simp⟩

/-- What a reader thread of this connection can be. -/
def isOwn (isGone : Bool) : Service.Reader → Prop
  | .testing | .calling => True
  | .reading connection | .holding connection _ => connection = 1
  | .closing | .finished => isGone = true
  | .died => False

/-- Where the two threads can be: the reader starts when the loop does. -/
def Phase (isGone : Bool) (readers : List Service.Reader) : Service.Handler → Prop
  | .starting | .spawning => readers = []
  | .accepted | .failed => False
  | _ => ∃ reader, readers = [reader] ∧ isOwn isGone reader

/-- `order`: the lines that have arrived are, in this order, those answered,
the one in hand, the queue, the line that the reader holds, and those unread. -/
structure Inv (py : Runtime) (lines : List (List Char)) (world : World) : Prop where
  connection : world.service.connection = 1
  reader : world.service.reader = 1
  phase : Phase (world.client 1).isGone world.service.readers world.service.handler
  order : ∃ taken unread, (world.client 1).arrived =
      taken ++ (world.service.readers.flatMap held ++ unread) ∧
    (world.client 1).unread = unread.map Piece.line ∧
    requestsOf py taken = world.service.sent.map (·.received.request) ++
      (inHand world.service.handler ++ world.service.queue.map (·.request))
  arrived : (world.client 1).arrived <+: lines
  closed : world.service.isConnectionClosed = true ∨ world.service.handler = .accepting →
    (world.client 1).isGone = true
  gone : (world.client 1).isGone = true → world.service.sent.length = lines.length

theorem Inv.start (lines : List (List Char)) : Inv py lines opened where
  connection := rfl
  reader := rfl
  phase := rfl
  order := ⟨[], [], rfl, rfl, rfl⟩
  arrived := List.nil_prefix
  closed := by simp [opened]
  gone := by simp [opened]

section Steps

variable {endpoints : List (List Char)} {world next : World}

theorem Inv.arrive {data : List Char} (inv : Inv py lines world)
    (hnext : lines[(world.client 1).arrived.length]? = some data)
    (hhere : (world.client 1).isGone = false) :
    Inv py lines (world.setClient 1 { world.client 1 with
      arrived := (world.client 1).arrived ++ [data]
      unread := (world.client 1).unread ++ [.line data] }) := by
  obtain ⟨taken, unread, harrived, hunread, htaken⟩ := inv.order
  constructor
  · exact inv.connection
  · exact inv.reader
  · simpa [World.setClient] using inv.phase
  · refine ⟨taken, unread ++ [data], ?_, ?_, htaken⟩
    · simp [World.setClient, harrived]
    · simp [World.setClient, hunread]
  · simp only [World.setClient, Function.update_self]
    exact prefix_snoc inv.arrived hnext
  · simpa [World.setClient] using inv.closed
  · intro hgone
    simp [World.setClient, hhere] at hgone

/-- Every line that has arrived is answered, in hand, queued, held or unread. -/
theorem Inv.accounted (inv : Inv py lines world) (hformed : WellFormed py lines) :
    world.service.sent.length + (inHand world.service.handler).length +
      world.service.queue.length + (world.service.readers.flatMap held).length +
      (world.client 1).unread.length = (world.client 1).arrived.length := by
  obtain ⟨taken, unread, harrived, hunread, htaken⟩ := inv.order
  have htakenFormed : WellFormed py taken := by
    intro data hdata
    apply hformed data
    apply inv.arrived.subset
    rw [harrived]
    exact List.mem_append_left _ hdata
  have hlength := length_requestsOf htakenFormed
  rw [htaken] at hlength
  simp only [List.length_append, List.length_map] at hlength
  simp only [harrived, hunread, List.length_append, List.length_map]
  omega

theorem Inv.sent_le (inv : Inv py lines world) (hformed : WellFormed py lines) :
    world.service.sent.length ≤ lines.length := by
  have haccounted := inv.accounted hformed
  have hbound := inv.arrived.length_le
  omega

/-- With every line answered nothing is left anywhere. -/
theorem Inv.allAnswered (inv : Inv py lines world) (hformed : WellFormed py lines)
    (hall : world.service.sent.length = lines.length) :
    (world.client 1).unread = [] ∧ world.service.readers.flatMap held = [] ∧
      inHand world.service.handler = [] ∧ world.service.queue = [] := by
  have haccounted := inv.accounted hformed
  have hbound := inv.arrived.length_le
  refine ⟨?_, ?_, ?_, ?_⟩ <;> exact List.eq_nil_of_length_eq_zero (by omega)

theorem isOwn_of_gone {isGone : Bool} {reader : Service.Reader} (hown : isOwn isGone reader) :
    isOwn true reader := by
  cases reader with
  | closing | finished => rfl
  | _ => exact hown

theorem Phase.gone {isGone : Bool} {readers : List Service.Reader} {handler : Service.Handler}
    (hphase : Phase isGone readers handler) : Phase true readers handler := by
  cases handler with
  | starting | spawning | accepted | failed => exact hphase
  | _ =>
    obtain ⟨reader, hreaders, hown⟩ := hphase
    exact ⟨reader, hreaders, isOwn_of_gone hown⟩

theorem Inv.disappear (inv : Inv py lines world) (hformed : WellFormed py lines)
    (hall : world.service.sent.length = lines.length) :
    Inv py lines (world.setClient 1 { world.client 1 with unread := [], isGone := true }) := by
  obtain ⟨taken, unread, harrived, hunread, htaken⟩ := inv.order
  have hnone : unread = [] := by
    have hempty := (inv.allAnswered hformed hall).1
    rw [hunread] at hempty
    exact List.map_eq_nil_iff.mp hempty
  constructor
  · exact inv.connection
  · exact inv.reader
  · simpa [World.setClient] using inv.phase.gone
  · refine ⟨taken, [], ?_, ?_, htaken⟩
    · simp [World.setClient, harrived, hnone]
    · simp [World.setClient]
  · simpa [World.setClient] using inv.arrived
  · simp [World.setClient]
  · exact fun _ => hall

theorem Inv.of_client (inv : Inv py lines world) (hformed : WellFormed py lines) {event : Event}
    (hguard : onlyConnection lines world event)
    (hclient : ∀ service, event ≠ .service service)
    (hstep : World.step py endpoints world event = some next) : Inv py lines next := by
  obtain ⟨connection, client, hacts, hhere, rfl⟩ := stepClient_cases hstep hclient
  cases hacts with
  | arrive connection data =>
    obtain ⟨rfl, hnext⟩ := hguard
    exact inv.arrive hnext hhere
  | leave connection unfinished =>
    obtain ⟨rfl, rfl, hall⟩ := hguard
    rw [(inv.allAnswered hformed hall).1]
    exact inv.disappear hformed hall
  | reset connection kept =>
    obtain ⟨rfl, hall⟩ := hguard
    rw [(inv.allAnswered hformed hall).1, List.take_nil]
    exact inv.disappear hformed hall

theorem Inv.onlyReader (inv : Inv py lines world) {thread : Nat} {before : Service.Reader}
    (hfound : world.service.readers[thread]? = some before) :
    thread = 0 ∧ world.service.readers = [before] ∧ isOwn (world.client 1).isGone before := by
  have hphase := inv.phase
  have hnonempty : world.service.readers ≠ [] := by
    intro hnone
    rw [hnone] at hfound
    cases hfound
  have hsingle : ∃ reader, world.service.readers = [reader] ∧
      isOwn (world.client 1).isGone reader := by
    cases hhandler : world.service.handler with
    | starting | spawning =>
      rw [hhandler] at hphase
      exact absurd hphase hnonempty
    | accepted | failed =>
      rw [hhandler] at hphase
      exact hphase.elim
    | _ =>
      rw [hhandler] at hphase
      exact hphase
  obtain ⟨reader, hreaders, hown⟩ := hsingle
  rw [hreaders] at hfound
  obtain ⟨hthread, hsame⟩ := List.getElem?_eq_some_iff.mp hfound
  have hzero : thread = 0 := Nat.lt_one_iff.mp hthread
  subst hzero hsame
  exact ⟨rfl, hreaders, hown⟩

theorem Phase.of_reader {isGone : Bool} {before after : Service.Reader}
    {handler : Service.Handler} (hphase : Phase isGone [before] handler)
    (hown : isOwn isGone after) : Phase isGone [after] handler := by
  cases handler with
  | starting | spawning | accepted | failed => cases hphase
  | _ => exact ⟨after, rfl, hown⟩

theorem gone_of_hears {before : Service.Reader} {client : Nat → Client}
    (hhears : Hears world .connectionClosed before client) (hown : isOwn (world.client 1).isGone before) :
    (world.client 1).isGone = true := by
  cases hhears with
  | ended _ hgone => exact hown ▸ hgone

theorem isOwn_of_move {step : Service.ReaderStep} {before after : Service.Reader}
    {queued : List Service.Received} {raised isGone : Bool}
    (hmove : Service.Moves py world.service step before after queued raised)
    (hreader : world.service.reader = 1)
    (hclosed : world.service.isConnectionClosed = true → isGone = true)
    (hended : step = .connectionClosed → isGone = true) (hown : isOwn isGone before)
    (halive : after ≠ .died) : isOwn isGone after := by
  cases hmove with
  | leave hflag => exact hclosed hflag
  | enter | put | close => trivial
  | call => exact hreader
  | line => exact hown
  | undecodable | malformed => exact absurd rfl halive
  | ended => exact hended rfl

theorem Inv.order_of_move (inv : Inv py lines world) (hformed : WellFormed py lines)
    {step : Service.ReaderStep} {before after : Service.Reader}
    {queued : List Service.Received} {raised : Bool} {client : Nat → Client}
    (hreaders : world.service.readers = [before])
    (hmove : Service.Moves py world.service step before after queued raised)
    (hhears : Hears world step before client) (hown : isOwn (world.client 1).isGone before) :
    after ≠ .died ∧ ∃ taken unread, (world.client 1).arrived = taken ++ (held after ++ unread) ∧
      (client 1).unread = unread.map Piece.line ∧
      requestsOf py taken = world.service.sent.map (·.received.request) ++
        (inHand world.service.handler ++ (world.service.queue ++ queued).map (·.request)) := by
  obtain ⟨taken, unread, harrived, hunread, htaken⟩ := inv.order
  rw [hreaders, List.flatMap_singleton] at harrived
  cases hhears with
  | @line connection data rest hfirst =>
    cases hmove
    obtain rfl : connection = 1 := hown
    rw [hunread] at hfirst
    obtain ⟨head, tail, rfl, hhead, htail⟩ := List.map_eq_cons_iff.mp hfirst
    cases hhead
    refine ⟨nofun, taken, tail, harrived, ?_, by simpa using htaken⟩
    simp [htail]
  | @undecodable connection rest hfirst =>
    -- the client sends nothing that cannot be decoded
    obtain rfl : connection = 1 := hown
    rw [hunread] at hfirst
    obtain ⟨head, tail, rfl, hhead, -⟩ := List.map_eq_cons_iff.mp hfirst
    cases hhead
  | @parse connection data =>
    have hmem : data ∈ lines := inv.arrived.subset (by rw [harrived]; simp [held])
    obtain ⟨request, hparse⟩ := hformed data hmem
    cases hmove with
    | put hput =>
      rw [hparse] at hput
      cases hput
      refine ⟨nofun, taken ++ [data], unread, ?_, hunread, ?_⟩
      · simpa [held] using harrived
      · rw [requestsOf_append, requestsOf_singleton hparse, htaken]
        simp
    | malformed herror =>
      rw [hparse] at herror
      cases herror
  | test | call | ended | close =>
    cases hmove <;>
      exact ⟨nofun, taken, unread, harrived, hunread, by simpa using htaken⟩

theorem Inv.of_reader (inv : Inv py lines world) (hformed : WellFormed py lines)
    {thread : Nat} {step : Service.ReaderStep}
    (hstep : World.step py endpoints world (.service (.reader thread step)) = some next) :
    Inv py lines next := by
  obtain ⟨before, after, queued, raised, hfound, hmove, hservice, hhears⟩ := stepReader_cases hstep
  obtain ⟨rfl, hreaders, hown⟩ := inv.onlyReader hfound
  obtain ⟨halive, horder⟩ := inv.order_of_move hformed hreaders hmove hhears hown
  obtain ⟨harrived, hgone⟩ := hhears.client_same 1
  have hended : step = .connectionClosed → (world.client 1).isGone = true := by
    rintro rfl
    exact gone_of_hears hhears hown
  have hafter := isOwn_of_move hmove inv.reader (fun hflag => inv.closed (.inl hflag)) hended
    hown halive
  have hreadersAfter : next.service.readers = [after] := by
    rw [hservice, Service.readers_move, hreaders]
    rfl
  have hphase := inv.phase
  rw [hreaders] at hphase
  constructor
  · rw [hservice]
    exact inv.connection
  · rw [hservice]
    exact inv.reader
  · rw [hreadersAfter, hgone, hservice]
    exact hphase.of_reader hafter
  · rw [hreadersAfter, harrived, hservice, List.flatMap_singleton]
    exact horder
  · rw [harrived]
    exact inv.arrived
  · rw [hgone, hservice]
    rintro (hflag | haccepting)
    · rw [Service.isConnectionClosed_move, Bool.or_eq_true] at hflag
      obtain hflag | hraised := hflag
      · exact inv.closed (.inl hflag)
      · subst hraised
        cases hmove
        exact hown
    · exact inv.closed (.inr haccepting)
  · rw [hgone, hservice]
    exact inv.gone

theorem Inv.waiting (inv : Inv py lines world) (hformed : WellFormed py lines)
    (hbusy : inHand world.service.handler ≠ []) : (world.client 1).isGone = false := by
  by_contra hgone
  have hall := inv.gone (by simpa using hgone)
  exact hbusy (inv.allAnswered hformed hall).2.2.1

theorem Inv.turned (inv : Inv py lines world) {service : Service.World}
    (hconnection : service.connection = world.service.connection)
    (hreader : service.reader = world.service.reader)
    (hphase : Phase (world.client 1).isGone service.readers service.handler)
    (hheld : service.readers.flatMap held = world.service.readers.flatMap held)
    (horder : service.sent.map (·.received.request) ++
        (inHand service.handler ++ service.queue.map (·.request)) =
      world.service.sent.map (·.received.request) ++
        (inHand world.service.handler ++ world.service.queue.map (·.request)))
    (hclosed : service.isConnectionClosed = true ∨ service.handler = .accepting →
      (world.client 1).isGone = true)
    (hgone : (world.client 1).isGone = true → service.sent.length = lines.length) :
    Inv py lines ⟨service, world.client⟩ := by
  refine ⟨hconnection.trans inv.connection, hreader.trans inv.reader, hphase, ?_, inv.arrived,
    hclosed, hgone⟩
  rw [hheld, horder]
  exact inv.order

theorem Inv.of_handler (inv : Inv py lines world) (hformed : WellFormed py lines)
    {step : Service.HandlerStep} (hguard : onlyConnection lines world (.service (.handler step)))
    (hstep : World.step py endpoints world (.service (.handler step)) = some next) :
    Inv py lines next := by
  obtain ⟨hturn, hclient, hraises⟩ := stepHandler_cases hstep
  have hphase := inv.phase
  have hclosed := inv.closed
  have hwaiting := inv.waiting hformed
  obtain ⟨service, client⟩ := next
  dsimp only at hturn hclient
  subst hclient
  cases hturn with
  | accept => exact hguard.elim
  | makefile hhandler =>
    rw [hhandler] at hphase
    exact hphase.elim
  | reset hhandler =>
    rw [hhandler] at hphase
    refine inv.turned rfl rfl hphase rfl ?_ ?_ inv.gone
    · simp [inHand, hhandler]
    · simp
  | spawn hhandler =>
    rw [hhandler] at hphase
    have hnone : world.service.readers = [] := hphase
    refine inv.turned rfl rfl ?_ ?_ ?_ ?_ inv.gone
    · exact ⟨.testing, by rw [hnone]; rfl, trivial⟩
    · simp [hnone, held]
    · simp [inHand, hhandler]
    · simpa [hhandler] using hclosed
  | leave hhandler hflag =>
    rw [hhandler] at hphase
    refine inv.turned rfl rfl hphase rfl ?_ (fun _ => hclosed (.inl hflag)) inv.gone
    simp [inHand, hhandler]
  | stay hhandler hopen =>
    rw [hhandler] at hphase
    refine inv.turned rfl rfl hphase rfl ?_ ?_ inv.gone
    · simp [inHand, hhandler]
    · simp [hopen]
  | idle hhandler hqueue =>
    rw [hhandler] at hphase
    refine inv.turned rfl rfl hphase rfl ?_ ?_ inv.gone
    · simp [inHand, hhandler]
    · simpa [hhandler] using hclosed
  | take hhandler hqueue =>
    rw [hhandler] at hphase
    refine inv.turned rfl rfl hphase rfl ?_ ?_ inv.gone
    · simp [inHand, hhandler, hqueue]
    · simpa [hhandler] using hclosed
  | perform hhandler =>
    rw [hhandler] at hphase
    refine inv.turned rfl rfl hphase rfl ?_ ?_ inv.gone
    · simp [inHand, hhandler]
    · simpa [hhandler] using hclosed
  | raised hhandler =>
    have hhere := hwaiting (by simp [hhandler, inHand])
    have hleft := hraises true rfl
    rw [World.current, inv.connection, hhere] at hleft
    cases hleft
  | answer hhandler =>
    have hhere := hwaiting (by simp [hhandler, inHand])
    rw [hhandler] at hphase
    refine inv.turned rfl rfl hphase rfl ?_ ?_ ?_
    · simp [inHand, hhandler]
    · simpa [hhandler] using hclosed
    · simp [hhere]

theorem Inv.step (inv : Inv py lines world) (hformed : WellFormed py lines) {event : Event}
    (hguard : onlyConnection lines world event)
    (hstep : World.step py endpoints world event = some next) : Inv py lines next := by
  match event with
  | .arrive .. | .leave .. | .reset .. => exact inv.of_client hformed hguard nofun hstep
  | .service (.reader ..) => exact inv.of_reader hformed hstep
  | .service (.handler _) => exact inv.of_handler hformed hguard hstep

theorem Inv.answers (inv : Inv py lines world) (str : Raised → List Char)
    (handlers : List RequestHandler) {turn : Nat} {response : Response}
    (hresponse : (responses str handlers world)[turn]? = some response) :
    ∃ request, (requestsOf py lines)[turn]? = some request ∧
      Answers handlers turn request response := by
  obtain ⟨taken, unread, harrived, -, htaken⟩ := inv.order
  obtain ⟨rest, hlines⟩ := inv.arrived
  rw [responses, List.getElem?_mapIdx] at hresponse
  obtain ⟨act, hact, rfl⟩ := Option.map_eq_some_iff.mp hresponse
  refine ⟨act.received.request, ?_, respond_answers str handlers turn act.received.request⟩
  have hbound : turn < (world.service.sent.map (·.received.request)).length := by
    rw [List.length_map]
    exact (List.getElem?_eq_some_iff.mp hact).1
  rw [← hlines, harrived, List.append_assoc, requestsOf_append, htaken, List.append_assoc,
    List.getElem?_append_left hbound, List.getElem?_map, hact]
  rfl

/-! The way from one response to the next. -/

/-- Everything has arrived, and the first `count` requests are answered. -/
structure Served (py : Runtime) (lines : List (List Char)) (count : Nat) (world : World) :
    Prop where
  inv : Inv py lines world
  arrived : (world.client 1).arrived = lines
  sent : count ≤ world.service.sent.length

/-- The steps of a reader to the queue. -/
def stepsToQueue : Service.Reader → Nat
  | .testing => 8
  | .calling => 7
  | .reading _ => 6
  | .holding .. => 5
  | _ => 0

/-- Decreases towards the next response. -/
def stepsToResponse (service : Service.World) : Nat :=
  match service.handler, service.queue with
  | .starting, _ => 10
  | .spawning, _ => 9
  | .testing, _ :: _ => 4
  | .polling, _ :: _ => 3
  | .performing _, _ => 2
  | .sending _, _ => 1
  | _, _ => service.readers.head?.elim 0 stepsToQueue

/-- The thread that the next response waits for. -/
def awaited (service : Service.World) : Thread :=
  match service.handler, service.queue with
  | .testing, [] | .polling, [] => .reader 0
  | _, _ => .handler

theorem Served.client_same {count : Nat} (hserved : Served py lines count world) {event : Event}
    {connection : Nat} {client : Client} (hguard : onlyConnection lines world event)
    (hacts : Acts world event connection client) :
    connection = 1 ∧ client.arrived = lines ∧ world.service.sent.length = lines.length := by
  cases hacts with
  | arrive connection data =>
    obtain ⟨-, hmore⟩ := hguard
    rw [hserved.arrived, List.getElem?_eq_none (Nat.le_refl _)] at hmore
    cases hmore
  | leave connection unfinished =>
    obtain ⟨rfl, -, hall⟩ := hguard
    exact ⟨rfl, hserved.arrived, hall⟩
  | reset connection kept =>
    obtain ⟨rfl, hall⟩ := hguard
    exact ⟨rfl, hserved.arrived, hall⟩

theorem Served.step {count : Nat} (hserved : Served py lines count world)
    (hformed : WellFormed py lines) {event : Event} (hguard : onlyConnection lines world event)
    (hstep : World.step py endpoints world event = some next) : Served py lines count next := by
  have hinv := hserved.inv.step hformed hguard hstep
  have hfull := hserved.arrived
  have hsent := hserved.sent
  match event with
  | .arrive .. | .leave .. | .reset .. =>
    obtain ⟨connection, client, hacts, -, rfl⟩ := stepClient_cases hstep (by simp)
    obtain ⟨rfl, harrived, -⟩ := hserved.client_same hguard hacts
    exact ⟨hinv, by simpa [World.setClient] using harrived, hsent⟩
  | .service (.reader thread step) =>
    obtain ⟨before, after, queued, raised, -, -, hservice, hhears⟩ := stepReader_cases hstep
    refine ⟨hinv, (hhears.client_same 1).1.trans hfull, ?_⟩
    rw [hservice]
    exact hsent
  | .service (.handler step) =>
    obtain ⟨hturn, hclient, -⟩ := stepHandler_cases hstep
    exact ⟨hinv, by rw [hclient, hfull], Nat.le_trans hsent hturn.sent_grows.length_le⟩

theorem Inv.kept (inv : Inv py lines world) (hhere : (world.client 1).isGone = false) :
    world.service.isConnectionClosed = false ∧ world.service.handler ≠ .accepting := by
  have hclosed := inv.closed
  rw [hhere] at hclosed
  simpa using hclosed

theorem Inv.turn_approaches (inv : Inv py lines world) (hhere : (world.client 1).isGone = false)
    {step : Service.HandlerStep} {service : Service.World}
    (hguard : onlyConnection lines world (.service (.handler step)))
    (hturn : Service.Turns endpoints world.service step service) (hsends : step ≠ .send true) :
    world.service.sent.length < service.sent.length ∨
      stepsToResponse service < stepsToResponse world.service ∨
      (awaited world.service = .reader 0 ∧
        stepsToResponse service = stepsToResponse world.service ∧
        awaited service = awaited world.service) := by
  have hphase := inv.phase
  have hopen := (inv.kept hhere).1
  cases hturn with
  | accept => exact hguard.elim
  | makefile hhandler =>
    rw [hhandler] at hphase
    exact hphase.elim
  | reset hhandler =>
    right; left
    simp [stepsToResponse, hhandler]
  | spawn hhandler =>
    right; left
    rw [hhandler] at hphase
    have hnone : world.service.readers = [] := hphase
    cases hqueue : world.service.queue <;>
      simp [stepsToResponse, stepsToQueue, hhandler, hqueue, hnone]
  | leave hhandler hflag =>
    rw [hopen] at hflag
    cases hflag
  | stay hhandler =>
    right
    cases hqueue : world.service.queue with
    | nil => simp [stepsToResponse, awaited, hhandler, hqueue]
    | cons received queue => simp [stepsToResponse, hhandler, hqueue]
  | idle hhandler hqueue =>
    right; right
    simp [stepsToResponse, awaited, hhandler, hqueue]
  | take hhandler hqueue =>
    right; left
    simp [stepsToResponse, hhandler, hqueue]
  | perform hhandler =>
    right; left
    simp [stepsToResponse, hhandler]
  | raised => exact absurd rfl hsends
  | answer =>
    left
    simp

theorem stepsToQueue_of_move {step : Service.ReaderStep} {before after : Service.Reader}
    {queued : List Service.Received} {raised : Bool}
    (hmove : Service.Moves py world.service step before after queued raised)
    (hbefore : isOwn false before) (hafter : isOwn false after) :
    stepsToQueue after < stepsToQueue before ∧ queued = [] ∨
      4 < stepsToQueue before ∧ queued ≠ [] := by
  cases hmove with
  | enter | call | line => exact .inl ⟨Nat.lt_succ_self _, rfl⟩
  | put => exact .inr ⟨Nat.lt_succ_self 4, nofun⟩
  | leave | ended => cases hafter
  | undecodable | malformed => exact hafter.elim
  | close => cases hbefore

/-- Each step of the reader comes closer to the next response when this waits
for the reader, and changes nothing about it otherwise. -/
theorem Inv.move_approaches (inv : Inv py lines world) (hhere : (world.client 1).isGone = false)
    {step : Service.ReaderStep} {before after : Service.Reader}
    {queued : List Service.Received} {raised : Bool}
    (hreaders : world.service.readers = [before])
    (hmove : Service.Moves py world.service step before after queued raised)
    (hbefore : isOwn false before) (hafter : isOwn false after) :
    stepsToResponse (world.service.move 0 after queued raised) < stepsToResponse world.service ∨
      (awaited world.service = .handler ∧
        stepsToResponse (world.service.move 0 after queued raised) =
          stepsToResponse world.service ∧
        awaited (world.service.move 0 after queued raised) = awaited world.service) := by
  have hphase := inv.phase
  have hmoves := stepsToQueue_of_move hmove hbefore hafter
  cases hhandler : world.service.handler with
  | accepting => exact absurd hhandler (inv.kept hhere).2
  | accepted | failed =>
    rw [hhandler] at hphase
    exact hphase.elim
  | starting | spawning | performing received | sending received =>
    right
    simp [stepsToResponse, awaited, Service.World.move, Service.World.setReader, hhandler]
  | testing | polling =>
    cases hqueue : world.service.queue with
    | cons received queue =>
      right
      simp [stepsToResponse, awaited, Service.World.move, Service.World.setReader, hhandler, hqueue]
    | nil =>
      left
      obtain ⟨hless, rfl⟩ | ⟨hmore, hqueued⟩ := hmoves
      · simpa [stepsToResponse, Service.World.move, Service.World.setReader, hhandler, hqueue,
          hreaders] using hless
      · obtain ⟨received, others, rfl⟩ := List.exists_cons_of_ne_nil hqueued
        simp [stepsToResponse, Service.World.move, Service.World.setReader, hhandler, hqueue,
          hreaders]
        omega

theorem Served.sent_eq {count : Nat} (hserved : Served py lines count world)
    (hmore : ¬ Served py lines (count + 1) world) : world.service.sent.length = count := by
  by_contra hother
  have hle := hserved.sent
  exact hmore ⟨hserved.inv, hserved.arrived, by omega⟩

theorem Served.here {count : Nat} (hserved : Served py lines count world)
    (hmore : ¬ Served py lines (count + 1) world) (hcount : count < lines.length) :
    (world.client 1).isGone = false := by
  by_contra hgone
  have hall := hserved.inv.gone (by simpa using hgone)
  have hsent := hserved.sent_eq hmore
  omega

theorem Served.reader_approaches {count : Nat} (hserved : Served py lines count world)
    (hhere : (world.client 1).isGone = false) (hnext : Served py lines count next)
    {reader : Nat} {step : Service.ReaderStep}
    (hstep : World.step py endpoints world (.service (.reader reader step)) = some next) :
    Behaviour.Approaches (Served py lines (count + 1)) (Served py lines count)
      (fun world => stepsToResponse world.service) thread (fun world => awaited world.service)
      world (.service (.reader reader step)) next := by
  obtain ⟨before, after, queued, raised, hfound, hmove, hservice, hhears⟩ := stepReader_cases hstep
  obtain ⟨rfl, hreaders, hbefore⟩ := hserved.inv.onlyReader hfound
  have hnow : next.service.readers[0]? = some after := by
    rw [hservice, Service.readers_move, hreaders]
    rfl
  obtain ⟨-, -, hafter⟩ := hnext.inv.onlyReader hnow
  rw [hhere] at hbefore
  rw [(hhears.client_same 1).2, hhere] at hafter
  have hmoves := hserved.inv.move_approaches hhere hreaders hmove hbefore hafter
  rw [← hservice] at hmoves
  obtain hless | ⟨hawaited, hsame, hkept⟩ := hmoves
  · exact .inr ⟨hnext, .inl hless⟩
  · refine .inr ⟨hnext, .inr ⟨?_, hsame, hkept⟩⟩
    simp [thread, hawaited]

theorem Served.handler_approaches {count : Nat} (hserved : Served py lines count world)
    (hhere : (world.client 1).isGone = false) (hsent : world.service.sent.length = count)
    (hnext : Served py lines count next) {step : Service.HandlerStep}
    (hguard : onlyConnection lines world (.service (.handler step)))
    (hstep : World.step py endpoints world (.service (.handler step)) = some next) :
    Behaviour.Approaches (Served py lines (count + 1)) (Served py lines count)
      (fun world => stepsToResponse world.service) thread (fun world => awaited world.service)
      world (.service (.handler step)) next := by
  obtain ⟨hturn, -, hraises⟩ := stepHandler_cases hstep
  have hsends : step ≠ .send true := by
    rintro rfl
    have hleft := hraises true rfl
    rw [World.current, hserved.inv.connection, hhere] at hleft
    cases hleft
  obtain hanswered | hless | ⟨hawaited, hsame, hkept⟩ :=
    hserved.inv.turn_approaches hhere hguard hturn hsends
  · exact .inl ⟨hnext.inv, hnext.arrived, by omega⟩
  · exact .inr ⟨hnext, .inl hless⟩
  · refine .inr ⟨hnext, .inr ⟨?_, hsame, hkept⟩⟩
    cases step <;> simp [thread, hawaited]

theorem Served.approaches {count : Nat} (hserved : Served py lines count world)
    (hformed : WellFormed py lines) (hmore : ¬ Served py lines (count + 1) world)
    (hcount : count < lines.length) {event : Event} (hguard : onlyConnection lines world event)
    (hstep : World.step py endpoints world event = some next) :
    Behaviour.Approaches (Served py lines (count + 1)) (Served py lines count)
      (fun world => stepsToResponse world.service) thread (fun world => awaited world.service)
      world event next := by
  have hhere := hserved.here hmore hcount
  have hsent := hserved.sent_eq hmore
  have hnext := hserved.step hformed hguard hstep
  match event with
  | .arrive .. | .leave .. | .reset .. =>
    obtain ⟨connection, client, hacts, -, -⟩ := stepClient_cases hstep (by simp)
    have hall := (hserved.client_same hguard hacts).2.2
    omega
  | .service (.reader ..) => exact hserved.reader_approaches hhere hnext hstep
  | .service (.handler _) => exact hserved.handler_approaches hhere hsent hnext hguard hstep

theorem Served.canMove {count : Nat} (hserved : Served py lines count world)
    (hformed : WellFormed py lines) (hsent : world.service.sent.length = count)
    (hcount : count < lines.length) {reader : Service.Reader}
    (hreaders : world.service.readers = [reader]) (hown : isOwn false reader)
    (hqueue : world.service.queue = []) (hidle : inHand world.service.handler = []) :
    world.canMove reader := by
  cases reader with
  | testing | calling | holding => trivial
  | closing | finished => cases hown
  | died => exact hown.elim
  | reading connection =>
    left
    obtain rfl : connection = 1 := hown
    have haccounted := hserved.inv.accounted hformed
    rw [hreaders, hqueue, hidle, hserved.arrived] at haccounted
    intro hnone
    simp only [hnone, held, List.flatMap_singleton, List.length_nil] at haccounted
    omega

theorem Served.enabled {count : Nat} (hserved : Served py lines count world)
    (hformed : WellFormed py lines) (hmore : ¬ Served py lines (count + 1) world)
    (hcount : count < lines.length) :
    Behaviour.Enabled (machine py endpoints) thread (awaited world.service) world := by
  have hhere := hserved.here hmore hcount
  have hsent := hserved.sent_eq hmore
  have haccepting := (hserved.inv.kept hhere).2
  have hphase := hserved.inv.phase
  rw [hhere] at hphase
  have hfailed : world.service.handler ≠ .failed := by
    intro hhandler
    rw [hhandler] at hphase
    exact hphase
  unfold awaited
  split
  case h_3 => exact enabled_handler_iff.mpr ⟨haccepting, hfailed⟩
  all_goals
    rename_i hhandler hqueue
    rw [hhandler] at hphase
    obtain ⟨reader, hreaders, hown⟩ := hphase
    refine enabled_reader_iff.mpr ⟨reader, by rw [hreaders]; rfl, ?_⟩
    exact hserved.canMove hformed hsent hcount hreaders hown hqueue (by rw [hhandler]; rfl)

end Steps

section Runs

variable {endpoints : List (List Char)} {behaviour : Behaviour (machine py endpoints) opened}

theorem inv_of_behaviour (hformed : WellFormed py lines)
    (hguard : behaviour.Guarded (onlyConnection lines)) (instant : Nat) :
    Inv py lines (behaviour.state instant) :=
  (hguard.reach instant).invariant (Inv py lines) (Inv.start lines)
    fun _ _ _ inv hguard hstep => inv.step hformed hguard hstep

theorem served_leadsTo (hformed : WellFormed py lines) (hfair : behaviour.Fair thread)
    (hguard : behaviour.Guarded (onlyConnection lines)) {count : Nat} (hcount : count ≤ lines.length) :
    behaviour.LeadsTo (Served py lines 0) (Served py lines count) := by
  induction count with
  | zero => exact fun instant hserved => ⟨instant, Nat.le_refl _, hserved⟩
  | succ count ih =>
    refine (ih (by omega)).trans (hfair.leadsTo (fun world => stepsToResponse world.service)
      (fun world => awaited world.service) hguard ?_ ?_)
    · intro world event next hserved hmore hguard hstep
      exact hserved.approaches hformed hmore hcount hguard hstep
    · intro world hserved hmore
      exact hserved.enabled hformed hmore hcount

end Runs

/-- While its connection is open every request gets exactly one response, in the
order of arrival, whatever the interleaving: no response is out of place at any
instant, and from some instant on none is missing. Lone surrogates in a request are
not told apart. -/
theorem answeredInOrder (str : Raised → List Char) (handlers : List RequestHandler)
    (hformed : WellFormed py lines)
    (behaviour : Behaviour (machine py (handlers.map (·.endpoint))) opened)
    (hfair : behaviour.Fair thread) (hguard : behaviour.Guarded (onlyConnection lines))
    (harrived : ∃ instant, ((behaviour.state instant).client 1).arrived = lines) :
    (∀ instant turn response,
      (responses str handlers (behaviour.state instant))[turn]? = some response →
        ∃ request, (requestsOf py lines)[turn]? = some request ∧
          Answers handlers turn request response) ∧
      ∃ instant, ∀ later, instant ≤ later →
        (responses str handlers (behaviour.state later)).length = (requestsOf py lines).length := by
  have hinv := inv_of_behaviour hformed hguard
  refine ⟨fun instant turn response hresponse => (hinv instant).answers str handlers hresponse, ?_⟩
  obtain ⟨first, hall⟩ := harrived
  obtain ⟨last, -, hserved⟩ := served_leadsTo hformed hfair hguard (Nat.le_refl _) first
    ⟨hinv first, hall, Nat.zero_le _⟩
  refine ⟨last, fun later hlater => ?_⟩
  have hstill : Served py lines lines.length (behaviour.state later) :=
    hguard.always (fun _ _ _ hserved hguard hstep => hserved.step hformed hguard hstep)
      hserved hlater
  have hbound := (hinv later).sent_le hformed
  rw [responses, List.length_mapIdx, length_requestsOf hformed]
  exact Nat.le_antisymm hbound hstill.sent

/-- A handler that succeeds once. -/
def pid : RequestHandler where
  endpoint := ['/', 'p']
  requestModel := none
  perform turn _ _ := if turn = 0 then .ok (.bool true) else .error .typeError

/-- Two requests, the second while the first is performed, and then the end of
the connection. -/
def twoRequests : List Event :=
  [.arrive 1 pidRequest, .service (.handler .reset), .service (.handler .spawn),
    .service (.reader 0 .test), .service (.handler .test), .service (.reader 0 .call),
    .service (.reader 0 (.line pidRequest)), .service (.handler .poll),
    .service (.reader 0 .parse), .service (.handler .test), .service (.handler .poll),
    .arrive 1 pidRequest, .service (.reader 0 .test), .service (.reader 0 .call),
    .service (.reader 0 (.line pidRequest)), .service (.handler .perform),
    .service (.reader 0 .parse), .service (.handler (.send false)), .service (.handler .test),
    .service (.handler .poll), .service (.handler .perform), .service (.handler (.send false)),
    .leave 1 none, .service (.reader 0 .test), .service (.reader 0 .call),
    .service (.reader 0 .connectionClosed), .service (.reader 0 .close),
    .service (.handler .test), .service (.reader 0 .test)]

theorem answeredInOrder_twoRequests :
    ∃ behaviour : Behaviour (machine exactRuntime [['/', 'p']]) opened,
      behaviour.Fair thread ∧ behaviour.Guarded (onlyConnection [pidRequest, pidRequest]) ∧
      ∃ instant, ∀ later, instant ≤ later →
        (responses (fun _ => []) [pid] (behaviour.state later)).length = 2 := by
  have hguard : (machine exactRuntime [['/', 'p']]).Guarded
      (onlyConnection [pidRequest, pidRequest]) opened twoRequests := by
    decide +kernel
  have hexec : ∃ world, (machine exactRuntime [['/', 'p']]).exec opened twoRequests = some world ∧
      (world.client 1).arrived = [pidRequest, pidRequest] ∧ world.service.readers = [.finished] ∧
      world.service.handler = .accepting := ⟨_, rfl, rfl, rfl, rfl⟩
  obtain ⟨world, hexec, harrived, hreaders, hhandler⟩ := hexec
  have hformed : WellFormed exactRuntime [pidRequest, pidRequest] := by
    intro data hdata
    obtain rfl : data = pidRequest := by simpa using hdata
    exact ⟨_, rfl⟩
  obtain ⟨behaviour, hguarded, hfair, hfinish⟩ := Behaviour.exists_of_exec hguard hexec
    (not_enabled_of_rest hreaders (.inl hhandler))
  refine ⟨behaviour, hfair, hguarded, ?_⟩
  exact (answeredInOrder (fun _ => []) [pid] hformed behaviour hfair hguarded
    ⟨_, by rw [hfinish]; exact harrived⟩).2

end VacuumCleaner.Core.Responses
