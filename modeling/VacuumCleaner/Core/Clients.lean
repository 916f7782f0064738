import VacuumCleaner.Core.Service
import VacuumCleaner.Lib.Liveness

/-! The service together with its clients. What a reader gets from `readline` is
what its client has sent, and `send` raises once the client has gone. -/
namespace VacuumCleaner.Core.Clients

open Lib Lib.Json Requests Service

/-- What `readline` returns, or bytes that it cannot decode. -/
inductive Piece
  | line (data : List Char)
  | undecodable
  deriving DecidableEq

/-- The client of one connection: the whole lines it has sent, and what of its
stream nobody has read yet. -/
structure Client where
  arrived : List (List Char) := []
  unread : List Piece := []
  isGone : Bool := false
  deriving DecidableEq

structure World where
  service : Service.World := {}
  client : Nat → Client := fun _ => {}

/-- A client that leaves may have begun a line; of a reset connection only the
pieces that the reader has buffered can still be read. -/
inductive Event
  | arrive (connection : Nat) (data : List Char)
  | leave (connection : Nat) (unfinished : Option Piece)
  | reset (connection : Nat) (kept : Nat)
  | service (event : Service.Event)
  deriving DecidableEq

def World.setClient (world : World) (connection : Nat) (client : Client) : World :=
  { world with client := Function.update world.client connection client }

/-- The client of the current connection. -/
def World.current (world : World) : Client := world.client world.service.connection

/-- The clients after a step of the service, none where the step does not fit
what its client has done. -/
def World.hear (world : World) : Service.Event → Option World
  | .reader thread step =>
    match world.service.readers[thread]?, step with
    | some (.reading connection), .line data =>
      match (world.client connection).unread with
      | .line other :: unread =>
        if other = data then
          some (world.setClient connection { world.client connection with unread })
        else none
      | _ => none
    | some (.reading connection), .undecodable =>
      match (world.client connection).unread with
      | .undecodable :: unread =>
        some (world.setClient connection { world.client connection with unread })
      | _ => none
    | some (.reading connection), .connectionClosed =>
      if (world.client connection).unread = [] ∧ (world.client connection).isGone then some world
      else none
    | _, _ => some world
  | .handler (.send raises) => if raises = world.current.isGone then some world else none
  | .handler _ => some world

variable (py : Runtime) (endpoints : List (List Char))

def World.step (world : World) : Event → Option World
  | .arrive connection data =>
    if (world.client connection).isGone then none
    else some (world.setClient connection { world.client connection with
      arrived := (world.client connection).arrived ++ [data]
      unread := (world.client connection).unread ++ [.line data] })
  | .leave connection unfinished =>
    if (world.client connection).isGone then none
    else some (world.setClient connection { world.client connection with
      unread := (world.client connection).unread ++ unfinished.toList
      isGone := true })
  | .reset connection kept =>
    if (world.client connection).isGone then none
    else some (world.setClient connection { world.client connection with
      unread := (world.client connection).unread.take kept
      isGone := true })
  | .service event =>
    (world.hear event).bind fun heard =>
      (Service.World.step py endpoints world.service event).map fun service => { heard with service }

def machine : Machine World Event := ⟨World.step py endpoints⟩

/-- The threads of the service; connections, and what comes in on them, are left
to the clients. -/
inductive Thread
  | reader (thread : Nat)
  | handler
  deriving DecidableEq

def thread : Event → Option Thread
  | .service (.reader thread _) => some (.reader thread)
  | .service (.handler .accept) => none
  | .service (.handler _) => some .handler
  | _ => none

/-- What a step of a reader thread takes from its client. -/
inductive Hears (world : World) : ReaderStep → Reader → (Nat → Client) → Prop
  | line {connection : Nat} {data : List Char} {unread : List Piece} :
    (world.client connection).unread = .line data :: unread →
    Hears world (.line data) (.reading connection)
      (Function.update world.client connection { world.client connection with unread })
  | undecodable {connection : Nat} {unread : List Piece} :
    (world.client connection).unread = .undecodable :: unread →
    Hears world .undecodable (.reading connection)
      (Function.update world.client connection { world.client connection with unread })
  | ended {connection : Nat} :
    (world.client connection).unread = [] → (world.client connection).isGone = true →
    Hears world .connectionClosed (.reading connection) world.client
  | test : Hears world .test .testing world.client
  | call : Hears world .call .calling world.client
  | parse {connection : Nat} {data : List Char} :
    Hears world .parse (.holding connection data) world.client
  | close : Hears world .close .closing world.client

/-- What a client does to its own end of a connection. -/
inductive Acts (world : World) : Event → Nat → Client → Prop
  | arrive (connection : Nat) (data : List Char) :
    Acts world (.arrive connection data) connection { world.client connection with
      arrived := (world.client connection).arrived ++ [data]
      unread := (world.client connection).unread ++ [.line data] }
  | leave (connection : Nat) (unfinished : Option Piece) :
    Acts world (.leave connection unfinished) connection { world.client connection with
      unread := (world.client connection).unread ++ unfinished.toList
      isGone := true }
  | reset (connection kept : Nat) :
    Acts world (.reset connection kept) connection { world.client connection with
      unread := (world.client connection).unread.take kept
      isGone := true }

variable {py endpoints}

theorem stepClient_cases {world next : World} {event : Event}
    (hstep : World.step py endpoints world event = some next)
    (hclient : ∀ service, event ≠ .service service) :
    ∃ connection client, Acts world event connection client ∧
      (world.client connection).isGone = false ∧ next = world.setClient connection client := by
  cases event with
  | service event => exact absurd rfl (hclient event)
  | arrive connection data | leave connection unfinished | reset connection kept =>
    simp only [World.step] at hstep
    split at hstep
    · cases hstep
    · rename_i hhere
      cases hstep
      exact ⟨connection, _, by constructor, Bool.eq_false_iff.mpr hhere, rfl⟩

theorem Hears.client_same {world : World} {step : ReaderStep} {before : Reader}
    {client : Nat → Client} (hhears : Hears world step before client) (connection : Nat) :
    (client connection).arrived = (world.client connection).arrived ∧
      (client connection).isGone = (world.client connection).isGone := by
  cases hhears with
  | @line own | @undecodable own =>
    by_cases hsame : connection = own
    · subst hsame
      simp
    · simp [hsame]
  | _ => exact ⟨rfl, rfl⟩

theorem Hears.unread {world : World} {step : ReaderStep} {before : Reader}
    {client : Nat → Client} (hhears : Hears world step before client) (connection : Nat) :
    (client connection).unread = (world.client connection).unread ∨
      ∃ piece, (world.client connection).unread = piece :: (client connection).unread := by
  cases hhears with
  | @line own data unread hunread | @undecodable own unread hunread =>
    by_cases hsame : connection = own
    · subst hsame
      exact .inr ⟨_, by simpa using hunread⟩
    · simp [hsame]
  | _ => exact .inl rfl

theorem hears_of_hear {world heard : World} {thread : Nat} {step : ReaderStep}
    {before after : Reader} {queued : List Received} {raised : Bool}
    (hfound : world.service.readers[thread]? = some before)
    (hmove : Moves py world.service step before after queued raised)
    (hheard : world.hear (.reader thread step) = some heard) :
    Hears world step before heard.client := by
  simp only [World.hear, hfound] at hheard
  cases hmove with
  | leave | enter =>
    cases hheard
    exact .test
  | call =>
    cases hheard
    exact .call
  | line connection data =>
    dsimp only at hheard
    split at hheard
    · rename_i other unread hunread
      obtain ⟨rfl, hsame⟩ := Option.ite_none_right_eq_some.mp hheard
      cases hsame
      exact .line hunread
    · cases hheard
  | undecodable connection =>
    dsimp only at hheard
    split at hheard
    · rename_i unread hunread
      cases hheard
      exact .undecodable hunread
    · cases hheard
  | ended connection =>
    obtain ⟨⟨hunread, hgone⟩, hsame⟩ := Option.ite_none_right_eq_some.mp hheard
    cases hsame
    exact .ended hunread hgone
  | put | malformed =>
    cases hheard
    exact .parse
  | close =>
    cases hheard
    exact .close

theorem stepReader_cases {world next : World} {thread : Nat} {step : ReaderStep}
    (hstep : World.step py endpoints world (.service (.reader thread step)) = some next) :
    ∃ before after queued raised, world.service.readers[thread]? = some before ∧
      Moves py world.service step before after queued raised ∧
      next.service = world.service.move thread after queued raised ∧
      Hears world step before next.client := by
  obtain ⟨heard, hheard, hservice⟩ := Option.bind_eq_some_iff.mp hstep
  obtain ⟨service, hmoved, rfl⟩ := Option.map_eq_some_iff.mp hservice
  obtain ⟨before, after, queued, raised, hfound, hmove, rfl⟩ := (stepReader_iff py).mp hmoved
  have hhears := hears_of_hear hfound hmove hheard
  exact ⟨before, after, queued, raised, hfound, hmove, rfl, hhears⟩

theorem Hears.hear {world : World} {thread : Nat} {step : ReaderStep} {before : Reader}
    {client : Nat → Client} (hhears : Hears world step before client)
    (hfound : world.service.readers[thread]? = some before) :
    world.hear (.reader thread step) = some { world with client } := by
  cases hhears with
  | line hunread | undecodable hunread =>
    simp only [World.hear, hfound, hunread, if_true]
    rfl
  | ended hunread hgone => simp [World.hear, hfound, hunread, hgone]
  | _ => simp only [World.hear, hfound]

theorem step_of_hears {world : World} {thread : Nat} {step : ReaderStep} {before after : Reader}
    {queued : List Received} {raised : Bool} {client : Nat → Client}
    (hfound : world.service.readers[thread]? = some before)
    (hmove : Moves py world.service step before after queued raised)
    (hhears : Hears world step before client) :
    World.step py endpoints world (.service (.reader thread step)) =
      some ⟨world.service.move thread after queued raised, client⟩ := by
  have hservice := (stepReader_iff py).mpr ⟨before, after, queued, raised, hfound, hmove, rfl⟩
  simp [World.step, hhears.hear hfound, Service.World.step, hservice]

theorem step_of_turns {world : World} {step : HandlerStep} {service : Service.World}
    (hturn : Turns endpoints world.service step service)
    (hsend : ∀ raises, step = .send raises → raises = world.current.isGone) :
    World.step py endpoints world (.service (.handler step)) = some { world with service } := by
  have hheard : world.hear (.handler step) = some world := by
    cases step with
    | send raises => exact if_pos (hsend raises rfl)
    | _ => rfl
  have hservice := (stepHandler_iff endpoints).mpr hturn
  simp [World.step, hheard, Service.World.step, hservice]

theorem stepHandler_cases {world next : World} {step : HandlerStep}
    (hstep : World.step py endpoints world (.service (.handler step)) = some next) :
    Turns endpoints world.service step next.service ∧ next.client = world.client ∧
      ∀ raises, step = .send raises → raises = world.current.isGone := by
  obtain ⟨heard, hheard, hservice⟩ := Option.bind_eq_some_iff.mp hstep
  obtain ⟨service, hmoved, rfl⟩ := Option.map_eq_some_iff.mp hservice
  refine ⟨(stepHandler_iff endpoints).mp hmoved, ?_⟩
  cases step with
  | send raises =>
    simp only [World.hear, Option.ite_none_right_eq_some] at hheard
    obtain ⟨hraises, hsame⟩ := hheard
    cases hsame
    refine ⟨rfl, fun other hother => ?_⟩
    cases hother
    exact hraises
  | _ =>
    cases hheard
    exact ⟨rfl, nofun⟩

/-- A reader waits only for its client, and only before it has died or ended. -/
def World.canMove (world : World) : Reader → Prop
  | .reading connection =>
    (world.client connection).unread ≠ [] ∨ (world.client connection).isGone = true
  | .finished | .died => False
  | _ => True

theorem Hears.canMove {world : World} {step : ReaderStep} {before : Reader}
    {client : Nat → Client} (hhears : Hears world step before client) : world.canMove before := by
  cases hhears with
  | line hunread | undecodable hunread =>
    left
    simp [hunread]
  | ended _ hgone => exact .inr hgone
  | _ => trivial

theorem enabled_of_hears {world : World} {reader : Nat} {step : ReaderStep}
    {before after : Reader} {queued : List Received} {raised : Bool} {client : Nat → Client}
    (hfound : world.service.readers[reader]? = some before)
    (hmove : Moves py world.service step before after queued raised)
    (hhears : Hears world step before client) :
    Behaviour.Enabled (machine py endpoints) thread (.reader reader) world := by
  refine ⟨.service (.reader reader step), rfl, ?_⟩
  exact Option.isSome_of_eq_some (step_of_hears hfound hmove hhears)

theorem enabled_reader_iff {world : World} {reader : Nat} :
    Behaviour.Enabled (machine py endpoints) thread (.reader reader) world ↔
      ∃ before, world.service.readers[reader]? = some before ∧ world.canMove before := by
  constructor
  · rintro ⟨event, hthread, henabled⟩
    obtain ⟨next, hstep⟩ := Option.isSome_iff_exists.mp henabled
    match event with
    | .arrive .. | .leave .. | .reset .. => cases hthread
    | .service (.handler step) => cases step <;> cases hthread
    | .service (.reader own step) =>
      cases hthread
      obtain ⟨before, after, queued, raised, hfound, hmove, -, hhears⟩ := stepReader_cases hstep
      exact ⟨before, hfound, hhears.canMove⟩
  · rintro ⟨before, hfound, hcan⟩
    cases before with
    | testing =>
      cases hflag : world.service.isConnectionClosed with
      | true => exact enabled_of_hears hfound (.leave hflag) .test
      | false => exact enabled_of_hears hfound (.enter hflag) .test
    | calling => exact enabled_of_hears hfound .call .call
    | reading connection =>
      cases hunread : (world.client connection).unread with
      | nil =>
        have hgone : (world.client connection).isGone = true := by
          simpa [World.canMove, hunread] using hcan
        exact enabled_of_hears hfound (.ended _) (.ended hunread hgone)
      | cons piece unread =>
        cases piece with
        | line data => exact enabled_of_hears hfound (.line _ data) (.line hunread)
        | undecodable => exact enabled_of_hears hfound (.undecodable _) (.undecodable hunread)
    | holding connection data =>
      cases hparse : parseRequest py data with
      | ok request => exact enabled_of_hears hfound (.put hparse) .parse
      | error error => exact enabled_of_hears hfound (.malformed hparse) .parse
    | closing => exact enabled_of_hears hfound .close .close
    | finished | died => exact hcan.elim

theorem enabled_of_turns {world : World} {step : HandlerStep} {service : Service.World}
    (hturn : Turns endpoints world.service step service) (haccept : step ≠ .accept)
    (hsend : ∀ raises, step = .send raises → raises = world.current.isGone) :
    Behaviour.Enabled (machine py endpoints) thread .handler world := by
  refine ⟨.service (.handler step), ?_, ?_⟩
  · cases step with
    | accept => exact absurd rfl haccept
    | _ => rfl
  · exact Option.isSome_of_eq_some (step_of_turns hturn hsend)

theorem enabled_handler_iff {world : World} :
    Behaviour.Enabled (machine py endpoints) thread .handler world ↔
      world.service.handler ≠ .accepting ∧ world.service.handler ≠ .failed := by
  constructor
  · rintro ⟨event, hthread, henabled⟩
    obtain ⟨next, hstep⟩ := Option.isSome_iff_exists.mp henabled
    match event with
    | .arrive .. | .leave .. | .reset .. => cases hthread
    | .service (.reader ..) => cases hthread
    | .service (.handler step) =>
      have hturn := (stepHandler_cases hstep).1
      generalize next.service = service at hturn
      cases hturn with
      | accept => cases hthread
      | _ => simp [*]
  · rintro ⟨haccepting, hfailed⟩
    cases hhandler : world.service.handler with
    | accepting => exact absurd hhandler haccepting
    | failed => exact absurd hhandler hfailed
    | accepted => exact enabled_of_turns (.makefile hhandler) (by simp) (by simp)
    | starting => exact enabled_of_turns (.reset hhandler) (by simp) (by simp)
    | spawning => exact enabled_of_turns (.spawn hhandler) (by simp) (by simp)
    | testing =>
      cases hflag : world.service.isConnectionClosed with
      | true => exact enabled_of_turns (.leave hhandler hflag) (by simp) (by simp)
      | false => exact enabled_of_turns (.stay hhandler hflag) (by simp) (by simp)
    | polling =>
      cases hqueue : world.service.queue with
      | nil => exact enabled_of_turns (.idle hhandler hqueue) (by simp) (by simp)
      | cons => exact enabled_of_turns (.take hhandler hqueue) (by simp) (by simp)
    | performing => exact enabled_of_turns (.perform hhandler) (by simp) (by simp)
    | sending =>
      cases hgone : world.current.isGone with
      | true => exact enabled_of_turns (.raised hhandler) (by simp) (by simp [hgone])
      | false => exact enabled_of_turns (.answer hhandler) (by simp) (by simp [hgone])

/-- Nothing moves when the only reader has ended and the service thread waits
for a client or has failed. -/
theorem not_enabled_of_rest {world : World} (hreaders : world.service.readers = [.finished])
    (hhandler : world.service.handler = .accepting ∨ world.service.handler = .failed) :
    ∀ mover, ¬ Behaviour.Enabled (machine py endpoints) thread mover world
  | .handler => fun henabled => by
    obtain ⟨haccepting, hfailed⟩ := enabled_handler_iff.mp henabled
    exact hhandler.elim haccepting hfailed
  | .reader reader => fun henabled => by
    obtain ⟨before, hfound, hcan⟩ := enabled_reader_iff.mp henabled
    rw [hreaders] at hfound
    cases List.mem_singleton.mp (List.mem_of_getElem? hfound)
    exact hcan

end VacuumCleaner.Core.Clients
