import VacuumCleaner.Core.Service

/-! Requests stay with their connection as long as every handling loop is left
with nothing queued and no reader busy. -/
namespace VacuumCleaner.Core.Connections

open Lib Lib.Json Requests Service

/-- The connection a reader works for. -/
def belongsTo (connection : Nat) : Reader → Prop
  | .reading own => own = connection
  | .holding own _ => own = connection
  | _ => True

/-- Between two handling loops: nothing is left of the last connection, and the
readers that remain end at their next test. -/
structure Idle (world : World) : Prop where
  queue : world.queue = []
  readers : ∀ reader ∈ world.readers, reader.isBusy = false
  closed : world.isConnectionClosed = true ∨ world.readers = []

/-- While a connection is handled, everything belongs to it. -/
structure Serving (world : World) : Prop where
  reader : world.reader = world.connection
  queue : ∀ received ∈ world.queue, received.connection = world.connection
  readers : ∀ reader ∈ world.readers, belongsTo world.connection reader

def Phase (world : World) : Prop :=
  match world.handler with
  | .accepting | .accepted => Idle world
  | .starting => Idle world ∧ world.reader = world.connection
  | .spawning | .testing | .polling => Serving world
  | .performing received | .sending received =>
    Serving world ∧ received.connection = world.connection
  | .failed => True

structure Inv (world : World) : Prop where
  own : OwnConnection world
  phase : Phase world

section Moves

variable {py : Runtime} {world : World} {step : ReaderStep} {before after : Reader}
  {queued : List Received} {raised : Bool}

theorem busy_of_move (hmove : Moves py world step before after queued raised)
    (hbusy : after.isBusy = true) : before.isBusy = true ∨ world.isConnectionClosed = false := by
  cases hmove with
  | enter hopen => exact .inr hopen
  | call | line => exact .inl rfl
  | _ => cases hbusy

theorem queued_of_move (hmove : Moves py world step before after queued raised)
    (hidle : before.isBusy = false) : queued = [] := by
  cases hmove with
  | put => cases hidle
  | _ => rfl

theorem queued_own_of_move {connection : Nat} (hown : belongsTo connection before)
    (hmove : Moves py world step before after queued raised) :
    ∀ received ∈ queued, received.connection = connection := by
  cases hmove with
  | put =>
    intro received hreceived
    rw [List.mem_singleton.mp hreceived]
    exact hown
  | _ => simp

theorem belongsTo_of_move (hown : belongsTo world.reader before)
    (hmove : Moves py world step before after queued raised) :
    belongsTo world.reader after := by
  cases hmove with
  | line => exact hown
  | call => rfl
  | _ => trivial

end Moves

theorem Idle.reader {py : Runtime} {world next : World} {thread : Nat} {step : ReaderStep}
    (hidle : Idle world) (hstep : world.stepReader py thread step = some next) : Idle next := by
  obtain ⟨before, after, queued, raised, hfound, hmove, rfl⟩ := (stepReader_iff py).mp hstep
  have hmem : before ∈ world.readers := List.mem_of_getElem? hfound
  have hrest := hidle.readers before hmem
  have hclosed : world.isConnectionClosed = true := by
    cases hidle.closed with
    | inl hclosed => exact hclosed
    | inr hnone =>
      rw [hnone] at hmem
      cases hmem
  constructor
  · simp [hidle.queue, queued_of_move hmove hrest]
  · intro reader hreader
    rcases List.mem_or_eq_of_mem_set hreader with hold | rfl
    · exact hidle.readers reader hold
    · by_contra hbusy
      rcases busy_of_move hmove (by simpa using hbusy) with hbefore | hopen
      · rw [hrest] at hbefore
        cases hbefore
      · rw [hclosed] at hopen
        cases hopen
  · left
    simp [hclosed]

theorem Serving.reader_step {py : Runtime} {world next : World} {thread : Nat} {step : ReaderStep}
    (hserving : Serving world) (hstep : world.stepReader py thread step = some next) :
    Serving next := by
  obtain ⟨before, after, queued, raised, hfound, hmove, rfl⟩ := (stepReader_iff py).mp hstep
  have hown := hserving.readers before (List.mem_of_getElem? hfound)
  constructor
  · exact hserving.reader
  · intro received hreceived
    rcases List.mem_append.mp hreceived with hold | hqueued
    · exact hserving.queue received hold
    · exact queued_own_of_move hown hmove received hqueued
  · intro reader hreader
    rcases List.mem_or_eq_of_mem_set hreader with hold | rfl
    · exact hserving.readers reader hold
    · rw [← hserving.reader] at hown
      have hafter := belongsTo_of_move hown hmove
      rw [hserving.reader] at hafter
      exact hafter

theorem Idle.serving {world : World} (hidle : Idle world)
    (hreader : world.reader = world.connection) :
    Serving { world with isConnectionClosed := false, handler := .spawning } := by
  constructor
  · exact hreader
  · simp [hidle.queue]
  · intro reader hmem
    have hrest := hidle.readers reader hmem
    cases reader with
    | reading | holding => cases hrest
    | _ => trivial

theorem Inv.reader {py : Runtime} {world next : World} {thread : Nat} {step : ReaderStep}
    (hinv : Inv world) (hstep : world.stepReader py thread step = some next) : Inv next := by
  have hphase := hinv.phase
  have hsame : next.handler = world.handler ∧ next.reader = world.reader ∧
      next.connection = world.connection ∧ next.performed = world.performed ∧
      next.sent = world.sent := by
    obtain ⟨before, after, queued, raised, -, -, rfl⟩ := (stepReader_iff py).mp hstep
    exact ⟨rfl, rfl, rfl, rfl, rfl⟩
  obtain ⟨hhandler, hreader, hconnection, hperformed, hsent⟩ := hsame
  constructor
  · unfold OwnConnection
    rw [hperformed, hsent]
    exact hinv.own
  · unfold Phase at hphase ⊢
    rw [hhandler]
    split at hphase
    · exact hphase.reader hstep
    · exact hphase.reader hstep
    · exact ⟨hphase.1.reader hstep, by rw [hreader, hconnection, hphase.2]⟩
    · exact hphase.reader_step hstep
    · exact hphase.reader_step hstep
    · exact hphase.reader_step hstep
    · exact ⟨hphase.1.reader_step hstep, by rw [hconnection, hphase.2]⟩
    · exact ⟨hphase.1.reader_step hstep, by rw [hconnection, hphase.2]⟩
    · trivial

theorem own_snoc {acts : List Act} {received : Received} {connection : Nat}
    (hacts : ∀ act ∈ acts, act.received.connection = act.connection)
    (hown : received.connection = connection) :
    ∀ act ∈ acts ++ [⟨received, connection⟩], act.received.connection = act.connection := by
  intro act hact
  rcases List.mem_append.mp hact with hold | hnew
  · exact hacts act hold
  · rw [List.mem_singleton.mp hnew]
    exact hown

theorem Serving.take {world : World} {received : Received} {queue : List Received}
    (hserving : Serving world) (hqueue : world.queue = received :: queue) :
    received.connection = world.connection ∧
      Serving { world with queue, handler := .performing received } := by
  have hall := hserving.queue
  rw [hqueue] at hall
  refine ⟨hall _ List.mem_cons_self, hserving.reader, ?_, hserving.readers⟩
  intro other hother
  exact hall other (List.mem_cons_of_mem _ hother)

theorem Serving.spawn {world : World} (hserving : Serving world) :
    Serving { world with readers := world.readers ++ [.testing], handler := .testing } := by
  refine ⟨hserving.reader, hserving.queue, ?_⟩
  intro reader hreader
  rcases List.mem_append.mp hreader with hold | hnew
  · exact hserving.readers reader hold
  · rw [List.mem_singleton.mp hnew]
    trivial

theorem Inv.handler {endpoints : List (List Char)} {world next : World} {step : HandlerStep}
    (hinv : Inv world) (hguard : leavesIdle world (.handler step))
    (hstep : world.stepHandler endpoints step = some next) : Inv next := by
  have hown := hinv.own
  have hphase := hinv.phase
  unfold Phase at hphase
  cases (stepHandler_iff endpoints).mp hstep with
  | accept hhandler =>
    rw [hhandler] at hphase
    exact ⟨hown, ⟨hphase.queue, hphase.readers, hphase.closed⟩⟩
  | makefile hhandler =>
    rw [hhandler] at hphase
    exact ⟨hown, ⟨hphase.queue, hphase.readers, hphase.closed⟩, rfl⟩
  | reset hhandler =>
    rw [hhandler] at hphase
    exact ⟨hown, hphase.1.serving hphase.2⟩
  | spawn hhandler =>
    rw [hhandler] at hphase
    exact ⟨hown, hphase.spawn⟩
  | leave hhandler hclosed =>
    obtain ⟨hqueue, hreaders⟩ := hguard hclosed
    exact ⟨hown, hqueue, hreaders, .inl hclosed⟩
  | stay hhandler | idle hhandler =>
    rw [hhandler] at hphase
    exact ⟨hown, hphase.reader, hphase.queue, hphase.readers⟩
  | take hhandler hqueue =>
    rw [hhandler] at hphase
    obtain ⟨hconnection, hserving⟩ := hphase.take hqueue
    exact ⟨hown, hserving, hconnection⟩
  | perform hhandler =>
    rw [hhandler] at hphase
    refine ⟨⟨?_, hown.2⟩, ⟨hphase.1.reader, hphase.1.queue, hphase.1.readers⟩, hphase.2⟩
    dsimp only
    split
    · exact own_snoc hown.1 hphase.2
    · exact hown.1
  | raised => exact ⟨hown, trivial⟩
  | answer hhandler =>
    rw [hhandler] at hphase
    exact ⟨⟨hown.1, own_snoc hown.2 hphase.2⟩, hphase.1.reader, hphase.1.queue, hphase.1.readers⟩

theorem Inv.start : Inv {} := by
  constructor
  · simp [OwnConnection]
  · exact ⟨rfl, by simp, .inr rfl⟩

theorem ownConnection_of_leavesIdle (py : Runtime) (endpoints : List (List Char)) (world : World)
    (run : (machine py endpoints).Reach leavesIdle {} world) : OwnConnection world := by
  have hinv : Inv world := by
    apply run.invariant Inv Inv.start
    intro state event next hinv hguard hstep
    cases event with
    | reader thread step => exact hinv.reader hstep
    | handler step => exact hinv.handler hguard hstep
  exact hinv.own

/-- One connection is served a request and closed, and a second one is accepted
when the first reader has ended. -/
def twoConnections : List Event :=
  [.handler .accept, .handler .makefile, .handler .reset, .handler .spawn, .handler .test,
    .reader 0 .test, .reader 0 .call, .reader 0 (.line pidRequest), .handler .poll, .reader 0 .parse,
    .handler .test, .reader 0 .test, .handler .poll, .reader 0 .call, .handler .perform,
    .handler (.send false), .reader 0 .connectionClosed, .reader 0 .close, .reader 0 .test,
    .handler .test, .handler .accept, .handler .makefile]

theorem ownConnection_after_twoConnections :
    ∃ world, (machine exactRuntime [['/', 'p']]).exec {} twoConnections = some world ∧
      world.performed.length = 1 ∧ world.sent.length = 1 ∧ world.connection = 2 ∧
      OwnConnection world := by
  have hguard : (machine exactRuntime [['/', 'p']]).Guarded leavesIdle {} twoConnections := by
    decide +kernel
  have hexec : ∃ world, (machine exactRuntime [['/', 'p']]).exec {} twoConnections = some world ∧
      world.performed.length = 1 ∧ world.sent.length = 1 ∧ world.connection = 2 :=
    ⟨_, rfl, rfl, rfl, rfl⟩
  obtain ⟨world, hexec, hperformed, hsent, hconnection⟩ := hexec
  exact ⟨world, hexec, hperformed, hsent, hconnection,
    ownConnection_of_leavesIdle _ _ world (Machine.reach_of_exec_guarded hguard hexec)⟩

/-- The first connection ends before its request is taken from the queue. -/
def lagging : List Event :=
  [.handler .accept, .handler .makefile, .handler .reset, .handler .spawn, .handler .test,
    .handler .poll, .reader 0 .test, .reader 0 .call, .reader 0 (.line pidRequest),
    .reader 0 .parse, .reader 0 .test, .reader 0 .call, .reader 0 .connectionClosed,
    .reader 0 .close, .handler .test, .handler .accept, .handler .makefile, .handler .reset,
    .handler .spawn, .handler .test, .handler .poll, .handler .perform, .handler (.send false)]

/-- The next client gets the answer to it. -/
theorem request_crosses_connections :
    ¬ ∀ world, (machine exactRuntime [['/', 'p']]).Reach Machine.anyEvent {} world →
      OwnConnection world := by
  intro hevery
  have hexec : ∃ world, (machine exactRuntime [['/', 'p']]).exec {} lagging = some world ∧
      ∃ act ∈ world.sent, act.received.connection = 1 ∧ act.connection = 2 :=
    ⟨_, rfl, _, List.mem_cons_self, rfl, rfl⟩
  obtain ⟨world, hexec, act, hact, hread, hanswered⟩ := hexec
  have hown := (hevery world (Machine.reach_of_exec hexec)).2 act hact
  rw [hread, hanswered] at hown
  cases hown

end VacuumCleaner.Core.Connections
