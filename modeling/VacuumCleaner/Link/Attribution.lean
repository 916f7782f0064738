import VacuumCleaner.Core.Jobs
import VacuumCleaner.Lib.Machine

/-! Whose reply a job takes. Every call of `send_instruction` is numbered; a
reply remembers the number of the instruction that A1 produced it for, which
the code cannot see: it only compares 16-bit ids. -/
namespace VacuumCleaner.Link.Attribution

open Core.Models Core.Socket Core.Jobs Lib

/-- A received reply with the number of the call it answers. -/
structure Answer where
  response : Response
  origin : Nat
  deriving DecidableEq, Repr

instance : Reply Answer := ⟨Answer.response⟩

/-- One call of `send_instruction`: its job, whether A1 has answered it, and
whether a caller still holds the job and may poll it. -/
structure Exchange where
  job : Job Answer
  answered : Bool := false
  held : Bool := true
  deriving DecidableEq, Repr

structure World where
  instructionIdK : Nat := 0
  exchanges : List Exchange := []
  responses : List Answer := []
  deriving DecidableEq, Repr

inductive Event
  | send (instructionId : Nat) (parameters : List Char) (timeout : Option Int) (now : Int)
  | answer (call : Nat) (response : Response)
  | poll (call : Nat) (now : Int)
  | drop (call : Nat)
  deriving DecidableEq, Repr

/-- The communicator of the code: the ghost numbers are forgotten. -/
def World.communicator (world : World) : SerialA1Communicator :=
  { responses := world.responses.map Answer.response, instructionIdK := world.instructionIdK }

def Exchange.id (exchange : Exchange) : Nat := exchange.job.request.id

/-- A1 rejects a line whose id has more than four digits, so it never answers
the call numbered 0x10000. -/
def Exchange.unanswered (exchange : Exchange) : Prop :=
  exchange.answered = false ∧ exchange.id < 2 ^ 16

instance (exchange : Exchange) : Decidable exchange.unanswered := by
  unfold Exchange.unanswered
  infer_instance

/-- A caller holds the job and has not got its response yet. -/
def Exchange.waiting (exchange : Exchange) : Prop :=
  exchange.held = true ∧ exchange.job.response = none

def World.step (world : World) : Event → Option World
  | .send instructionId parameters timeout now =>
    let (_, request, communicator) := world.communicator.sendInstruction instructionId parameters
    some { world with
      instructionIdK := communicator.instructionIdK
      exchanges := world.exchanges ++ [{ job := { request, timeout, time := now } }] }
  | .answer call response =>
    match world.exchanges[call]? with
    | some exchange =>
      if exchange.unanswered ∧ response.id = exchange.id then
        some { world with
          exchanges := world.exchanges.set call { exchange with answered := true }
          responses := world.responses ++ [⟨response, call⟩] }
      else none
    | none => none
  | .poll call now =>
    match world.exchanges[call]? with
    | some exchange =>
      if exchange.held then
        let (_, job, responses) := exchange.job.poll now world.responses
        some { world with
          exchanges := world.exchanges.set call { exchange with job }
          responses }
      else none
    | none => none
  | .drop call =>
    match world.exchanges[call]? with
    | some exchange =>
      some { world with exchanges := world.exchanges.set call { exchange with held := false } }
    | none => none

def machine : Machine World Event := ⟨World.step⟩

/-- Every response a job took answers the call that created the job. -/
def Attributed (world : World) : Prop :=
  ∀ (call : Nat) (exchange : Exchange) (answer : Answer), world.exchanges[call]? = some exchange →
    exchange.job.response = some answer → answer.origin = call

/-- An exchange whose id must not be given to another call yet: its answer is
outstanding or unread, or a caller still waits for it. -/
def World.open (world : World) (call : Nat) (exchange : Exchange) : Prop :=
  exchange.unanswered ∨ (∃ answer ∈ world.responses, answer.origin = call) ∨
    (exchange.waiting ∧ exchange.id < 2 ^ 16)

/-- `send_instruction` is called only when the id it takes is free. -/
def freshId (world : World) : Event → Prop
  | .send .. => ∀ call exchange, world.exchanges[call]? = some exchange →
      exchange.id = SerialA1Communicator.nextIdK world.instructionIdK →
      ¬ world.open call exchange
  | _ => True

theorem communicator_send {world next : World} {instructionId : Nat} {parameters : List Char}
    {timeout : Option Int} {now : Int}
    (h : world.step (.send instructionId parameters timeout now) = some next) :
    next.communicator = (world.communicator.sendInstruction instructionId parameters).2.2 := by
  cases h
  rfl

theorem communicator_poll {world next : World} {call : Nat} {now : Int}
    (h : world.step (.poll call now) = some next) :
    ∃ exchange, world.exchanges[call]? = some exchange ∧
      next.communicator.responses =
        ((exchange.job.map Answer.response).poll now world.communicator.responses).2.2 := by
  simp only [World.step] at h
  split at h
  · rename_i exchange hexchange
    split at h
    · cases h
      refine ⟨exchange, hexchange, ?_⟩
      simp [World.communicator, Job.poll_map Answer.response (fun _ => rfl)]
    · cases h
  · cases h

/-- An answer that may still reach a job. -/
def World.deliverable (world : World) (call : Nat) : Prop :=
  (∃ exchange, world.exchanges[call]? = some exchange ∧ exchange.unanswered) ∨
    ∃ answer ∈ world.responses, answer.origin = call

structure Inv (world : World) : Prop where
  /-- Unread answers carry the id of the call they answer. -/
  unread : ∀ answer ∈ world.responses, ∃ exchange,
    world.exchanges[answer.origin]? = some exchange ∧ answer.response.id = exchange.id ∧
      exchange.id < 2 ^ 16
  /-- No answer can still come for another call with the id of a waiting job. -/
  separate : ∀ call exchange other otherExchange, world.exchanges[call]? = some exchange →
    world.exchanges[other]? = some otherExchange → exchange.id = otherExchange.id →
    exchange.waiting → world.deliverable other → call = other
  attributed : Attributed world

theorem inv_initial : Inv {} where
  unread := by simp
  separate := by simp
  attributed := by simp [Attributed]

/-- `next` keeps the calls of `world` and adds no way to answer one. -/
structure Shrinks (world next : World) : Prop where
  back : ∀ (call : Nat) (exchange : Exchange), next.exchanges[call]? = some exchange →
    ∃ before, world.exchanges[call]? = some before ∧ exchange.id = before.id ∧
      (exchange.waiting → before.waiting)
  forth : ∀ (call : Nat) (exchange : Exchange), world.exchanges[call]? = some exchange →
    ∃ after, next.exchanges[call]? = some after ∧ after.id = exchange.id
  deliverable : ∀ call, next.deliverable call → world.deliverable call

theorem Shrinks.separate {world next : World} (hshrinks : Shrinks world next) (hinv : Inv world)
    {call other : Nat} {exchange otherExchange : Exchange}
    (hcall : next.exchanges[call]? = some exchange)
    (hother : next.exchanges[other]? = some otherExchange) (hid : exchange.id = otherExchange.id)
    (hwaiting : exchange.waiting) (hdeliverable : next.deliverable other) : call = other := by
  obtain ⟨before, hbefore, hidBefore, hwait⟩ := hshrinks.back call exchange hcall
  obtain ⟨otherBefore, hotherBefore, hidOther, -⟩ := hshrinks.back other otherExchange hother
  exact hinv.separate call before other otherBefore hbefore hotherBefore
    (by rw [← hidBefore, ← hidOther, hid]) (hwait hwaiting) (hshrinks.deliverable other hdeliverable)

theorem Shrinks.of_set {world next : World} {call : Nat} {exchange after : Exchange}
    (hcall : world.exchanges[call]? = some exchange)
    (hexchanges : next.exchanges = world.exchanges.set call after) (hid : after.id = exchange.id)
    (hwaiting : after.waiting → exchange.waiting)
    (hunanswered : after.unanswered → exchange.unanswered)
    (hresponses : ∀ answer ∈ next.responses, answer ∈ world.responses ∨ world.deliverable answer.origin) :
    Shrinks world next where
  back := by
    intro c x hx
    rw [hexchanges, List.getElem?_set] at hx
    split at hx
    · rename_i heq
      subst heq
      split at hx <;> cases hx
      exact ⟨exchange, hcall, hid, hwaiting⟩
    · exact ⟨x, hx, rfl, id⟩
  forth := by
    intro c x hx
    rw [hexchanges, List.getElem?_set]
    split
    · rename_i heq
      subst heq
      have hlt := (List.getElem?_eq_some_iff.mp hcall).1
      rw [hcall] at hx
      cases hx
      exact ⟨after, by simp [hlt], hid⟩
    · exact ⟨x, hx, rfl⟩
  deliverable := by
    rintro c (⟨x, hx, hx'⟩ | ⟨answer, hanswer, rfl⟩)
    · rw [hexchanges, List.getElem?_set] at hx
      split at hx
      · rename_i heq
        subst heq
        split at hx <;> cases hx
        exact .inl ⟨exchange, hcall, hunanswered hx'⟩
      · exact .inl ⟨x, hx, hx'⟩
    · rcases hresponses answer hanswer with hmem | hdeliverable
      · exact .inr ⟨answer, hmem, rfl⟩
      · exact hdeliverable

theorem Shrinks.inv {world next : World} (hshrinks : Shrinks world next) (hinv : Inv world)
    (hunread : ∀ answer ∈ next.responses, answer ∈ world.responses ∨
      ∃ exchange, world.exchanges[answer.origin]? = some exchange ∧
        answer.response.id = exchange.id ∧ exchange.id < 2 ^ 16)
    (hattributed : Attributed next) : Inv next where
  unread := by
    intro answer hanswer
    have hbefore : ∃ exchange, world.exchanges[answer.origin]? = some exchange ∧
        answer.response.id = exchange.id ∧ exchange.id < 2 ^ 16 := by
      rcases hunread answer hanswer with hmem | hnew
      · exact hinv.unread answer hmem
      · exact hnew
    obtain ⟨exchange, hexchange, hid, hbound⟩ := hbefore
    obtain ⟨after, hafter, hidAfter⟩ := hshrinks.forth answer.origin exchange hexchange
    exact ⟨after, hafter, by rw [hidAfter, hid], by rw [hidAfter]; exact hbound⟩
  separate := fun _ _ _ _ hcall hother hid hwaiting hdeliverable =>
    hshrinks.separate hinv hcall hother hid hwaiting hdeliverable
  attributed := hattributed

theorem attributed_set {world next : World} {call : Nat} {after : Exchange}
    (hexchanges : next.exchanges = world.exchanges.set call after) (hworld : Attributed world)
    (hafter : ∀ answer, after.job.response = some answer → answer.origin = call) :
    Attributed next := by
  intro c x answer hx hresponse
  rw [hexchanges, List.getElem?_set] at hx
  split at hx
  · rename_i heq
    subst heq
    split at hx <;> cases hx
    exact hafter answer hresponse
  · exact hworld c x answer hx hresponse

theorem inv_answer {world next : World} {call : Nat} {response : Response} (hinv : Inv world)
    (h : world.step (.answer call response) = some next) : Inv next := by
  simp only [World.step] at h
  split at h
  · rename_i exchange hcall
    split at h
    · rename_i hanswer
      obtain ⟨hunanswered, hid⟩ := hanswer
      cases h
      have hmem : ∀ answer ∈ world.responses ++ [⟨response, call⟩],
          answer ∈ world.responses ∨ answer = ⟨response, call⟩ := by simp
      refine Shrinks.inv (.of_set hcall rfl rfl id ?_ ?_) hinv ?_ ?_
      · rintro ⟨hfalse, -⟩
        cases hfalse
      · intro answer hanswer
        rcases hmem answer hanswer with hold | rfl
        · exact .inl hold
        · exact .inr (.inl ⟨exchange, hcall, hunanswered⟩)
      · intro answer hanswer
        rcases hmem answer hanswer with hold | rfl
        · exact .inl hold
        · exact .inr ⟨exchange, hcall, hid, hunanswered.2⟩
      · exact attributed_set rfl hinv.attributed fun answer hresponse =>
          hinv.attributed call exchange answer hcall hresponse
    · cases h
  · cases h

theorem inv_poll {world next : World} {call : Nat} {now : Int} (hinv : Inv world)
    (h : world.step (.poll call now) = some next) : Inv next := by
  simp only [World.step] at h
  split at h
  · rename_i exchange hcall
    split at h
    · rename_i hheld
      cases h
      have hkept := hinv.attributed call exchange
      rcases exchange.job.poll_cases now world.responses with hsame | hpopped
      · simp only [hsame]
        refine Shrinks.inv (.of_set hcall rfl rfl id id fun _ => .inl) hinv (fun _ => .inl) ?_
        exact attributed_set rfl hinv.attributed fun answer hresponse => hkept answer hcall hresponse
      · -- The popped answer has the id of a waiting job, so it is that job's own.
        obtain ⟨found, before, after, hnone, hid, hsplit, hpoll⟩ := hpopped
        have hfound : found ∈ world.responses := by
          rw [hsplit]
          simp
        obtain ⟨owner, howner, hownerId, -⟩ := hinv.unread found hfound
        have horigin : call = found.origin :=
          hinv.separate call exchange found.origin owner hcall howner (hid.symm.trans hownerId)
            ⟨hheld, hnone⟩ (.inr ⟨found, hfound, rfl⟩)
        have hrest : ∀ answer ∈ before ++ after, answer ∈ world.responses := by
          intro answer hanswer
          rw [hsplit]
          rcases List.mem_append.mp hanswer with hleft | hright
          · exact List.mem_append_left _ hleft
          · exact List.mem_append_right _ (List.mem_cons_of_mem _ hright)
        simp only [hpoll]
        refine Shrinks.inv (.of_set hcall rfl rfl ?_ id fun answer hanswer => .inl (hrest answer hanswer))
          hinv (fun answer hanswer => .inl (hrest answer hanswer)) ?_
        · rintro ⟨-, hresponse⟩
          cases hresponse
        · refine attributed_set rfl hinv.attributed fun answer hresponse => ?_
          cases hresponse
          exact horigin.symm
    · cases h
  · cases h

theorem inv_drop {world next : World} {call : Nat} (hinv : Inv world)
    (h : world.step (.drop call) = some next) : Inv next := by
  simp only [World.step] at h
  split at h
  · rename_i exchange hcall
    cases h
    refine Shrinks.inv (.of_set hcall rfl rfl ?_ id fun _ => .inl) hinv (fun _ => .inl) ?_
    · rintro ⟨hfalse, -⟩
      cases hfalse
    · exact attributed_set rfl hinv.attributed fun answer hresponse =>
        hinv.attributed call exchange answer hcall hresponse
  · cases h

/-- A send adds one call at the end and leaves the answers alone. -/
structure Extends (world next : World) (created : Exchange) : Prop where
  exchanges : next.exchanges = world.exchanges ++ [created]
  responses : next.responses = world.responses

section Extends

variable {world next : World} {created exchange : Exchange} {call : Nat}

theorem Extends.lookup (h : Extends world next created)
    (hcall : next.exchanges[call]? = some exchange) :
    world.exchanges[call]? = some exchange ∨
      (call = world.exchanges.length ∧ exchange = created) := by
  rw [h.exchanges] at hcall
  rcases Nat.lt_trichotomy call world.exchanges.length with hlt | heq | hgt
  · exact .inl (by rwa [List.getElem?_append_left hlt] at hcall)
  · subst heq
    exact .inr ⟨rfl, by simpa using hcall.symm⟩
  · rw [List.getElem?_eq_none (by simp; omega)] at hcall
    cases hcall

theorem Extends.keep (h : Extends world next created)
    (hcall : world.exchanges[call]? = some exchange) : next.exchanges[call]? = some exchange := by
  rw [h.exchanges, List.getElem?_append_left (List.getElem?_eq_some_iff.mp hcall).1, hcall]

theorem Extends.deliverable (h : Extends world next created)
    (hcall : world.exchanges[call]? = some exchange) (hdeliverable : next.deliverable call) :
    world.deliverable call := by
  rcases hdeliverable with ⟨x, hx, hx'⟩ | ⟨answer, hanswer, rfl⟩
  · rw [h.keep hcall] at hx
    cases hx
    exact .inl ⟨exchange, hcall, hx'⟩
  · exact .inr ⟨answer, h.responses ▸ hanswer, rfl⟩

theorem Extends.unanswered (h : Extends world next created) (hinv : Inv world)
    (hdeliverable : next.deliverable world.exchanges.length) : created.unanswered := by
  have hcreated : next.exchanges[world.exchanges.length]? = some created := by
    rw [h.exchanges]
    simp
  rcases hdeliverable with ⟨x, hx, hx'⟩ | ⟨answer, hanswer, horigin⟩
  · rw [hcreated] at hx
    cases hx
    exact hx'
  · obtain ⟨x, hx, -⟩ := hinv.unread answer (h.responses ▸ hanswer)
    rw [horigin, List.getElem?_eq_none (Nat.le_refl _)] at hx
    cases hx

theorem Extends.separate (h : Extends world next created) (hinv : Inv world)
    (hclosed : ∀ (call : Nat) (exchange : Exchange), world.exchanges[call]? = some exchange →
      exchange.id = created.id → ¬ world.open call exchange)
    {other : Nat} {otherExchange : Exchange} (hcall : next.exchanges[call]? = some exchange)
    (hother : next.exchanges[other]? = some otherExchange) (hid : exchange.id = otherExchange.id)
    (hwaiting : exchange.waiting) (hdeliverable : next.deliverable other) : call = other := by
  rcases h.lookup hcall with hold | ⟨rfl, rfl⟩
  · rcases h.lookup hother with hotherOld | ⟨rfl, rfl⟩
    · exact hinv.separate call exchange other otherExchange hold hotherOld hid hwaiting
        (h.deliverable hotherOld hdeliverable)
    · -- The new call takes no answer of an older caller: that caller waits.
      have hbound := (h.unanswered hinv hdeliverable).2
      rw [← hid] at hbound
      exact absurd (.inr (.inr ⟨hwaiting, hbound⟩)) (hclosed call exchange hold hid)
  · rcases h.lookup hother with hotherOld | ⟨rfl, -⟩
    · -- No answer of an older call reaches the new job: none is outstanding.
      apply absurd _ (hclosed other otherExchange hotherOld hid.symm)
      rcases h.deliverable hotherOld hdeliverable with ⟨x, hx, hx'⟩ | hunread
      · rw [hotherOld] at hx
        cases hx
        exact .inl hx'
      · exact .inr (.inl hunread)
    · rfl

end Extends

theorem inv_send {world next : World} {instructionId : Nat} {parameters : List Char}
    {timeout : Option Int} {now : Int} (hinv : Inv world)
    (hfresh : freshId world (.send instructionId parameters timeout now))
    (h : world.step (.send instructionId parameters timeout now) = some next) : Inv next := by
  have hsend : ∃ created, Extends world next created ∧
      created.id = SerialA1Communicator.nextIdK world.instructionIdK ∧
      created.job.response = none := by
    cases h
    exact ⟨_, ⟨rfl, rfl⟩, SerialA1Communicator.sendInstruction_id .., rfl⟩
  obtain ⟨created, hextends, hid, hcreated⟩ := hsend
  constructor
  · intro answer hanswer
    rw [hextends.responses] at hanswer
    obtain ⟨exchange, hexchange, hrest⟩ := hinv.unread answer hanswer
    exact ⟨exchange, hextends.keep hexchange, hrest⟩
  · intro call exchange other otherExchange hcall hother hidEq hwaiting hdeliverable
    apply hextends.separate hinv _ hcall hother hidEq hwaiting hdeliverable
    exact fun call exchange hcall heq => hfresh call exchange hcall (heq.trans hid)
  · intro call exchange answer hcall hresponse
    rcases hextends.lookup hcall with hold | ⟨-, rfl⟩
    · exact hinv.attributed call exchange answer hold hresponse
    · rw [hcreated] at hresponse
      cases hresponse

theorem inv_step (world : World) (event : Event) (next : World) (hinv : Inv world)
    (hfresh : freshId world event) (h : machine.step world event = some next) : Inv next := by
  cases event with
  | send instructionId parameters timeout now => exact inv_send hinv hfresh h
  | answer call response => exact inv_answer hinv h
  | poll call now => exact inv_poll hinv h
  | drop call => exact inv_drop hinv h

/-- In a run that reuses an id only when it is free, every response a job
takes is the one A1 produced for the instruction of that job. -/
theorem attributed_of_freshId {world : World} (run : machine.Reach freshId {} world) :
    Attributed world :=
  (run.invariant Inv inv_initial inv_step).attributed

/-- Two moves are under way at once, and the second is answered first. -/
theorem attributed_of_two_moves : ∃ world : World,
    world.exchanges.map (fun exchange => exchange.job.response.map Answer.origin) =
      [some 0, some 1] ∧ Attributed world := by
  obtain ⟨world, hexec, horigins⟩ : ∃ world, machine.exec {} [.send 6 ['1'] none 0,
      .send 6 ['2'] none 1, .answer 1 ⟨2, true, 5, none, none⟩,
      .answer 0 ⟨1, true, 6, none, none⟩, .poll 0 7, .poll 1 8] = some world ∧
        world.exchanges.map (fun exchange => exchange.job.response.map Answer.origin) =
          [some 0, some 1] := ⟨_, rfl, rfl⟩
  refine ⟨world, horigins, attributed_of_freshId (machine.reach_of_exec_guarded ?_ hexec)⟩
  refine ⟨?_, fun next hnext => ⟨?_, fun next _ => ⟨trivial, fun next _ => ⟨trivial, fun next _ =>
    ⟨trivial, fun next _ => ⟨trivial, fun next _ => trivial⟩⟩⟩⟩⟩⟩
  · intro call exchange hcall
    simp at hcall
  · cases hnext
    intro call exchange hcall hid
    obtain rfl := List.mem_singleton.mp (List.mem_of_getElem? hcall)
    exact absurd hid (by decide)

/-- `count` calls whose jobs nobody polls, as the movement endpoint makes them. -/
def unpolledCalls (count : Nat) : List Event :=
  List.replicate count (.send 0x13 ['1', ';', '6', '4'] (some 1000) 0)

theorem exec_unpolledCalls (count start : Nat) (world : World)
    (hstart : SerialA1Communicator.nextIdK world.instructionIdK = start % 2 ^ 16 + 1) :
    ∃ (later : List Exchange) (instructionIdK : Nat), later.length = count ∧
      SerialA1Communicator.nextIdK instructionIdK = (start + count) % 2 ^ 16 + 1 ∧
      machine.exec world (unpolledCalls count) =
        some { world with instructionIdK, exchanges := world.exchanges ++ later } := by
  induction count generalizing start world with
  | zero => exact ⟨[], world.instructionIdK, rfl, hstart, by simp [unpolledCalls]⟩
  | succ count ih =>
    obtain ⟨next, hnext⟩ : ∃ next,
        world.step (.send 0x13 ['1', ';', '6', '4'] (some 1000) 0) = some next := ⟨_, rfl⟩
    have hidK : next.instructionIdK = SerialA1Communicator.nextIdK world.instructionIdK := by
      cases hnext
      rfl
    obtain ⟨created, hexchanges, hresponses⟩ : ∃ created,
        next.exchanges = world.exchanges ++ [created] ∧ next.responses = world.responses := by
      cases hnext
      exact ⟨_, rfl, rfl⟩
    obtain ⟨later, instructionIdK, hlength, hcounter, hexec⟩ := ih (start + 1) next (by
      rw [hidK, hstart]
      unfold SerialA1Communicator.nextIdK
      split <;> omega)
    refine ⟨created :: later, instructionIdK, by simp [hlength], ?_, ?_⟩
    · rw [hcounter]
      congr 2
      omega
    · rw [unpolledCalls, List.replicate_succ, Machine.exec_cons,
        show machine.step world (.send 0x13 ['1', ';', '6', '4'] (some 1000) 0) = some next from hnext,
        Option.bind_some]
      rw [unpolledCalls] at hexec
      rw [hexec, hexchanges, hresponses]
      simp

/-- The answer of a movement nobody polled is taken, 65536 calls later, by the
job of a move that A1 has not answered. -/
theorem not_attributed_after_wrap :
    ¬ ∀ world, machine.Reach Machine.anyEvent {} world → Attributed world := by
  intro hall
  let stale : Answer := ⟨⟨1, true, 0, none, none⟩, 0⟩
  let first : Exchange :=
    { job := ⟨⟨1, 0x13, ['1', ';', '6', '4']⟩, some 1000, 0, none⟩, answered := true }
  have hfirst : machine.exec {} (unpolledCalls 1 ++ [.answer 0 stale.response]) =
      some ⟨1, [first], [stale]⟩ := by decide
  obtain ⟨later, instructionIdK, hlength, hcounter, hexec⟩ :=
    exec_unpolledCalls 65535 1 ⟨1, [first], [stale]⟩ (by decide)
  have hidK : SerialA1Communicator.nextIdK instructionIdK = 1 := hcounter
  let created : Exchange :=
    { job := ⟨⟨1, 0x06, ['1', ';', '1', ';', '1', ';', '1']⟩, none, 0, none⟩ }
  have hcreated : machine.step ⟨instructionIdK, [first] ++ later, [stale]⟩
      (.send 0x06 ['1', ';', '1', ';', '1', ';', '1'] none 0) =
        some ⟨1, [first] ++ later ++ [created], [stale]⟩ := by
    simp [machine, World.step, SerialA1Communicator.sendInstruction,
      SerialA1Communicator.generateUid, World.communicator, hidK, created]
  have hlookup : ([first] ++ later ++ [created])[65536]? = some created := by
    rw [List.getElem?_append_right (by simp [hlength])]
    simp [hlength]
  have hpoll : machine.step ⟨1, [first] ++ later ++ [created], [stale]⟩ (.poll 65536 0) =
      some ⟨1, ([first] ++ later ++ [created]).set 65536
        { created with job := { created.job with response := some stale } }, []⟩ := by
    simp only [machine, World.step, hlookup]
    rfl
  have hreach := ((((machine.reach_of_exec hfirst).trans
    (machine.reach_of_exec hexec)).step trivial hcreated).step
    trivial hpoll)
  have hset : (([first] ++ later ++ [created]).set 65536
      { created with job := { created.job with response := some stale } })[65536]? =
        some { created with job := { created.job with response := some stale } } := by
    rw [List.getElem?_set_self]
    simp [hlength]
  have horigin := hall _ hreach 65536 _ stale hset rfl
  exact absurd horigin (by decide)

end VacuumCleaner.Link.Attribution
