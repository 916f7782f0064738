import VacuumCleaner.Lib.Lookup
import VacuumCleaner.Lib.Machine

/-! The app's `RequestHandler`: many calls of `send` wait on one list of
responses, to which the listener thread appends. -/
namespace VacuumCleaner.App.RequestHandler

open Lib Lib.Lookup

inductive ResponseStatus
  | ok
  | error
  | badRequest
  deriving DecidableEq, Repr

variable {Data Class Value : Type}

structure Response (Data : Type) where
  endpoint : List Char
  requestId : List Char
  status : ResponseStatus
  data : Option Data
  errorMessage : Option (List Char)
  deriving DecidableEq, Repr

/-- What the JSON libraries do: the text of an object, none where the data is no
map, and the model that is read from a text, none where it cannot be. -/
structure Moshi (Data Class Value : Type) where
  objectText : Data → Option (List Char)
  fromJson : Class → List Char → Option Value

/-- How a call of `send` ends. -/
inductive Outcome (Value : Type)
  | value (value : Option Value)
  | requestFailed (errorMessage : Option (List Char))
  | badRequest (errorMessage : Option (List Char))
  | timeout
  | raised
  deriving DecidableEq, Repr

/-- A call comes back with a value or with an error that the robot has answered. -/
def Outcome.isAnswer : Outcome Value → Bool
  | value _ | requestFailed _ | badRequest _ => true
  | timeout | raised => false

/-- Where a call stands; the loop tests the time, then looks for a response. -/
inductive Phase (Value : Type)
  | sending
  | starting
  | testingTime (startTime : Int)
  | popping (startTime : Int)
  | finished (outcome : Outcome Value)
  deriving DecidableEq, Repr

structure Call (Class Value : Type) where
  endpoint : List Char
  requestId : List Char
  responseClass : Option Class
  timeout : Int
  phase : Phase Value := .sending
  deriving DecidableEq, Repr

/-- `received` and `consumed` only record what has happened. -/
structure World (Data Class Value : Type) where
  calls : List (Call Class Value) := []
  responses : List (Response Data) := []
  received : List (Response Data) := []
  consumed : List (Nat × Response Data) := []
  deriving DecidableEq

inductive Event (Data Class : Type)
  | send (endpoint requestId : List Char) (responseClass : Option Class) (timeout : Int)
  | perform (call : Nat) (fails : Bool)
  | start (call : Nat) (now : Int)
  | testTime (call : Nat) (now : Int)
  | pop (call : Nat)
  | receive (response : Response Data)

/-- `MutableList.pop`: the first element that satisfies the predicate, and the
list without the first element that equals it. -/
def pop {α : Type} [DecidableEq α] (predicate : α → Bool) (items : List α) :
    Option α × List α :=
  match items.find? predicate with
  | some res => (some res, items.erase res)
  | none => (none, items)

def Call.accepts (call : Call Class Value) (response : Response Data) : Bool :=
  response.requestId == call.requestId && response.endpoint == call.endpoint

/-- What `awaitForResponse` makes of a response. -/
def Moshi.outcome (moshi : Moshi Data Class Value) (responseClass : Option Class)
    (response : Response Data) : Outcome Value :=
  let text :=
    match response.data with
    | some data => moshi.objectText data
    | none => some ['{', '}']
  match text with
  | none => .raised
  | some text =>
    match response.status with
    | .ok =>
      match responseClass with
      | some responseClass =>
        match moshi.fromJson responseClass text with
        | some value => .value (some value)
        | none => .raised
      | none => .value none
    | .error => .requestFailed response.errorMessage
    | .badRequest => .badRequest response.errorMessage

namespace World

variable [DecidableEq Data]

def setPhase (world : World Data Class Value) (place : Nat) (call : Call Class Value)
    (phase : Phase Value) : World Data Class Value :=
  { world with calls := world.calls.set place { call with phase } }

/-- A call that has found its response. -/
def take (world : World Data Class Value) (moshi : Moshi Data Class Value) (place : Nat)
    (call : Call Class Value) (response : Response Data) (rest : List (Response Data)) :
    World Data Class Value :=
  { world.setPhase place call (.finished (moshi.outcome call.responseClass response)) with
    responses := rest, consumed := world.consumed ++ [(place, response)] }

/-- Request ids are unique, and the server answers a request at most once. -/
def step (moshi : Moshi Data Class Value) (world : World Data Class Value) :
    Event Data Class → Option (World Data Class Value)
  | .send endpoint requestId responseClass timeout =>
    if ∀ call ∈ world.calls, call.requestId ≠ requestId then
      some { world with
        calls := world.calls ++ [{ endpoint, requestId, responseClass, timeout }] }
    else none
  | .perform place fails =>
    match world.calls[place]? with
    | some call =>
      match call.phase with
      | .sending =>
        some (world.setPhase place call (if fails then .finished .raised else .starting))
      | _ => none
    | none => none
  | .start place now =>
    match world.calls[place]? with
    | some call =>
      match call.phase with
      | .starting => some (world.setPhase place call (.testingTime now))
      | _ => none
    | none => none
  | .testTime place now =>
    match world.calls[place]? with
    | some call =>
      match call.phase with
      | .testingTime startTime =>
        some (world.setPhase place call
          (if now - startTime > call.timeout then .finished .timeout else .popping startTime))
      | _ => none
    | none => none
  | .pop place =>
    match world.calls[place]? with
    | some call =>
      match call.phase with
      | .popping startTime =>
        match RequestHandler.pop call.accepts world.responses with
        | (some response, rest) => some (world.take moshi place call response rest)
        | (none, _) => some (world.setPhase place call (.testingTime startTime))
      | _ => none
    | none => none
  | .receive response =>
    if ∀ other ∈ world.received, other.requestId ≠ response.requestId then
      some { world with
        responses := world.responses ++ [response], received := world.received ++ [response] }
    else none

end World

def machine [DecidableEq Data] (moshi : Moshi Data Class Value) :
    Machine (World Data Class Value) (Event Data Class) := ⟨World.step moshi⟩

theorem pop_eq_some {α : Type} [DecidableEq α] {predicate : α → Bool} {items rest : List α}
    {found : α} (h : pop predicate items = (some found, rest)) :
    predicate found = true ∧ (found :: rest).Perm items := by
  unfold pop at h
  split at h
  · rename_i res hfind
    cases h
    exact ⟨List.find?_some hfind, (List.perm_cons_erase (List.mem_of_find?_eq_some hfind)).symm⟩
  · cases h

/-- What holds of calls and responses at any time: a call ends with an answer
because of a response to its own request, which nobody else takes. -/
structure Matched (moshi : Moshi Data Class Value) (world : World Data Class Value) : Prop where
  answered : ∀ place call outcome, world.calls[place]? = some call →
    call.phase = .finished outcome → outcome.isAnswer = true →
    ∃ response ∈ world.received, (place, response) ∈ world.consumed ∧
      response.requestId = call.requestId ∧ response.endpoint = call.endpoint ∧
        outcome = moshi.outcome call.responseClass response
  once : ∀ first second response, (first, response) ∈ world.consumed →
    (second, response) ∈ world.consumed → first = second
  kept : (world.responses ++ world.consumed.map Prod.snd).Perm world.received
  available : ∀ response ∈ world.received, ∀ (place : Nat) (call : Call Class Value),
    world.calls[place]? = some call → response.requestId = call.requestId →
    response.endpoint = call.endpoint → (∀ outcome, call.phase ≠ .finished outcome) → response ∈ world.responses

structure Inv (moshi : Moshi Data Class Value) (world : World Data Class Value) : Prop where
  distinct : Distinct (fun _ => True) Call.requestId world.calls
  answered : ∀ place call outcome, world.calls[place]? = some call →
    call.phase = .finished outcome → outcome.isAnswer = true →
    ∃ response, (place, response) ∈ world.consumed ∧
      outcome = moshi.outcome call.responseClass response
  own : ∀ place response, (place, response) ∈ world.consumed →
    ∃ call, world.calls[place]? = some call ∧ call.accepts response = true ∧
      ∃ outcome, call.phase = .finished outcome
  kept : (world.responses ++ world.consumed.map Prod.snd).Perm world.received

theorem accepts_iff {call : Call Class Value} {response : Response Data} :
    call.accepts response = true ↔
      response.requestId = call.requestId ∧ response.endpoint = call.endpoint := by
  simp [Call.accepts]

theorem mem_received {moshi : Moshi Data Class Value} {world : World Data Class Value}
    (hinv : Inv moshi world) {place : Nat} {response : Response Data}
    (h : (place, response) ∈ world.consumed) : response ∈ world.received :=
  hinv.kept.subset (List.mem_append_right _ (List.mem_map_of_mem h))

theorem Inv.matched {moshi : Moshi Data Class Value} {world : World Data Class Value}
    (hinv : Inv moshi world) : Matched moshi world where
  answered := by
    intro place call outcome hcall hphase hanswer
    obtain ⟨response, hconsumed, houtcome⟩ := hinv.answered place call outcome hcall hphase hanswer
    obtain ⟨owner, howner, haccepts, -⟩ := hinv.own place response hconsumed
    rw [hcall] at howner
    cases howner
    obtain ⟨hid, hendpoint⟩ := accepts_iff.mp haccepts
    exact ⟨response, mem_received hinv hconsumed, hconsumed, hid, hendpoint, houtcome⟩
  once := by
    intro first second response hfirst hsecond
    obtain ⟨call, hcall, haccepts, -⟩ := hinv.own first response hfirst
    obtain ⟨other, hother, haccepts', -⟩ := hinv.own second response hsecond
    exact hinv.distinct first second call other hcall hother trivial trivial
      ((accepts_iff.mp haccepts).1.symm.trans (accepts_iff.mp haccepts').1)
  kept := hinv.kept
  available := by
    intro response hreceived place call hcall hid _ hunfinished
    rcases List.mem_append.mp (hinv.kept.mem_iff.mpr hreceived) with hthere | htaken
    · exact hthere
    · -- only the call itself could have taken it, and it has not
      obtain ⟨⟨taker, _⟩, hconsumed, rfl⟩ := List.mem_map.mp htaken
      obtain ⟨other, hother, haccepts, outcome, hphase⟩ := hinv.own taker _ hconsumed
      obtain rfl := hinv.distinct taker place other call hother hcall trivial trivial
        ((accepts_iff.mp haccepts).1.symm.trans hid)
      rw [hcall] at hother
      cases hother
      exact absurd hphase (hunfinished outcome)

section Steps

variable {moshi : Moshi Data Class Value} {world next : World Data Class Value}
  {place : Nat} {call : Call Class Value}

theorem inv_setPhase {phase : Phase Value} (hinv : Inv moshi world)
    (hcall : world.calls[place]? = some call)
    (hunfinished : ∀ outcome, call.phase ≠ .finished outcome)
    (hphase : ∀ outcome, phase = .finished outcome → outcome.isAnswer = false) :
    Inv moshi (world.setPhase place call phase) where
  distinct := hinv.distinct.set hcall id rfl
  answered := by
    intro at' found outcome hfound hfinished hanswer
    rcases lookup_set hfound with ⟨rfl, rfl⟩ | ⟨-, hold⟩
    · rw [hphase outcome hfinished] at hanswer
      cases hanswer
    · exact hinv.answered at' found outcome hold hfinished hanswer
  own := by
    intro at' response hconsumed
    obtain ⟨owner, howner, haccepts, outcome, hfinished⟩ := hinv.own at' response hconsumed
    refine ⟨owner, ?_, haccepts, outcome, hfinished⟩
    have hne : place ≠ at' := by
      rintro rfl
      rw [hcall] at howner
      cases howner
      exact hunfinished outcome hfinished
    exact (List.getElem?_set_ne hne).trans howner
  kept := hinv.kept

theorem inv_send {endpoint requestId : List Char} {responseClass : Option Class} {timeout : Int}
    (hinv : Inv moshi world) (hfresh : ∀ call ∈ world.calls, call.requestId ≠ requestId) :
    Inv moshi { world with
      calls := world.calls ++ [{ endpoint, requestId, responseClass, timeout }] } where
  distinct := hinv.distinct.concat fun call hcall _ => hfresh call hcall
  answered := by
    intro at' found outcome hfound hfinished hanswer
    rcases lookup_concat hfound with hold | ⟨-, rfl⟩
    · exact hinv.answered at' found outcome hold hfinished hanswer
    · cases hfinished
  own := by
    intro at' response hconsumed
    obtain ⟨owner, howner, haccepts, hfinished⟩ := hinv.own at' response hconsumed
    exact ⟨owner, lookup_concat_of_some howner _, haccepts, hfinished⟩
  kept := hinv.kept

variable [DecidableEq Data]

theorem inv_take {response : Response Data} {rest : List (Response Data)} (hinv : Inv moshi world)
    (hcall : world.calls[place]? = some call)
    (hunfinished : ∀ outcome, call.phase ≠ .finished outcome)
    (hpop : pop call.accepts world.responses = (some response, rest)) :
    Inv moshi (world.take moshi place call response rest) := by
  obtain ⟨haccepts, hperm⟩ := pop_eq_some hpop
  constructor
  · exact hinv.distinct.set hcall id rfl
  · intro at' found outcome hfound hfinished hanswer
    rcases lookup_set hfound with ⟨rfl, rfl⟩ | ⟨-, hold⟩
    · cases hfinished
      exact ⟨response, List.mem_append_right _ (.head _), rfl⟩
    · obtain ⟨taken, hconsumed, houtcome⟩ := hinv.answered at' found outcome hold hfinished hanswer
      exact ⟨taken, List.mem_append_left _ hconsumed, houtcome⟩
  · intro at' taken hconsumed
    rcases List.mem_append.mp hconsumed with hold | hnew
    · obtain ⟨owner, howner, haccepts', outcome, hfinished⟩ := hinv.own at' taken hold
      refine ⟨owner, ?_, haccepts', outcome, hfinished⟩
      have hne : place ≠ at' := by
        rintro rfl
        rw [hcall] at howner
        cases howner
        exact hunfinished outcome hfinished
      exact (List.getElem?_set_ne hne).trans howner
    · cases List.mem_singleton.mp hnew
      exact ⟨_, lookup_set_self hcall _, haccepts, _, rfl⟩
  · show (rest ++ (world.consumed ++ [(place, response)]).map Prod.snd).Perm world.received
    rw [List.map_append, ← List.append_assoc]
    refine List.perm_append_comm.trans (List.Perm.trans ?_ hinv.kept)
    exact hperm.append_right (world.consumed.map Prod.snd)

/-- What the steps do: a call is made, goes on or ends without an answer, or
takes a response, or a response arrives. -/
inductive Moves (moshi : Moshi Data Class Value) (world : World Data Class Value) :
    World Data Class Value → Prop
  | send {endpoint requestId : List Char} {responseClass : Option Class} {timeout : Int} :
    (∀ call ∈ world.calls, call.requestId ≠ requestId) →
    Moves moshi world { world with
      calls := world.calls ++ [{ endpoint, requestId, responseClass, timeout }] }
  | goesOn {place : Nat} {call : Call Class Value} {phase : Phase Value} :
    world.calls[place]? = some call → (∀ outcome, call.phase ≠ .finished outcome) →
    (∀ outcome, phase = .finished outcome → outcome.isAnswer = false) →
    Moves moshi world (world.setPhase place call phase)
  | takes {place : Nat} {call : Call Class Value} {response : Response Data}
      {rest : List (Response Data)} :
    world.calls[place]? = some call → (∀ outcome, call.phase ≠ .finished outcome) →
    pop call.accepts world.responses = (some response, rest) →
    Moves moshi world (world.take moshi place call response rest)
  | receives {response : Response Data} :
    Moves moshi world { world with
      responses := world.responses ++ [response], received := world.received ++ [response] }

theorem moves_of_step {event : Event Data Class} (h : (machine moshi).step world event = some next) :
    Moves moshi world next := by
  have hnone : ∀ {phase : Phase Value}, (∀ outcome, phase ≠ .finished outcome) →
      ∀ outcome, phase = .finished outcome → outcome.isAnswer = false :=
    fun hphase outcome heq => absurd heq (hphase outcome)
  cases event with
  | send endpoint requestId responseClass timeout =>
    simp only [machine, World.step] at h
    split at h <;> cases h
    exact .send (by assumption)
  | perform place fails =>
    simp only [machine, World.step] at h
    split at h
    · rename_i call hcall
      split at h <;> cases h
      rename_i hphase
      refine .goesOn hcall (by simp [hphase]) ?_
      intro outcome heq
      cases fails <;> cases heq
      rfl
    · cases h
  | start place now =>
    simp only [machine, World.step] at h
    split at h
    · rename_i call hcall
      split at h <;> cases h
      rename_i hphase
      exact .goesOn hcall (by simp [hphase]) (hnone (by simp))
    · cases h
  | testTime place now =>
    simp only [machine, World.step] at h
    split at h
    · rename_i call hcall
      split at h <;> cases h
      rename_i startTime hphase
      refine .goesOn hcall (by simp [hphase]) ?_
      intro outcome heq
      split at heq <;> cases heq
      rfl
    · cases h
  | pop place =>
    simp only [machine, World.step] at h
    split at h
    · rename_i call hcall
      split at h
      · rename_i startTime hphase
        split at h <;> cases h
        · exact .takes hcall (by simp [hphase]) (by assumption)
        · exact .goesOn hcall (by simp [hphase]) (hnone (by simp))
      · cases h
    · cases h
  | receive response =>
    simp only [machine, World.step] at h
    split at h <;> cases h
    exact .receives

theorem inv_step {event : Event Data Class} (hinv : Inv moshi world)
    (h : (machine moshi).step world event = some next) : Inv moshi next := by
  cases moves_of_step h with
  | send hfresh => exact inv_send hinv hfresh
  | goesOn hcall hunfinished hphase => exact inv_setPhase hinv hcall hunfinished hphase
  | takes hcall hunfinished hpop => exact inv_take hinv hcall hunfinished hpop
  | receives => exact ⟨hinv.distinct, hinv.answered, hinv.own, perm_concat hinv.kept _⟩

end Steps

/-- Whatever the interleaving of calls and listener, calls are answered by the
responses to their own requests. -/
theorem matched_of_reach [DecidableEq Data] {moshi : Moshi Data Class Value}
    {world : World Data Class Value}
    (run : (machine moshi).Reach Machine.anyEvent {} world) : Matched moshi world := by
  have hinv : Inv moshi world := by
    apply run.invariant (Inv moshi)
    · exact ⟨.nil, by simp, by simp, by simp⟩
    · intro state event next hstate _ hstep
      exact inv_step hstate hstep
  exact hinv.matched

/-- Two calls whose responses come in the other order. -/
def crossing : List (Event Unit Unit) :=
  let ping := ['p', 'i', 'n', 'g']
  let response (requestId : List Char) (status : ResponseStatus) : Response Unit :=
    { endpoint := ping, requestId, status, data := none, errorMessage := none }
  [.send ping ['a'] none 5000, .send ping ['b'] none 5000, .perform 0 false, .perform 1 false,
    .start 0 0, .start 1 10, .testTime 0 100, .receive (response ['b'] .error), .pop 0,
    .testTime 1 110, .testTime 0 200, .receive (response ['a'] .ok), .pop 0, .pop 1]

theorem matched_crossing :
    ∃ world : World Unit Unit Unit,
      (machine ⟨fun _ => none, fun _ _ => none⟩).exec {} crossing = some world ∧
        world.calls.map Call.phase = [.finished (.value none), .finished (.requestFailed none)] ∧
        Matched ⟨fun _ => none, fun _ _ => none⟩ world := by
  obtain ⟨world, hexec, hphases⟩ : ∃ world : World Unit Unit Unit,
      (machine ⟨fun _ => none, fun _ _ => none⟩).exec {} crossing = some world ∧
        world.calls.map Call.phase =
          [.finished (.value none), .finished (.requestFailed none)] := ⟨_, rfl, rfl⟩
  exact ⟨world, hexec, hphases, matched_of_reach (Machine.reach_of_exec hexec)⟩

end VacuumCleaner.App.RequestHandler
