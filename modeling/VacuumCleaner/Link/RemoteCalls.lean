import Mathlib.Data.List.Nodup
import VacuumCleaner.Lib.Fallible
import VacuumCleaner.Link.ResponseLines

/-! Calls of the app on the robot: from the line that a call writes, over the
threads of the service, to the value that it returns. -/
namespace VacuumCleaner.Link.RemoteCalls

open Lib Lib.Json Lib.Lookup Core.Requests Core.Responses Core.RequestHandling ResponseLines

/-- What Moshi's adapter writes of a value; `json.loads` reads it from its line. -/
structure Writer (py : Runtime) where
  toJson : Value → List Char
  loads_toJson : ∀ value, Readable py py.recursionLimit value →
    loads py (toJson value ++ ['\n']) = .ok value

/-- A request that the call at a place has written. -/
structure Sent where
  place : Nat
  endpoint : List Char
  requestId : List Char
  parameters : Option Value

/-- The app's `Request`; Moshi leaves a null out. -/
def Sent.json (sent : Sent) : Value :=
  .object ([(endpointKey, .string sent.endpoint), (requestIdKey, .string sent.requestId)] ++
    (sent.parameters.map fun parameters => (parametersKey, parameters)).toList)

/-- The same for the core. -/
def Sent.request (sent : Sent) : Request :=
  ⟨.string sent.endpoint, .string sent.requestId, sent.parameters.getD .null⟩

def Sent.line {py : Runtime} (writer : Writer py) (sent : Sent) : List Char :=
  writer.toJson sent.json ++ ['\n']

theorem parseRequest_line {py : Runtime} (writer : Writer py) {sent : Sent}
    (hreadable : Readable py py.recursionLimit sent.json) :
    parseRequest py (sent.line writer) = .ok sent.request := by
  rw [parseRequest, Sent.line, writer.loads_toJson sent.json hreadable]
  obtain ⟨place, endpoint, requestId, parameters⟩ := sent
  cases parameters <;> rfl

theorem requestsOf_lines {py : Runtime} (writer : Writer py) {written : List Sent}
    (hreadable : ∀ sent ∈ written, Readable py py.recursionLimit sent.json) :
    requestsOf py (written.map (Sent.line writer)) = written.map Sent.request := by
  induction written with
  | nil => rfl
  | cons sent written ih =>
    rw [List.forall_mem_cons] at hreadable
    have hrest := ih hreadable.2
    rw [requestsOf] at hrest ⊢
    rw [List.map_cons, List.filterMap_cons, parseRequest_line writer hreadable.1, hrest]
    rfl

theorem wellFormed_lines {py : Runtime} (writer : Writer py) {written : List Sent}
    (hreadable : ∀ sent ∈ written, Readable py py.recursionLimit sent.json) :
    WellFormed py (written.map (Sent.line writer)) := by
  intro data hdata
  obtain ⟨sent, hsent, rfl⟩ := List.mem_map.mp hdata
  exact ⟨_, parseRequest_line writer (hreadable sent hsent)⟩

/-- The calls of the app, the parameters that they were made with, by place, and the
requests that they have written; the service, and what the phone has received of
its answers. -/
structure Scene (Data Class Model : Type) where
  app : App.RequestHandler.World Data Class Model := {}
  parameters : List (Option Value) := []
  written : List Sent := []
  core : Core.Clients.World := opened
  stream : List Char := []

/-- `fail` is a call that cannot write its request, and `listen` a turn of the listener
thread. -/
inductive Event (Class : Type)
  | send (endpoint requestId : List Char) (parameters : Option Value)
    (responseClass : Option Class) (timeout : Int)
  | write (place : Nat)
  | fail (place : Nat)
  | start (place : Nat) (now : Int)
  | testTime (place : Nat) (now : Int)
  | pop (place : Nat)
  | core (event : Core.Clients.Event)
  | bring (chunk : List Char)
  | listen

/-- The connection goes down. -/
def isEnd : Core.Clients.Event → Bool
  | .leave .. | .reset .. => true
  | _ => false

namespace Scene

variable {Data Class Model : Type} [DecidableEq Data] {py : Runtime} (writer : Writer py)
  (moshi : App.RequestHandler.Moshi Data Class Model) (any : Value → Data)
  (str : Raised → List Char) (handlers : List RequestHandler)

def lines (scene : Scene Data Class Model) : List (List Char) :=
  scene.written.map (Sent.line writer)

def answers (scene : Scene Data Class Model) : List Response :=
  responses str handlers scene.core

def appStep (event : App.RequestHandler.Event Data Class) (scene : Scene Data Class Model) :
    Option (Scene Data Class Model) :=
  (scene.app.step moshi event).map fun app => { scene with app }

/-- The lines arrive in the order in which they were written; as long as the calls
go on, the connection stays. -/
def step (scene : Scene Data Class Model) : Event Class → Option (Scene Data Class Model)
  | .send endpoint requestId parameters responseClass timeout =>
    (scene.appStep moshi (.send endpoint requestId responseClass timeout)).map fun scene =>
      { scene with parameters := scene.parameters ++ [parameters] }
  | .write place =>
    match scene.app.calls[place]?, scene.parameters[place]? with
    | some call, some parameters =>
      (scene.appStep moshi (.perform place false)).map fun scene =>
        { scene with
          written := scene.written ++ [⟨place, call.endpoint, call.requestId, parameters⟩] }
    | _, _ => none
  | .fail place => scene.appStep moshi (.perform place true)
  | .start place now => scene.appStep moshi (.start place now)
  | .testTime place now => scene.appStep moshi (.testTime place now)
  | .pop place => scene.appStep moshi (.pop place)
  | .core event =>
    if onlyConnection (scene.lines writer) scene.core event ∧ isEnd event = false then
      (scene.core.step py (handlers.map (·.endpoint)) event).map fun core => { scene with core }
    else none
  | .bring chunk =>
    if scene.stream ++ chunk <+: ResponseLines.written (scene.answers str handlers) then
      some { scene with stream := scene.stream ++ chunk }
    else none
  | .listen =>
    match (BufferedReader.readLines scene.stream)[scene.app.received.length]? with
    | some line =>
      (fromJson any py line).bind fun response => scene.appStep moshi (.receive response)
    | none => none

def machine : Machine (Scene Data Class Model) (Event Class) :=
  ⟨step writer moshi any str handlers⟩

end Scene

/-! The single parties. -/

section app

variable {Data Class Model : Type} [DecidableEq Data]
  {moshi : App.RequestHandler.Moshi Data Class Model}
  {world next : App.RequestHandler.World Data Class Model}

/-- A call has gone on, and nothing has been received. -/
def Progresses (world next : App.RequestHandler.World Data Class Model) : Prop :=
  ∃ place call phase, world.calls[place]? = some call ∧ phase ≠ .sending ∧
    next.calls = world.calls.set place { call with phase } ∧ next.received = world.received

theorem progresses_perform {place : Nat} {fails : Bool}
    (hstep : world.step moshi (.perform place fails) = some next) :
    Progresses world next ∧ ∃ call, world.calls[place]? = some call ∧ call.phase = .sending ∧
      ∃ later, next.calls[place]? = some later ∧ later.phase ≠ .sending := by
  simp only [App.RequestHandler.World.step] at hstep
  split at hstep
  · rename_i call hcall
    split at hstep
    · rename_i hphase
      cases hstep
      have hlater : (if fails then .finished .raised else .starting :
          App.RequestHandler.Phase Model) ≠ .sending := by cases fails <;> simp
      exact ⟨⟨place, call, _, hcall, hlater, rfl, rfl⟩, call, hcall, hphase, _,
        lookup_set_self hcall _, hlater⟩
    · cases hstep
  · cases hstep

theorem progresses_start {place : Nat} {now : Int}
    (hstep : world.step moshi (.start place now) = some next) : Progresses world next := by
  simp only [App.RequestHandler.World.step] at hstep
  split at hstep
  · rename_i call hcall
    split at hstep
    · cases hstep
      exact ⟨place, call, _, hcall, by simp, rfl, rfl⟩
    · cases hstep
  · cases hstep

theorem progresses_testTime {place : Nat} {now : Int}
    (hstep : world.step moshi (.testTime place now) = some next) : Progresses world next := by
  simp only [App.RequestHandler.World.step] at hstep
  split at hstep
  · rename_i call hcall
    split at hstep
    · cases hstep
      exact ⟨place, call, _, hcall, by split <;> simp, rfl, rfl⟩
    · cases hstep
  · cases hstep

theorem progresses_pop {place : Nat} (hstep : world.step moshi (.pop place) = some next) :
    Progresses world next := by
  simp only [App.RequestHandler.World.step] at hstep
  split at hstep
  · rename_i call hcall
    split at hstep
    · split at hstep
      · cases hstep
        exact ⟨place, call, _, hcall, by simp, rfl, rfl⟩
      · cases hstep
        exact ⟨place, call, _, hcall, by simp, rfl, rfl⟩
    · cases hstep
  · cases hstep

end app

theorem sent_prefix_of_step {py : Runtime} {endpoints : List (List Char)}
    {world next : Core.Clients.World} {event : Core.Clients.Event}
    (hstep : world.step py endpoints event = some next) :
    world.service.sent <+: next.service.sent := by
  match event with
  | .arrive .. | .leave .. | .reset .. =>
    obtain ⟨connection, client, -, -, rfl⟩ := Core.Clients.stepClient_cases hstep (by simp)
    exact List.prefix_refl _
  | .service (.reader ..) =>
    obtain ⟨before, after, queued, raised, -, -, hservice, -⟩ := Core.Clients.stepReader_cases hstep
    rw [hservice]
    exact List.prefix_refl _
  | .service (.handler step) =>
    obtain ⟨hturn, -, -⟩ := Core.Clients.stepHandler_cases hstep
    generalize next.service = service at hturn
    cases hturn with
    | answer => exact List.prefix_append _ _
    | _ => exact List.prefix_refl _

theorem responses_prefix (str : Raised → List Char) (handlers : List RequestHandler)
    {world next : Core.Clients.World} (hsent : world.service.sent <+: next.service.sent) :
    responses str handlers world <+: responses str handlers next := by
  obtain ⟨more, hmore⟩ := hsent
  unfold responses
  rw [← hmore, List.mapIdx_append]
  exact List.prefix_append _ _

theorem respond_of_responses {py : Runtime} {lines : List (List Char)} {world : Core.Clients.World}
    (hinv : Core.Responses.Inv py lines world) {str : Raised → List Char}
    {handlers : List RequestHandler} {turn : Nat} {answer : Response}
    (hanswer : (responses str handlers world)[turn]? = some answer) :
    ∃ request, (requestsOf py lines)[turn]? = some request ∧
      answer = respond str handlers turn request := by
  obtain ⟨taken, unread, harrived, -, htaken⟩ := hinv.order
  obtain ⟨rest, hlines⟩ := hinv.arrived
  rw [responses, List.getElem?_mapIdx] at hanswer
  obtain ⟨act, hact, rfl⟩ := Option.map_eq_some_iff.mp hanswer
  refine ⟨act.received.request, ?_, rfl⟩
  have hbound : turn < (world.service.sent.map (·.received.request)).length := by
    rw [List.length_map]
    exact (List.getElem?_eq_some_iff.mp hact).1
  rw [← hlines, harrived, List.append_assoc, requestsOf_append, htaken, List.append_assoc,
    List.getElem?_append_left hbound, List.getElem?_map, hact]
  rfl

/-- What the handlers give back is written such that it can be read. -/
def GivesReadable (py : Runtime) (handlers : List RequestHandler) : Prop :=
  ∀ handler ∈ handlers, ∀ turn request attributes value,
    handler.perform turn request attributes = .ok value →
    Readable py (py.recursionLimit - 1) value

theorem sendable_respond {py : Runtime} (str : Raised → List Char) {handlers : List RequestHandler}
    (hgives : GivesReadable py handlers) (turn : Nat) {sent : Sent}
    (hreadable : Readable py py.recursionLimit sent.json) :
    Sendable py (respond str handlers turn sent.request) := by
  have hdeep : 0 < py.recursionLimit := by
    unfold Sent.json at hreadable
    generalize py.recursionLimit = depth at hreadable
    cases hreadable
    exact Nat.succ_pos _
  have hsends : ∀ response : Response, response.endpoint = .string sent.endpoint →
      response.requestId = .string sent.requestId →
      Readable py (py.recursionLimit - 1) response.data → Sendable py response := by
    intro response hendpoint hid hdata
    unfold Sendable asdict
    generalize hdepth : py.recursionLimit - 1 = depth at hdata
    obtain hlimit : py.recursionLimit = depth + 1 := by omega
    rw [hlimit, hendpoint, hid]
    have hnames : (["endpoint".toList, "request_id".toList, "status".toList, "data".toList,
        "error_message".toList]).Nodup := by decide
    refine .object hnames ?_
    simp only [List.forall_mem_cons, List.not_mem_nil, false_imp_iff, implies_true, and_true]
    refine ⟨.string, .string, .string, hdata, ?_⟩
    cases response.errorMessage
    · exact .null
    · exact .string
  have hanswers := respond_answers str handlers turn sent.request
  refine hsends _ hanswers.endpoint hanswers.requestId ?_
  unfold respond
  split
  · rename_i handler hfound
    have hhandler : handler ∈ handlers := List.mem_of_find?_eq_some hfound
    unfold performRequest
    split
    · exact .null
    · rename_i value hperform
      obtain ⟨attributes, -, hvalue⟩ := bind_ok hperform
      exact hgives handler hhandler turn _ attributes value hvalue
  · exact .null

/-! The parties together. -/

section runs

variable {Data Class Model : Type} {py : Runtime} {writer : Writer py}
  {moshi : App.RequestHandler.Moshi Data Class Model} {any : Value → Data}
  {str : Raised → List Char} {handlers : List RequestHandler} {scene next : Scene Data Class Model}

/-- A call with its parameters is what the request says, and has written it. -/
def Wrote (py : Runtime) (scene : Scene Data Class Model) (sent : Sent) : Prop :=
  ∃ call, scene.app.calls[sent.place]? = some call ∧ call.phase ≠ .sending ∧
    call.endpoint = sent.endpoint ∧ call.requestId = sent.requestId ∧
    scene.parameters[sent.place]? = some sent.parameters ∧
    Readable py py.recursionLimit sent.json

/-- The requests that the calls write can be read. -/
def AllReadable (py : Runtime) (scene : Scene Data Class Model) : Prop :=
  ∀ (place : Nat) call parameters, scene.app.calls[place]? = some call →
    scene.parameters[place]? = some parameters →
    Readable py py.recursionLimit (Sent.json ⟨place, call.endpoint, call.requestId, parameters⟩)

/-- What holds all along. The service is as with the lines that have been written so
far, whatever is written behind them; the app has received the first answers. -/
structure Consistent (writer : Writer py) (moshi : App.RequestHandler.Moshi Data Class Model)
    (any : Value → Data) (str : Raised → List Char) (handlers : List RequestHandler)
    (scene : Scene Data Class Model) : Prop where
  app : App.RequestHandler.Inv moshi scene.app
  places : scene.parameters.length = scene.app.calls.length
  readable : AllReadable py scene
  wrote : ∀ sent ∈ scene.written, Wrote py scene sent
  once : (scene.written.map Sent.place).Nodup
  core : ∀ lines, scene.lines writer <+: lines → WellFormed py lines →
    Core.Responses.Inv py lines scene.core
  stream : scene.stream <+: ResponseLines.written (scene.answers str handlers)
  received : scene.app.received.map some =
    ((scene.answers str handlers).take scene.app.received.length).map (told any)

theorem Consistent.start : Consistent writer moshi any str handlers {} where
  app := ⟨.nil, by simp, by simp, by simp⟩
  places := rfl
  readable := by simp [AllReadable]
  wrote := by simp
  once := List.nodup_nil
  core := fun lines _ _ => Core.Responses.Inv.start lines
  stream := List.nil_prefix
  received := rfl

theorem Consistent.received_le (hconsistent : Consistent writer moshi any str handlers scene) :
    scene.app.received.length ≤ (scene.answers str handlers).length := by
  have hlength := congrArg List.length hconsistent.received
  rw [List.length_map, List.length_map, List.length_take] at hlength
  omega

theorem Consistent.answer (hconsistent : Consistent writer moshi any str handlers scene)
    {turn : Nat} {answer : Response} (hanswer : (scene.answers str handlers)[turn]? = some answer) :
    ∃ sent, scene.written[turn]? = some sent ∧ Wrote py scene sent ∧
      answer = respond str handlers turn sent.request := by
  have hreadable : ∀ sent ∈ scene.written, Readable py py.recursionLimit sent.json := by
    intro sent hsent
    obtain ⟨call, -, -, -, -, -, hread⟩ := hconsistent.wrote sent hsent
    exact hread
  have hcore := hconsistent.core _ (List.prefix_refl _) (wellFormed_lines writer hreadable)
  obtain ⟨request, hrequest, hanswer⟩ := respond_of_responses hcore hanswer
  rw [Scene.lines, requestsOf_lines writer hreadable, List.getElem?_map] at hrequest
  obtain ⟨sent, hsent, rfl⟩ := Option.map_eq_some_iff.mp hrequest
  exact ⟨sent, hsent, hconsistent.wrote sent (List.mem_of_getElem? hsent), hanswer⟩

theorem told_respond (any : Value → Data) (str : Raised → List Char)
    (handlers : List RequestHandler) (turn : Nat) (sent : Sent) : ∃ response,
    told any (respond str handlers turn sent.request) = some response ∧
      response.requestId = sent.requestId ∧ response.endpoint = sent.endpoint := by
  have hanswers := respond_answers str handlers turn sent.request
  rw [told, hanswers.endpoint, hanswers.requestId]
  exact ⟨_, rfl, rfl, rfl⟩

theorem Consistent.turn_eq (hconsistent : Consistent writer moshi any str handlers scene)
    {first second : Nat} {left right : Sent} (hleft : scene.written[first]? = some left)
    (hright : scene.written[second]? = some right) (hid : left.requestId = right.requestId) :
    first = second := by
  obtain ⟨call, hcall, -, -, hown, -⟩ := hconsistent.wrote left (List.mem_of_getElem? hleft)
  obtain ⟨other, hother, -, -, hown', -⟩ := hconsistent.wrote right (List.mem_of_getElem? hright)
  have hplace : left.place = right.place := by
    refine hconsistent.app.distinct _ _ _ _ hcall hother trivial trivial ?_
    rw [hown, hown', hid]
  have hlookup : (scene.written.map Sent.place)[first]? =
      (scene.written.map Sent.place)[second]? := by
    rw [List.getElem?_map, List.getElem?_map, hleft, hright]
    exact congrArg some hplace
  have hbound : first < (scene.written.map Sent.place).length := by
    rw [List.length_map]
    exact (List.getElem?_eq_some_iff.mp hleft).1
  exact (List.getElem?_inj hbound hconsistent.once).mp hlookup

theorem Consistent.turn_of_received (hconsistent : Consistent writer moshi any str handlers scene)
    {response : App.RequestHandler.Response Data} (hreceived : response ∈ scene.app.received) :
    ∃ (turn : Nat) (sent : Sent), scene.written[turn]? = some sent ∧ Wrote py scene sent ∧
      scene.app.received[turn]? = some response ∧
      (scene.answers str handlers)[turn]? = some (respond str handlers turn sent.request) ∧
      told any (respond str handlers turn sent.request) = some response ∧
      response.requestId = sent.requestId ∧ response.endpoint = sent.endpoint := by
  obtain ⟨turn, hturn⟩ := List.mem_iff_getElem?.mp hreceived
  have hbefore : turn < scene.app.received.length := (List.getElem?_eq_some_iff.mp hturn).1
  have hlookup := congrArg (·[turn]?) hconsistent.received
  rw [List.getElem?_map, hturn, List.getElem?_map, List.getElem?_take, if_pos hbefore] at hlookup
  obtain ⟨answer, hanswer, htold⟩ := Option.map_eq_some_iff.mp hlookup.symm
  obtain ⟨sent, hsent, hwrote, rfl⟩ := hconsistent.answer hanswer
  obtain ⟨same, hsame, hnamed⟩ := told_respond any str handlers turn sent
  obtain rfl : response = same := Option.some.inj (htold.symm.trans hsame)
  exact ⟨turn, sent, hsent, hwrote, hturn, hanswer, htold, hnamed⟩

theorem Consistent.nodup_ids (hconsistent : Consistent writer moshi any str handlers scene) :
    ((scene.answers str handlers).map (·.requestId)).Nodup := by
  rw [List.nodup_iff_getElem?_ne_getElem?]
  intro first second hbefore hbound hsame
  rw [List.length_map] at hbound
  rw [List.getElem?_map, List.getElem?_map, List.getElem?_eq_getElem (hbefore.trans hbound),
    List.getElem?_eq_getElem hbound] at hsame
  obtain ⟨left, hleft, -, hanswer⟩ :=
    hconsistent.answer (List.getElem?_eq_getElem (hbefore.trans hbound))
  obtain ⟨right, hright, -, hanswer'⟩ := hconsistent.answer (List.getElem?_eq_getElem hbound)
  have hid := Option.some.inj hsame
  dsimp only at hid
  rw [hanswer, hanswer', (respond_answers str handlers first left.request).requestId,
    (respond_answers str handlers second right.request).requestId] at hid
  have hequal := hconsistent.turn_eq hleft hright (Value.string.inj hid)
  omega

theorem Consistent.readLines (hconsistent : Consistent writer moshi any str handlers scene)
    (hgives : GivesReadable py handlers) :
    scene.stream.count '\n' ≤ (scene.answers str handlers).length ∧
      BufferedReader.readLines scene.stream =
        ((scene.answers str handlers).take (scene.stream.count '\n')).map responseJson := by
  have hanswers : ∀ answer ∈ scene.answers str handlers, Sendable py answer := by
    intro answer hanswer
    obtain ⟨turn, hturn⟩ := List.mem_iff_getElem?.mp hanswer
    obtain ⟨sent, -, ⟨call, -, -, -, -, -, hread⟩, rfl⟩ := hconsistent.answer hturn
    exact sendable_respond str hgives turn hread
  exact readLines_written hanswers hconsistent.stream

theorem Consistent.next_line (hconsistent : Consistent writer moshi any str handlers scene)
    (hgives : GivesReadable py handlers) {line : List Char}
    (hline : (BufferedReader.readLines scene.stream)[scene.app.received.length]? = some line) :
    ∃ answer, (scene.answers str handlers)[scene.app.received.length]? = some answer ∧
      fromJson any py line = told any answer := by
  rw [(hconsistent.readLines hgives).2, List.getElem?_map] at hline
  obtain ⟨answer, hanswer, rfl⟩ := Option.map_eq_some_iff.mp hline
  rw [List.getElem?_take, Option.ite_none_right_eq_some] at hanswer
  obtain ⟨sent, -, ⟨call, -, -, -, -, -, hread⟩, rfl⟩ := hconsistent.answer hanswer.2
  exact ⟨_, hanswer.2, fromJson_responseJson any (sendable_respond str hgives _ hread)⟩

theorem Progresses.lookup {world after : App.RequestHandler.World Data Class Model}
    (hprogresses : Progresses world after) {place : Nat}
    {call : App.RequestHandler.Call Class Model}
    (hcall : after.calls[place]? = some call) : ∃ old, world.calls[place]? = some old ∧
      old.endpoint = call.endpoint ∧ old.requestId = call.requestId := by
  obtain ⟨at', old, phase, hold, -, hcalls, -⟩ := hprogresses
  rw [hcalls] at hcall
  obtain ⟨rfl, rfl⟩ | ⟨-, hsame⟩ := lookup_set hcall
  · exact ⟨old, hold, rfl, rfl⟩
  · exact ⟨call, hsame, rfl, rfl⟩

theorem Wrote.progress {sent : Sent} (hwrote : Wrote py scene sent)
    {app : App.RequestHandler.World Data Class Model} (hprogresses : Progresses scene.app app) :
    Wrote py { scene with app } sent := by
  obtain ⟨call, hcall, hphase, hendpoint, hid, hparameters, hreadable⟩ := hwrote
  obtain ⟨place, old, phase, hold, hlater, hcalls, -⟩ := hprogresses
  by_cases hplace : place = sent.place
  · subst hplace
    obtain rfl : old = call := Option.some.inj (hold.symm.trans hcall)
    exact ⟨_, (congrArg (·[sent.place]?) hcalls).trans (lookup_set_self hold _), hlater, hendpoint,
      hid, hparameters, hreadable⟩
  · refine ⟨call, ?_, hphase, hendpoint, hid, hparameters, hreadable⟩
    exact (congrArg (·[sent.place]?) hcalls).trans ((List.getElem?_set_ne hplace).trans hcall)

theorem Consistent.own (hconsistent : Consistent writer moshi any str handlers scene)
    {response : App.RequestHandler.Response Data} (hreceived : response ∈ scene.app.received)
    {place : Nat} {call : App.RequestHandler.Call Class Model}
    (hcall : scene.app.calls[place]? = some call) (hid : response.requestId = call.requestId) :
    ∃ parameters turn answer, scene.parameters[place]? = some parameters ∧
      (scene.answers str handlers)[turn]? = some answer ∧
      Answers handlers turn ⟨.string call.endpoint, .string call.requestId,
        parameters.getD .null⟩ answer ∧
      told any answer = some response ∧ response.endpoint = call.endpoint := by
  obtain ⟨turn, sent, -, ⟨other, hother, -, hendpoint, hown, hparameters, -⟩, -, hanswer, htold,
    hnamed, hthere⟩ := hconsistent.turn_of_received hreceived
  have hplace : sent.place = place := by
    refine hconsistent.app.distinct _ _ _ _ hother hcall trivial trivial ?_
    rw [hown, ← hnamed, hid]
  subst hplace
  obtain rfl : other = call := Option.some.inj (hother.symm.trans hcall)
  rw [hendpoint, hown]
  exact ⟨sent.parameters, turn, _, hparameters, hanswer,
    respond_answers str handlers turn sent.request, htold, hthere⟩

theorem Consistent.same_response (hconsistent : Consistent writer moshi any str handlers scene)
    {first second : App.RequestHandler.Response Data} (hfirst : first ∈ scene.app.received)
    (hsecond : second ∈ scene.app.received) (hid : first.requestId = second.requestId) :
    first = second := by
  obtain ⟨turn, sent, hsent, -, hturn, -, -, hnamed, -⟩ := hconsistent.turn_of_received hfirst
  obtain ⟨turn', sent', hsent', -, hturn', -, -, hnamed', -⟩ := hconsistent.turn_of_received hsecond
  obtain rfl := hconsistent.turn_eq hsent hsent' (by rw [← hnamed, hid, hnamed'])
  exact Option.some.inj (hturn.symm.trans hturn')

variable [DecidableEq Data]

theorem Consistent.progress (hconsistent : Consistent writer moshi any str handlers scene)
    {event : App.RequestHandler.Event Data Class} {app : App.RequestHandler.World Data Class Model}
    (hstep : scene.app.step moshi event = some app) (hprogresses : Progresses scene.app app) :
    Consistent writer moshi any str handlers { scene with app } := by
  obtain ⟨place, call, phase, -, -, hcalls, hreceived⟩ := id hprogresses
  exact {
    app := App.RequestHandler.inv_step hconsistent.app hstep
    places := by
      rw [hconsistent.places, hcalls, List.length_set]
    readable := by
      intro at' found parameters hfound hparameters
      obtain ⟨old, hold, hendpoint, hid⟩ := hprogresses.lookup hfound
      rw [← hendpoint, ← hid]
      exact hconsistent.readable at' old parameters hold hparameters
    wrote := fun sent hsent => (hconsistent.wrote sent hsent).progress hprogresses
    once := hconsistent.once
    core := hconsistent.core
    stream := hconsistent.stream
    received := by
      have hsame := hconsistent.received
      rw [← hreceived] at hsame
      exact hsame }

theorem Consistent.send (hconsistent : Consistent writer moshi any str handlers scene)
    {endpoint requestId : List Char} {parameters : Option Value} {responseClass : Option Class}
    {timeout : Int}
    (hreadable : ∀ place, Readable py py.recursionLimit
      (Sent.json ⟨place, endpoint, requestId, parameters⟩))
    (hstep : scene.step writer moshi any str handlers
      (.send endpoint requestId parameters responseClass timeout) = some next) :
    Consistent writer moshi any str handlers next := by
  obtain ⟨made, hmade, rfl⟩ := Option.map_eq_some_iff.mp hstep
  obtain ⟨app, happ, rfl⟩ := Option.map_eq_some_iff.mp hmade
  have hmachine : (App.RequestHandler.machine moshi).step scene.app
      (.send endpoint requestId responseClass timeout) = some app := happ
  have hinv := App.RequestHandler.inv_step hconsistent.app hmachine
  rw [App.RequestHandler.World.step, Option.ite_none_right_eq_some] at happ
  obtain ⟨hfresh, happ⟩ := happ
  cases happ
  exact {
    app := hinv
    places := by simp [hconsistent.places]
    readable := by
      intro place call found hcall hfound
      obtain hcall | ⟨hplace, rfl⟩ := lookup_concat hcall
      · obtain hfound | ⟨hplace, -⟩ := lookup_concat hfound
        · exact hconsistent.readable place call found hcall hfound
        · have hbound := (List.getElem?_eq_some_iff.mp hcall).1
          rw [hconsistent.places] at hplace
          omega
      · obtain hfound | ⟨-, rfl⟩ := lookup_concat hfound
        · have hbound := (List.getElem?_eq_some_iff.mp hfound).1
          rw [hconsistent.places] at hbound
          omega
        · exact hreadable place
    wrote := by
      intro sent hsent
      obtain ⟨call, hcall, hphase, hendpoint, hid, hparameters, hread⟩ :=
        hconsistent.wrote sent hsent
      exact ⟨call, lookup_concat_of_some hcall _, hphase, hendpoint, hid,
        lookup_concat_of_some hparameters _, hread⟩
    once := hconsistent.once
    core := hconsistent.core
    stream := hconsistent.stream
    received := hconsistent.received }

theorem Consistent.write (hconsistent : Consistent writer moshi any str handlers scene) {place : Nat}
    (hstep : scene.step writer moshi any str handlers (.write place) = some next) :
    Consistent writer moshi any str handlers next := by
  rw [Scene.step] at hstep
  split at hstep
  · rename_i call parameters hcall hparameters
    obtain ⟨performed, hperformed, rfl⟩ := Option.map_eq_some_iff.mp hstep
    obtain ⟨app, happ, rfl⟩ := Option.map_eq_some_iff.mp hperformed
    obtain ⟨hprogresses, old, hold, hsending, later, hlater, hphase⟩ := progresses_perform happ
    have hnext := hconsistent.progress happ hprogresses
    obtain ⟨same, hsame, hendpoint, hid⟩ := hprogresses.lookup hlater
    obtain rfl : same = call := Option.some.inj (hsame.symm.trans hcall)
    exact {
      app := hnext.app
      places := hnext.places
      readable := hnext.readable
      wrote := by
        intro sent hsent
        obtain hsent | hsent := List.mem_append.mp hsent
        · exact hnext.wrote sent hsent
        · obtain rfl := List.mem_singleton.mp hsent
          exact ⟨later, hlater, hphase, hendpoint.symm, hid.symm, hparameters,
            hconsistent.readable place same parameters hcall hparameters⟩
      once := by
        rw [List.map_append, List.nodup_append]
        refine ⟨hconsistent.once, by simp, ?_⟩
        intro first hfirst second hsecond
        obtain rfl := List.mem_singleton.mp hsecond
        rintro rfl
        obtain ⟨sent, hsent, hplace⟩ := List.mem_map.mp hfirst
        obtain ⟨other, hother, hdone, -⟩ := hconsistent.wrote sent hsent
        rw [hplace, hold] at hother
        exact hdone (Option.some.inj hother ▸ hsending)
      core := by
        intro lines hlines
        refine hconsistent.core lines (List.IsPrefix.trans ?_ hlines)
        rw [Scene.lines, Scene.lines, List.map_append]
        exact List.prefix_append _ _
      stream := hnext.stream
      received := hnext.received }
  · cases hstep

theorem Consistent.coreStep (hconsistent : Consistent writer moshi any str handlers scene)
    {event : Core.Clients.Event}
    (hstep : scene.step writer moshi any str handlers (.core event) = some next) :
    Consistent writer moshi any str handlers next := by
  rw [Scene.step, Option.ite_none_right_eq_some] at hstep
  obtain ⟨⟨hguard, hend⟩, hstep⟩ := hstep
  obtain ⟨core, hcore, rfl⟩ := Option.map_eq_some_iff.mp hstep
  have hanswers := responses_prefix str handlers (sent_prefix_of_step hcore)
  exact {
    app := hconsistent.app
    places := hconsistent.places
    readable := hconsistent.readable
    wrote := hconsistent.wrote
    once := hconsistent.once
    core := by
      intro lines hlines hformed
      refine (hconsistent.core lines hlines hformed).step hformed ?_ hcore
      match event with
      | .arrive connection data =>
        obtain ⟨more, rfl⟩ := hlines
        exact ⟨hguard.1, List.getElem?_append_left
          (List.getElem?_eq_some_iff.mp hguard.2).1 ▸ hguard.2⟩
      | .leave .. | .reset .. => cases hend
      | .service (.handler .accept) => exact hguard
      | .service (.handler .makefile) | .service (.handler .reset) | .service (.handler .spawn)
      | .service (.handler .test) | .service (.handler .poll) | .service (.handler .perform)
      | .service (.handler (.send _)) | .service (.reader ..) => trivial
    stream := by
      refine hconsistent.stream.trans ?_
      obtain ⟨more, hmore⟩ := hanswers
      rw [Scene.answers, Scene.answers, ← hmore, ResponseLines.written, ResponseLines.written,
        List.flatMap_append]
      exact List.prefix_append _ _
    received := by
      have hbound := hconsistent.received_le
      obtain ⟨more, hmore⟩ := hanswers
      refine hconsistent.received.trans ?_
      unfold Scene.answers at hbound ⊢
      dsimp only
      rw [← hmore, List.take_append_of_le_length hbound] }

theorem Consistent.listen (hconsistent : Consistent writer moshi any str handlers scene)
    (hgives : GivesReadable py handlers)
    (hstep : scene.step writer moshi any str handlers .listen = some next) :
    Consistent writer moshi any str handlers next := by
  rw [Scene.step] at hstep
  split at hstep
  · rename_i line hline
    obtain ⟨response, hresponse, hstep⟩ := Option.bind_eq_some_iff.mp hstep
    obtain ⟨app, happ, rfl⟩ := Option.map_eq_some_iff.mp hstep
    obtain ⟨answer, hanswer, htold⟩ := hconsistent.next_line hgives hline
    have hmachine : (App.RequestHandler.machine moshi).step scene.app (.receive response) =
        some app := happ
    have hinv := App.RequestHandler.inv_step hconsistent.app hmachine
    rw [App.RequestHandler.World.step, Option.ite_none_right_eq_some] at happ
    obtain ⟨-, happ⟩ := happ
    cases happ
    exact {
      app := hinv
      places := hconsistent.places
      readable := hconsistent.readable
      wrote := hconsistent.wrote
      once := hconsistent.once
      core := hconsistent.core
      stream := hconsistent.stream
      received := by
        have hold := hconsistent.received
        unfold Scene.answers at hold hanswer ⊢
        dsimp only
        rw [List.map_append, hold, List.length_append, List.length_singleton,
          List.take_add_one, hanswer, List.map_append, List.map_singleton, Option.toList_some,
          List.map_singleton, ← htold, hresponse] }
  · cases hstep

/-- The listener gets on: what it reads is an answer to a request of its own, and
none that has come before. -/
theorem Consistent.listens (hconsistent : Consistent writer moshi any str handlers scene)
    (hgives : GivesReadable py handlers)
    (hwhole : scene.app.received.length < scene.stream.count '\n') :
    (scene.step writer moshi any str handlers .listen).isSome = true := by
  obtain ⟨hcount, hlines⟩ := hconsistent.readLines hgives
  obtain ⟨line, hline⟩ : ∃ line,
      (BufferedReader.readLines scene.stream)[scene.app.received.length]? = some line := by
    refine ⟨_, List.getElem?_eq_getElem ?_⟩
    rw [hlines, List.length_map, List.length_take]
    omega
  obtain ⟨answer, hanswer, htold⟩ := hconsistent.next_line hgives hline
  obtain ⟨sent, hsent, -, rfl⟩ := hconsistent.answer hanswer
  obtain ⟨response, hresponse, hid, -⟩ :=
    told_respond any str handlers scene.app.received.length sent
  have hfresh : ∀ other ∈ scene.app.received, other.requestId ≠ response.requestId := by
    intro other hother hsame
    obtain ⟨turn, wrote, hwrote, -, hturn, -, -, hid', -⟩ := hconsistent.turn_of_received hother
    have hbefore : turn < scene.app.received.length := (List.getElem?_eq_some_iff.mp hturn).1
    have hequal := hconsistent.turn_eq hwrote hsent (by rw [← hid', hsame, hid])
    omega
  rw [Scene.step, hline]
  dsimp only
  rw [htold, hresponse, Option.bind_some, Scene.appStep, App.RequestHandler.World.step,
    if_pos hfresh]
  rfl

theorem Consistent.pops (hconsistent : Consistent writer moshi any str handlers scene)
    {place : Nat} {call : App.RequestHandler.Call Class Model} {startTime : Int}
    {response : App.RequestHandler.Response Data}
    (hcall : scene.app.calls[place]? = some call) (hphase : call.phase = .popping startTime)
    (hreceived : response ∈ scene.app.received) (hid : response.requestId = call.requestId) :
    ∃ later, scene.step writer moshi any str handlers (.pop place) = some later ∧
      later.app.calls[place]? =
        some { call with phase := .finished (moshi.outcome call.responseClass response) } := by
  obtain ⟨-, -, -, -, -, -, -, hendpoint⟩ := hconsistent.own hreceived hcall hid
  have hthere : response ∈ scene.app.responses :=
    hconsistent.app.matched.available response hreceived place call hcall hid hendpoint
      (by simp [hphase])
  obtain ⟨found, hfound⟩ : ∃ found, scene.app.responses.find? call.accepts = some found := by
    refine Option.isSome_iff_exists.mp (List.find?_isSome.mpr ⟨response, hthere, ?_⟩)
    exact App.RequestHandler.accepts_iff.mpr ⟨hid, hendpoint⟩
  have hsame : found = response := by
    have haccepts := App.RequestHandler.accepts_iff.mp (List.find?_some hfound)
    refine hconsistent.same_response ?_ hreceived (haccepts.1.trans hid.symm)
    exact hconsistent.app.kept.subset
      (List.mem_append_left _ (List.mem_of_find?_eq_some hfound))
  subst hsame
  refine ⟨{ scene with
    app := scene.app.take moshi place call found (scene.app.responses.erase found) }, ?_, ?_⟩
  · rw [Scene.step, Scene.appStep, App.RequestHandler.World.step]
    simp only [hcall, hphase, App.RequestHandler.pop, hfound, Option.map_some]
  · exact lookup_set_self hcall _

/-- The requests of a run are such as the core can read. -/
def Asks (py : Runtime) (_ : Scene Data Class Model) : Event Class → Prop
  | .send endpoint requestId parameters _ _ =>
    Readable py py.recursionLimit (Sent.json ⟨0, endpoint, requestId, parameters⟩)
  | _ => True

theorem Consistent.step (hconsistent : Consistent writer moshi any str handlers scene)
    (hgives : GivesReadable py handlers) {event : Event Class} (hasks : Asks py scene event)
    (hstep : (Scene.machine writer moshi any str handlers).step scene event = some next) :
    Consistent writer moshi any str handlers next := by
  cases event with
  | send endpoint requestId parameters responseClass timeout =>
    exact hconsistent.send (fun _ => hasks) hstep
  | write place => exact hconsistent.write hstep
  | fail place =>
    obtain ⟨app, happ, rfl⟩ := Option.map_eq_some_iff.mp hstep
    exact hconsistent.progress happ (progresses_perform happ).1
  | start place now =>
    obtain ⟨app, happ, rfl⟩ := Option.map_eq_some_iff.mp hstep
    exact hconsistent.progress happ (progresses_start happ)
  | testTime place now =>
    obtain ⟨app, happ, rfl⟩ := Option.map_eq_some_iff.mp hstep
    exact hconsistent.progress happ (progresses_testTime happ)
  | pop place =>
    obtain ⟨app, happ, rfl⟩ := Option.map_eq_some_iff.mp hstep
    exact hconsistent.progress happ (progresses_pop happ)
  | core event => exact hconsistent.coreStep hstep
  | bring chunk =>
    have hbring : scene.step writer moshi any str handlers (.bring chunk) = some next := hstep
    rw [Scene.step, Option.ite_none_right_eq_some] at hbring
    obtain ⟨hstream, hnext⟩ := hbring
    cases hnext
    exact { hconsistent with stream := hstream }
  | listen => exact hconsistent.listen hgives hstep

theorem Consistent.run (hgives : GivesReadable py handlers)
    (hrun : (Scene.machine writer moshi any str handlers).Reach (Asks py) {} scene) :
    Consistent writer moshi any str handlers scene :=
  hrun.invariant _ .start fun _ _ _ hconsistent hasks hstep =>
    hconsistent.step hgives hasks hstep

end runs

/-- What the app can rely on. A call that comes back with an answer has that of the
handler of its own request; an id is answered once; the listener takes every whole
line; and a call that looks when its answer has come has it. -/
structure Answered {Data Class Model : Type} [DecidableEq Data] {py : Runtime} (writer : Writer py)
    (moshi : App.RequestHandler.Moshi Data Class Model) (any : Value → Data)
    (str : Raised → List Char) (handlers : List RequestHandler) (scene : Scene Data Class Model) :
    Prop where
  own : ∀ (place : Nat) (call : App.RequestHandler.Call Class Model) outcome,
    scene.app.calls[place]? = some call → call.phase = .finished outcome →
    outcome.isAnswer = true →
    ∃ parameters turn answer response, scene.parameters[place]? = some parameters ∧
      (scene.answers str handlers)[turn]? = some answer ∧
      Answers handlers turn ⟨.string call.endpoint, .string call.requestId,
        parameters.getD .null⟩ answer ∧
      told any answer = some response ∧ outcome = moshi.outcome call.responseClass response
  once : ((scene.answers str handlers).map (·.requestId)).Nodup
  listens : scene.app.received.length < scene.stream.count '\n' →
    (scene.step writer moshi any str handlers .listen).isSome = true
  found : ∀ (place : Nat) (call : App.RequestHandler.Call Class Model) startTime,
    scene.app.calls[place]? = some call → call.phase = .popping startTime →
    ∀ response ∈ scene.app.received, response.requestId = call.requestId →
    ∃ later, scene.step writer moshi any str handlers (.pop place) = some later ∧
      later.app.calls[place]? =
        some { call with phase := .finished (moshi.outcome call.responseClass response) }

/-- However the calls, the threads of the service and what lies between them
interleave. -/
theorem calls_answered {Data Class Model : Type} [DecidableEq Data] {py : Runtime}
    (writer : Writer py) (moshi : App.RequestHandler.Moshi Data Class Model) (any : Value → Data)
    (str : Raised → List Char) (handlers : List RequestHandler) {scene : Scene Data Class Model}
    (hgives : GivesReadable py handlers)
    (hrun : (Scene.machine writer moshi any str handlers).Reach (Asks py) {} scene) :
    Answered writer moshi any str handlers scene where
  own := by
    have hconsistent := Consistent.run hgives hrun
    intro place call outcome hcall hphase hanswered
    obtain ⟨response, hreceived, -, hid, -, houtcome⟩ :=
      hconsistent.app.matched.answered place call outcome hcall hphase hanswered
    obtain ⟨parameters, turn, answer, hparameters, hanswer, hanswers, htold, -⟩ :=
      hconsistent.own hreceived hcall hid
    exact ⟨parameters, turn, answer, response, hparameters, hanswer, hanswers, htold, houtcome⟩
  once := (Consistent.run hgives hrun).nodup_ids
  listens := (Consistent.run hgives hrun).listens hgives
  found _ _ _ hcall hphase _ hreceived hid :=
    (Consistent.run hgives hrun).pops hcall hphase hreceived hid

/-- A writer as the core's own. -/
def lineWriter (py : Runtime) : Writer py where
  toJson := dumpsLine
  loads_toJson _ hreadable := loads_dumpsLine_append hreadable (by simp [EndsNumeral]) rfl

/-- Succeeds at its first turn only. -/
def ping : RequestHandler where
  endpoint := ['p']
  requestModel := none
  perform turn _ _ := if turn = 0 then .ok .null else .error .typeError

def pingSent (place : Nat) (requestId : Char) : Sent := ⟨place, ['p'], [requestId], none⟩

def pingLine (requestId : Char) : List Char :=
  (pingSent 0 requestId).line (lineWriter exactRuntime)

def isPlain {Class : Type} : Event Class → Bool
  | .send _ _ parameters _ _ => parameters.isNone
  | _ => true

theorem guarded_asks {Data Class Model : Type} {py : Runtime}
    {machine : Machine (Scene Data Class Model) (Event Class)} {scene : Scene Data Class Model}
    (hdeep : 0 < py.recursionLimit) {events : List (Event Class)}
    (hplain : ∀ event ∈ events, isPlain event = true) :
    machine.Guarded (Asks py) scene events := by
  induction events generalizing scene with
  | nil => trivial
  | cons event events ih =>
    rw [List.forall_mem_cons] at hplain
    refine ⟨?_, fun next _ => ih hplain.2⟩
    cases event with
    | send endpoint requestId parameters responseClass timeout =>
      obtain rfl : parameters = none := Option.isNone_iff_eq_none.mp hplain.1
      obtain ⟨depth, hdepth⟩ := Nat.exists_eq_add_of_le' hdeep
      have hnames : [endpointKey, requestIdKey].Nodup := by decide
      rw [Asks, hdepth]
      refine .object hnames ?_
      simp only [Option.map_none, Option.toList_none, List.append_nil, List.forall_mem_cons,
        List.not_mem_nil, false_imp_iff, implies_true, and_true]
      exact ⟨.string, .string⟩
    | _ => trivial

theorem gives_ping : GivesReadable exactRuntime [ping] := by
  intro handler hhandler turn request attributes value hvalue
  obtain rfl := List.mem_singleton.mp hhandler
  unfold ping at hvalue
  dsimp only at hvalue
  split at hvalue <;> cases hvalue
  exact .null

/-- Two calls, whose requests and answers cross. -/
def crossingCalls : List (Event Unit) :=
  let service (steps : List Core.Service.Event) : List (Event Unit) :=
    steps.map fun step => .core (.service step)
  let first : Response := { endpoint := .string ['p'], requestId := .string ['b'], status := .ok }
  let second : Response := { endpoint := .string ['p'], requestId := .string ['a'],
                             status := .error, errorMessage := some [] }
  [.send ['p'] ['a'] none none 5000, .send ['p'] ['b'] none none 5000, .write 1, .start 1 0,
    .testTime 1 10, .core (.arrive 1 (pingLine 'b'))] ++
  service [.handler .reset, .handler .spawn, .reader 0 .test, .handler .test, .reader 0 .call,
    .reader 0 (.line (pingLine 'b')), .handler .poll, .reader 0 .parse, .handler .test] ++
  [.write 0, .start 0 20, .core (.arrive 1 (pingLine 'a'))] ++
  service [.handler .poll, .reader 0 .test, .reader 0 .call, .reader 0 (.line (pingLine 'a')),
    .handler .perform, .reader 0 .parse, .handler (.send false), .handler .test, .handler .poll,
    .handler .perform, .handler (.send false)] ++
  [.bring (ResponseLines.written [first] ++ ['{']), .testTime 0 30, .listen, .pop 0,
    .bring ((responseJson second).tail ++ ['\n']), .listen, .pop 1, .testTime 0 40, .pop 0]

theorem calls_answered_crossing : ∃ scene : Scene Unit Unit Unit,
    scene.app.calls.map (·.phase) = [.finished (.requestFailed (some [])), .finished (.value none)] ∧
      Answered (lineWriter exactRuntime) ⟨fun _ => none, fun _ _ => none⟩ (fun _ => ())
        (fun _ => []) [ping] scene := by
  let moshi : App.RequestHandler.Moshi Unit Unit Unit := ⟨fun _ => none, fun _ _ => none⟩
  let machine := Scene.machine (lineWriter exactRuntime) moshi (fun _ => ()) (fun _ => []) [ping]
  have hexec : (machine.exec {} crossingCalls).map (fun scene => scene.app.calls.map (·.phase)) =
      some [.finished (.requestFailed (some [])), .finished (.value none)] := by decide +kernel
  obtain ⟨scene, hscene, hphases⟩ := Option.map_eq_some_iff.mp hexec
  have hguard : machine.Guarded (Asks exactRuntime) {} crossingCalls :=
    guarded_asks (by decide) (by decide)
  exact ⟨scene, hphases, calls_answered (lineWriter exactRuntime) moshi (fun _ => ())
    (fun _ => []) [ping] gives_ping (Machine.reach_of_exec_guarded hguard hscene)⟩

end VacuumCleaner.Link.RemoteCalls
