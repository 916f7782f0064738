import VacuumCleaner.Core.Requests
import Mathlib.Data.List.Infix

/-! What `RequestHandlerService` answers to one request: the parameters are
parsed against the handler's model, the handler is called, and each outcome has
a status of its own. -/
namespace VacuumCleaner.Core.RequestHandling

open Lib.Json Requests

/-- The exceptions that `_perform_request` catches. -/
inductive Raised
  | requiredFieldIsNotFound (field : List Char) (requestData : Value)
  | invalidRequestData (message : List Char)
  | typeError
  | attributeError
  | other (message : List Char)

/-! A request model lists its fields under the names of the class's variables;
a field may hold a list of objects that have a model themselves. -/

mutual

inductive FieldType
  | any
  | conversion (convert : Value → Except Raised Value)
  | listType (valueType : RequestModel)

inductive RequestModel
  | nil
  | field (refFieldName name : List Char) (type : FieldType) (isRequired : Bool)
    (rest : RequestModel)

end

inductive Attribute
  | value (value : Value)
  | holders (holders : List (List (List Char × Attribute)))

abbrev AttributeHolder := List (List Char × Attribute)

/-- `name in data`: only containers can be searched. -/
def isIn (name : List Char) : Value → Except Raised Bool
  | .object members => .ok (getItem name members).isSome
  | .array items => .ok (items.any fun item =>
      match item with
      | .string text => text == name
      | _ => false)
  | .string text => .ok (decide (name <:+: text))
  | _ => .error .typeError

/-- `data.get(name)`. -/
def get (name : List Char) : Value → Except Raised Value
  | .object members => .ok ((getItem name members).getD .null)
  | _ => .error .attributeError

/-- The values that a `for` goes through. -/
def iterate : Value → Except Raised (List Value)
  | .array items => .ok items
  | .object members => .ok (members.map fun member => .string member.1)
  | .string text => .ok (text.map fun c => .string [c])
  | _ => .error .typeError

mutual

def parseFields : RequestModel → Value → Except Raised AttributeHolder
  | .nil, _ => .ok []
  | .field refFieldName name type isRequired rest, data => do
    if isRequired then
      if !(← isIn name data) then throw (.requiredFieldIsNotFound name data)
    let parameter ← parseField type name data
    let attributes ← parseFields rest data
    return (refFieldName, parameter) :: attributes

def parseField : FieldType → List Char → Value → Except Raised Attribute
  | .any, name, data => do return .value (← get name data)
  | .conversion convert, name, data => do return .value (← convert (← get name data))
  | .listType valueType, name, data => do
    let items ← iterate (← get name data)
    return .holders (← items.mapM (parseFields valueType))

end

/-- `turn` is the number of requests handled before: what a handler does may
depend on all that has happened until then. -/
structure RequestHandler where
  endpoint : List Char
  requestModel : Option RequestModel
  perform : (turn : Nat) → Request → AttributeHolder → Except Raised Value

def parseRequestParameters (requestModel : Option RequestModel) (parameters : Value) :
    Except Raised AttributeHolder :=
  match requestModel with
  | some requestModel => parseFields requestModel parameters
  | none =>
    if parameters.isTruthy then
      .error (.invalidRequestData "This endpoint does not require parameters".toList)
    else .ok []

inductive Status
  | ok | error | badRequest
  deriving DecidableEq, Repr

structure Response where
  endpoint : Value
  requestId : Value
  status : Status
  data : Value := .null
  errorMessage : Option (List Char) := none

/-! `str` gives the text of an exception. -/

variable (str : Raised → List Char) (handlers : List RequestHandler) (turn : Nat)
  (request : Request)

def findCorrespondingHandler : Option RequestHandler :=
  handlers.find? fun handler =>
    match request.endpoint with
    | .string endpoint => handler.endpoint == endpoint
    | _ => false

def successfulResult (responseData : Value) : Response where
  endpoint := request.endpoint
  requestId := request.requestId
  status := .ok
  data := responseData

def errorResult (error : List Char) (badRequest : Bool) : Response where
  endpoint := request.endpoint
  requestId := request.requestId
  status := if badRequest then .badRequest else .error
  errorMessage := some error

/-- The `try` block of `_perform_request`. -/
def tryPerform (handler : RequestHandler) : Except Raised Value := do
  let requestParameters ← parseRequestParameters handler.requestModel request.parameters
  handler.perform turn request requestParameters

def performRequest (handler : RequestHandler) : Response :=
  match tryPerform turn request handler with
  | .error error => errorResult request (str error) false
  | .ok response => successfulResult request response

/-- One turn of `_keep_handling_incoming_requests` with a request. -/
def respond : Response :=
  match findCorrespondingHandler handlers request with
  | some handler => performRequest str turn request handler
  | none => errorResult request "Wrong endpoint".toList true

/-- The handler found for an endpoint. -/
def IsFor (request : Request) (handler : RequestHandler) : Prop :=
  request.endpoint = .string handler.endpoint

/-- What a response says about its request: whose it is, and by its status how
the request came out. -/
structure Answers (response : Response) : Prop where
  endpoint : response.endpoint = request.endpoint
  requestId : response.requestId = request.requestId
  badRequest : response.status = .badRequest ↔ ∀ handler ∈ handlers, ¬ IsFor request handler
  error : response.status = .error ↔
    ∃ handler, findCorrespondingHandler handlers request = some handler ∧
      ((∃ error, parseRequestParameters handler.requestModel request.parameters = .error error) ∨
        ∃ attributes error,
          parseRequestParameters handler.requestModel request.parameters = .ok attributes ∧
          handler.perform turn request attributes = .error error)
  ok : response.status = .ok ↔
    ∃ handler attributes, findCorrespondingHandler handlers request = some handler ∧
      parseRequestParameters handler.requestModel request.parameters = .ok attributes ∧
      handler.perform turn request attributes = .ok response.data

theorem findCorrespondingHandler_none_iff :
    findCorrespondingHandler handlers request = none ↔ ∀ handler ∈ handlers, ¬ IsFor request handler := by
  rw [findCorrespondingHandler, List.find?_eq_none]
  refine forall₂_congr fun handler _ => not_congr ?_
  rw [IsFor]
  cases request.endpoint with
  | string endpoint => rw [beq_iff_eq, Value.string.injEq, eq_comm]
  | _ => simp

theorem findCorrespondingHandler_isFor {handler : RequestHandler}
    (hfound : findCorrespondingHandler handlers request = some handler) :
    handler ∈ handlers ∧ IsFor request handler := by
  refine ⟨List.mem_of_find?_eq_some hfound, ?_⟩
  have hmatch := List.find?_some hfound
  rw [IsFor]
  cases hendpoint : request.endpoint with
  | string endpoint =>
    rw [hendpoint] at hmatch
    rw [eq_of_beq hmatch]
  | _ => simp [hendpoint] at hmatch

theorem tryPerform_error_iff (handler : RequestHandler) :
    (∃ error, tryPerform turn request handler = .error error) ↔
      (∃ error, parseRequestParameters handler.requestModel request.parameters = .error error) ∨
        ∃ attributes error,
          parseRequestParameters handler.requestModel request.parameters = .ok attributes ∧
          handler.perform turn request attributes = .error error := by
  unfold tryPerform
  cases hparse : parseRequestParameters handler.requestModel request.parameters with
  | error raised => exact iff_of_true ⟨raised, rfl⟩ (.inl ⟨raised, rfl⟩)
  | ok attributes =>
    constructor
    · rintro ⟨error, herror⟩
      exact .inr ⟨attributes, error, rfl, herror⟩
    · rintro (⟨error, herror⟩ | ⟨others, error, hothers, herror⟩)
      · cases herror
      · cases hothers
        exact ⟨error, herror⟩

theorem tryPerform_ok_iff (handler : RequestHandler) (data : Value) :
    tryPerform turn request handler = .ok data ↔
      ∃ attributes,
        parseRequestParameters handler.requestModel request.parameters = .ok attributes ∧
        handler.perform turn request attributes = .ok data := by
  unfold tryPerform
  cases hparse : parseRequestParameters handler.requestModel request.parameters with
  | error raised =>
    refine iff_of_false nofun ?_
    rintro ⟨attributes, hattributes, -⟩
    cases hattributes
  | ok attributes =>
    constructor
    · exact fun hperform => ⟨attributes, rfl, hperform⟩
    · rintro ⟨others, hothers, hperform⟩
      cases hothers
      exact hperform

theorem performRequest_answers {handler : RequestHandler}
    (hfound : findCorrespondingHandler handlers request = some handler) :
    Answers handlers turn request (performRequest str turn request handler) := by
  have hregistered : ¬ ∀ handler ∈ handlers, ¬ IsFor request handler := by
    intro hnone
    obtain ⟨hmem, hfor⟩ := findCorrespondingHandler_isFor handlers request hfound
    exact hnone handler hmem hfor
  have hsame : ∀ other, findCorrespondingHandler handlers request = some other → other = handler :=
    fun other hother => Option.some.inj (hother.symm.trans hfound)
  unfold performRequest
  cases htry : tryPerform turn request handler with
  | error error =>
    refine ⟨rfl, rfl, iff_of_false nofun hregistered, iff_of_true rfl ⟨handler, hfound, ?_⟩, ?_⟩
    · exact (tryPerform_error_iff turn request handler).mp ⟨error, htry⟩
    · refine iff_of_false nofun ?_
      rintro ⟨other, attributes, hother, hparse, hperform⟩
      rw [hsame other hother] at hparse hperform
      have hok := (tryPerform_ok_iff turn request handler _).mpr ⟨attributes, hparse, hperform⟩
      rw [htry] at hok
      cases hok
  | ok data =>
    refine ⟨rfl, rfl, iff_of_false nofun hregistered, ?_, iff_of_true rfl ?_⟩
    · refine iff_of_false nofun ?_
      rintro ⟨other, hother, hcause⟩
      rw [hsame other hother] at hcause
      obtain ⟨error, herror⟩ := (tryPerform_error_iff turn request handler).mpr hcause
      rw [htry] at herror
      cases herror
    · obtain ⟨attributes, hparse, hperform⟩ := (tryPerform_ok_iff turn request handler data).mp htry
      exact ⟨handler, attributes, hfound, hparse, hperform⟩

theorem respond_answers : Answers handlers turn request (respond str handlers turn request) := by
  unfold respond
  cases hfound : findCorrespondingHandler handlers request with
  | none =>
    refine ⟨rfl, rfl, iff_of_true rfl ?_, iff_of_false nofun ?_, iff_of_false nofun ?_⟩
    · exact (findCorrespondingHandler_none_iff handlers request).mp hfound
    · rintro ⟨handler, hhandler, -⟩
      rw [hfound] at hhandler
      cases hhandler
    · rintro ⟨handler, attributes, hhandler, -⟩
      rw [hfound] at hhandler
      cases hhandler
  | some handler => exact performRequest_answers str handlers turn request hfound

end VacuumCleaner.Core.RequestHandling
