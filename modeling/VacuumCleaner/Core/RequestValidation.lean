import VacuumCleaner.Core.RequestHandling
import VacuumCleaner.Lib.Fallible

/-! Which requests get as far as their handler: the shape that a model asks of
the parameters, and the effects of `_perform_request`. -/
namespace VacuumCleaner.Core.RequestHandling

open Lib Lib.Json Requests

mutual

/-- All fields of a model are required, also in the models of its lists. -/
def RequestModel.AllRequired : RequestModel → Prop
  | .nil => True
  | .field _ _ type isRequired rest => isRequired = true ∧ type.AllRequired ∧ rest.AllRequired

def FieldType.AllRequired : FieldType → Prop
  | .any => True
  | .conversion _ => True
  | .listType valueType => valueType ≠ .nil ∧ valueType.AllRequired

end

def RequestModel.Complete (model : RequestModel) : Prop := model ≠ .nil ∧ model.AllRequired

mutual

/-- An object that holds every field of the model; its attributes are the
model's, in their order, with the converted values. -/
def Satisfies : RequestModel → Value → AttributeHolder → Prop
  | .nil, data, attributes => (∃ members, data = .object members) ∧ attributes = []
  | .field refFieldName name type _ rest, data, attributes =>
    ∃ members value parameter others, data = .object members ∧ getItem name members = some value ∧
      Converts type value parameter ∧ Satisfies rest data others ∧
        attributes = (refFieldName, parameter) :: others

/-- A list keeps its length and its order. -/
def Converts : FieldType → Value → Attribute → Prop
  | .any, value, parameter => parameter = .value value
  | .conversion convert, value, parameter =>
    ∃ converted, convert value = .ok converted ∧ parameter = .value converted
  | .listType valueType, value, parameter =>
    ∃ items holders, iterate value = .ok items ∧
      List.Forall₂ (Satisfies valueType) items holders ∧ parameter = .holders holders

end

section parse

variable {type : FieldType} {rest : RequestModel} {refFieldName name : List Char} {data : Value}

theorem parseFields_required_iff {attributes : AttributeHolder} :
    parseFields (.field refFieldName name type true rest) data = .ok attributes ↔
      isIn name data = .ok true ∧ ∃ parameter, parseField type name data = .ok parameter ∧
        ∃ others, parseFields rest data = .ok others ∧
          (refFieldName, parameter) :: others = attributes := by
  cases hisIn : isIn name data with
  | error raised =>
    refine iff_of_false ?_ nofun
    rw [parseFields, hisIn]
    nofun
  | ok found =>
    cases found with
    | false =>
      refine iff_of_false ?_ nofun
      rw [parseFields, hisIn]
      nofun
    | true =>
      have hfields : parseFields (.field refFieldName name type true rest) data =
          parseField type name data >>= fun parameter => parseFields rest data >>= fun others =>
            .ok ((refFieldName, parameter) :: others) := by
        rw [parseFields, hisIn]
        rfl
      rw [and_iff_right rfl, hfields, bind_ok_iff]
      refine exists_congr fun parameter => and_congr_right fun _ => ?_
      rw [bind_ok_iff]
      exact exists_congr fun others => and_congr_right fun _ => ⟨Except.ok.inj, congrArg Except.ok⟩

theorem parseField_error (hdata : ∀ members, data ≠ .object members) (parameter : Attribute) :
    parseField type name data ≠ .ok parameter := by
  have hget : ∃ raised, get name data = .error raised := by
    cases data with
    | object members => exact absurd rfl (hdata members)
    | _ => exact ⟨_, rfl⟩
  obtain ⟨raised, hget⟩ := hget
  cases type with
  | any => rw [parseField, hget]; nofun
  | conversion convert => rw [parseField, hget]; nofun
  | listType valueType => rw [parseField, hget]; nofun

end parse

mutual

theorem parseFields_ok_iff : (model : RequestModel) → model.AllRequired →
    (data : Value) → (model = .nil → ∃ members, data = .object members) →
    (attributes : AttributeHolder) →
      (parseFields model data = .ok attributes ↔ Satisfies model data attributes)
  | .nil, _, data, hdata, attributes => by
    rw [parseFields, Satisfies, and_iff_right (hdata rfl), Except.ok.injEq, eq_comm]
  | .field refFieldName name type isRequired rest, hall, data, _, attributes => by
    obtain ⟨rfl, htype, hrest⟩ := hall
    rw [parseFields_required_iff, Satisfies]
    by_cases hobject : ∃ members, data = .object members
    · obtain ⟨members, rfl⟩ := hobject
      have hothers := parseFields_ok_iff rest hrest (.object members) fun _ => ⟨members, rfl⟩
      constructor
      · rintro ⟨hisIn, parameter, hparameter, others, hparse, rfl⟩
        obtain ⟨value, hvalue⟩ := Option.isSome_iff_exists.mp (Except.ok.inj hisIn)
        exact ⟨members, value, parameter, others, rfl, hvalue,
          (parseField_ok_iff type htype name members value hvalue parameter).mp hparameter,
          (hothers others).mp hparse, rfl⟩
      · rintro ⟨_, value, parameter, others, ⟨⟩, hvalue, hconverts, hsatisfies, rfl⟩
        refine ⟨congrArg Except.ok (Option.isSome_iff_exists.mpr ⟨value, hvalue⟩), parameter,
          (parseField_ok_iff type htype name members value hvalue parameter).mpr hconverts,
          others, (hothers others).mpr hsatisfies, rfl⟩
    · push Not at hobject
      constructor
      · rintro ⟨-, parameter, hparameter, -⟩
        exact absurd hparameter (parseField_error hobject parameter)
      · rintro ⟨members, _, _, _, hdata, -⟩
        exact absurd hdata (hobject members)

theorem parseField_ok_iff : (type : FieldType) → type.AllRequired → (name : List Char) →
    (members : Members) → (value : Value) → getItem name members = some value →
    (parameter : Attribute) →
      (parseField type name (.object members) = .ok parameter ↔ Converts type value parameter)
  | .any, _, name, members, value, hvalue, parameter => by
    rw [parseField, get, hvalue, Converts]
    exact ⟨fun h => (Except.ok.inj h).symm, fun h => congrArg Except.ok h.symm⟩
  | .conversion convert, _, name, members, value, hvalue, parameter => by
    rw [parseField, get, hvalue, Converts]
    change (convert value >>= fun converted => .ok (.value converted)) = .ok parameter ↔ _
    rw [bind_ok_iff]
    exact exists_congr fun converted => and_congr_right fun _ =>
      ⟨fun h => (Except.ok.inj h).symm, fun h => congrArg Except.ok h.symm⟩
  | .listType valueType, hall, name, members, value, hvalue, parameter => by
    have hitems : ∀ items holders, items.mapM (parseFields valueType) = .ok holders ↔
        List.Forall₂ (Satisfies valueType) items holders := by
      intro items holders
      rw [mapM_ok_iff]
      have hsame : (fun item holder => parseFields valueType item = .ok holder) =
          Satisfies valueType := funext₂ fun item holder => propext
        (parseFields_ok_iff valueType hall.2 item (fun hnil => absurd hnil hall.1) holder)
      rw [hsame]
    rw [parseField, get, hvalue, Converts]
    change (iterate value >>= fun items => items.mapM (parseFields valueType) >>= fun holders =>
      .ok (.holders holders)) = .ok parameter ↔ _
    rw [bind_ok_iff]
    refine exists_congr fun items => ?_
    constructor
    · rintro ⟨hiterate, hparse⟩
      obtain ⟨holders, hmap, hparameter⟩ := bind_ok_iff.mp hparse
      exact ⟨holders, hiterate, (hitems items holders).mp hmap, (Except.ok.inj hparameter).symm⟩
    · rintro ⟨holders, hiterate, hall, rfl⟩
      exact ⟨hiterate, bind_ok_iff.mpr ⟨holders, (hitems items holders).mpr hall, rfl⟩⟩

end

/-- What the parameters of an endpoint are taken for. -/
def Accepts : Option RequestModel → Value → AttributeHolder → Prop
  | some model, parameters, attributes => Satisfies model parameters attributes
  | none, parameters, attributes => parameters.isTruthy = false ∧ attributes = []

theorem parseRequestParameters_ok_iff {model : Option RequestModel}
    (hcomplete : ∀ fields, model = some fields → fields.Complete) (parameters : Value)
    (attributes : AttributeHolder) :
    parseRequestParameters model parameters = .ok attributes ↔ Accepts model parameters attributes := by
  cases model with
  | some model =>
    obtain ⟨hne, hall⟩ := hcomplete model rfl
    exact parseFields_ok_iff model hall parameters (fun hnil => absurd hnil hne) attributes
  | none =>
    rw [parseRequestParameters, Accepts]
    cases parameters.isTruthy with
    | false => exact ⟨fun h => ⟨rfl, (Except.ok.inj h).symm⟩, fun h => congrArg Except.ok h.2.symm⟩
    | true => exact iff_of_false nofun (fun h => Bool.noConfusion h.1)

/-- What a request sets off, in order. -/
inductive Effect
  | performed (attributes : AttributeHolder)
  | sent (response : Response)

section effects

variable (str : Raised → List Char) (turn : Nat) (request : Request) (handler : RequestHandler)

/-- The call of the handler and the response to the client. -/
def performRequestEffects : List Effect :=
  match parseRequestParameters handler.requestModel request.parameters with
  | .error error => [.sent (errorResult request (str error) false)]
  | .ok attributes =>
    [.performed attributes, .sent
      (match handler.perform turn request attributes with
      | .error error => errorResult request (str error) false
      | .ok response => successfulResult request response)]

theorem sent_mem_performRequestEffects_iff (response : Response) :
    .sent response ∈ performRequestEffects str turn request handler ↔
      response = performRequest str turn request handler := by
  unfold performRequestEffects performRequest tryPerform
  cases parseRequestParameters handler.requestModel request.parameters with
  | error error => simp [bind, Except.bind]
  | ok attributes =>
    simp only [bind, Except.bind]
    cases handler.perform turn request attributes <;> simp

/-- The handler is called exactly for what its model accepts; anything else is
answered by one error of the request. -/
structure Validates : Prop where
  performed : ∀ attributes, .performed attributes ∈ performRequestEffects str turn request handler ↔
    Accepts handler.requestModel request.parameters attributes
  refused : (¬ ∃ attributes, Accepts handler.requestModel request.parameters attributes) →
    ∃ response, performRequestEffects str turn request handler = [.sent response] ∧
      response.status = .error ∧ response.requestId = request.requestId ∧
        response.endpoint = request.endpoint

theorem validates_of_complete
    (hcomplete : ∀ model, handler.requestModel = some model → model.Complete) :
    Validates str turn request handler := by
  have hparse := parseRequestParameters_ok_iff hcomplete request.parameters
  constructor
  · intro attributes
    rw [← hparse attributes]
    unfold performRequestEffects
    cases parseRequestParameters handler.requestModel request.parameters with
    | error error => simp
    | ok others => simp [eq_comm]
  · intro hrefused
    cases herror : parseRequestParameters handler.requestModel request.parameters with
    | error error =>
      unfold performRequestEffects
      rw [herror]
      exact ⟨_, rfl, rfl, rfl, rfl⟩
    | ok attributes => exact absurd ⟨attributes, (hparse attributes).mp herror⟩ hrefused

end effects

/-- The conversions of the language: `str`, `int` and `float` of a JSON value. -/
structure Builtins where
  str : Value → Except Raised (List Char)
  int : Value → Except Raised Number
  float : Value → Except Raised Number

section models

variable (py : Builtins)

def strType : FieldType := .conversion fun value => do return .string (← py.str value)
def intType : FieldType := .conversion fun value => do return .number (← py.int value)
def floatType : FieldType := .conversion fun value => do return .number (← py.float value)

/-- No other letter has a small form of `false` or `true`. -/
def boolean : Value → Except Raised Value
  | .bool value => .ok (.bool value)
  | .string text =>
    if text.map Char.toLower = "false".toList then .ok (.bool false)
    else if text.map Char.toLower = "true".toList then .ok (.bool true)
    else .error (.other ("Cannot convert string value \"".toList ++ text ++ "\" to Boolean".toList))
  | value => do throw (.other ("Cannot \"".toList ++ (← py.str value) ++ "\" to Boolean".toList))

/-- A required field with the name of its variable. -/
def required (name : String) (type : FieldType) (rest : RequestModel) : RequestModel :=
  .field name.toList name.toList type true rest

def setWifiCredentialsRequestModel : RequestModel :=
  required "ssid" (strType py) (required "password" (strType py) .nil)

def powerRequestModel : RequestModel := required "command" (strType py) .nil

def motorRequestModel : RequestModel :=
  required "motor_name" (strType py) (required "value" (intType py) .nil)

def pidSettingsRequestModel : RequestModel :=
  required "proportional" (floatType py)
    (required "integral" (floatType py) (required "derivative" (floatType py) .nil))

def movementRequestModel : RequestModel :=
  required "direction" (strType py) (required "speed" (intType py) .nil)

def stopMovementRequestModel : RequestModel :=
  required "with_break" (.conversion (boolean py)) .nil

def parameterModel : RequestModel := required "name" (strType py) (required "value" .any .nil)

def setAlgorithmRequestModel : RequestModel :=
  required "algorithm_name" (strType py)
    (required "arguments" (.listType (parameterModel py)) .nil)

def manageCleaningExecutionRequestModel : RequestModel := required "command" (strType py) .nil

/-- The endpoints of the Bluetooth and the Wi-Fi service with their models. -/
def registeredModels : List (String × Option RequestModel) :=
  [("/setup-wifi", some (setWifiCredentialsRequestModel py)),
    ("/get-available-access-points", none),
    ("/get-current-wifi-credentials", none),
    ("/get-a1-data", none),
    ("/get-sys-info", none),
    ("/power", some (powerRequestModel py)),
    ("/set-motor", some (motorRequestModel py)),
    ("/get-current-pid", none),
    ("/set-current-pid", some (pidSettingsRequestModel py)),
    ("/stop-movement", some (stopMovementRequestModel py)),
    ("/movement", some (movementRequestModel py)),
    ("/get-algorithms", none),
    ("/set-algorithm", some (setAlgorithmRequestModel py)),
    ("/manage-cleaning", some (manageCleaningExecutionRequestModel py)),
    ("/get-cleaning-status", none)]

theorem complete_of_registered {endpoint : String} {model : RequestModel}
    (hmodel : (endpoint, some model) ∈ registeredModels py) : model.Complete := by
  have hcomplete : ∀ entry ∈ registeredModels py, ∀ model, entry.2 = some model →
      model.Complete := by
    simp [registeredModels, RequestModel.Complete, RequestModel.AllRequired,
      FieldType.AllRequired, required, setWifiCredentialsRequestModel, powerRequestModel,
      motorRequestModel, pidSettingsRequestModel, movementRequestModel,
      stopMovementRequestModel, parameterModel, setAlgorithmRequestModel,
      manageCleaningExecutionRequestModel, strType, intType, floatType]
  exact hcomplete _ hmodel model rfl

/-- Every registered endpoint, and every other whose model has only required
fields, validates its requests. Lone surrogates in their texts are not told apart. -/
theorem performRequest_validates (str : Raised → List Char) (turn : Nat) (request : Request)
    (handler : RequestHandler)
    (hmodel : (∃ endpoint, (endpoint, handler.requestModel) ∈ registeredModels py) ∨
      ∀ model, handler.requestModel = some model → model.Complete) :
    Validates str turn request handler := by
  refine validates_of_complete str turn request handler fun model hsome => ?_
  rcases hmodel with ⟨endpoint, hregistered⟩ | hcomplete
  · rw [hsome] at hregistered
    exact complete_of_registered py hregistered
  · exact hcomplete model hsome

end models

/-- The conversions of texts and whole numbers. -/
def plainBuiltins : Builtins where
  str
    | .string text => .ok text
    | _ => .error .typeError
  int
    | .number (.int value) => .ok (.int value)
    | _ => .error .typeError
  float
    | .number value => .ok value
    | _ => .error .typeError

/-- `/set-algorithm` with a handler that does nothing else. -/
def settingHandler : RequestHandler where
  endpoint := "/set-algorithm".toList
  requestModel := some (setAlgorithmRequestModel plainBuiltins)
  perform _ _ _ := .ok .null

def settingRequest : Request where
  endpoint := .string "/set-algorithm".toList
  requestId := .string "7".toList
  parameters := .object
    [("algorithm_name".toList, .string "simple".toList),
      ("arguments".toList, .array
        [.object [("name".toList, .string "speed".toList), ("value".toList, .number (.int 3))]])]

theorem performRequest_validates_setting :
    Validates (fun _ => []) 0 settingRequest settingHandler ∧
      performRequestEffects (fun _ => []) 0 settingRequest settingHandler =
        [.performed
          [("algorithm_name".toList, .value (.string "simple".toList)),
            ("arguments".toList, .holders
              [[("name".toList, .value (.string "speed".toList)),
                ("value".toList, .value (.number (.int 3)))]])],
          .sent (successfulResult settingRequest .null)] := by
  refine ⟨?_, by rfl⟩
  exact performRequest_validates plainBuiltins _ _ _ _
    (.inl ⟨"/set-algorithm", List.mem_of_getElem? (i := 12) rfl⟩)

end VacuumCleaner.Core.RequestHandling
