import VacuumCleaner.Lib.JsonDecoder

/-! Requests of the Wi-Fi and Bluetooth clients, one JSON text a line. -/
namespace VacuumCleaner.Core.Requests

open Lib.Json

def endpointKey : List Char := ['e', 'n', 'd', 'p', 'o', 'i', 'n', 't']
def requestIdKey : List Char := ['r', 'e', 'q', 'u', 'e', 's', 't', '_', 'i', 'd']
def parametersKey : List Char := ['p', 'a', 'r', 'a', 'm', 'e', 't', 'e', 'r', 's']

structure Request where
  endpoint : Value
  requestId : Value
  parameters : Value

/-- The exceptions of `_parse_request`. -/
inductive ParseError
  | parsingRequestError (data : List Char)
  | invalidRequestData (request : Value)
  | typeError
  | decoder (raised : DecodeError)

/-- `Request.parse`: a value that is no dictionary cannot be indexed by a name. -/
def Request.parse (request : Value) : Except ParseError Request :=
  match request with
  | .object members =>
    match getItem endpointKey members, getItem requestIdKey members with
    | some endpoint, some requestId =>
      .ok ⟨endpoint, requestId, (getItem parametersKey members).getD .null⟩
    | _, _ => .error (.invalidRequestData request)
  | _ => .error .typeError

/-- Only a `JSONDecodeError` of the decoder is caught and renamed. -/
def parseRequest (py : Runtime) (data : List Char) : Except ParseError Request :=
  match loads py data with
  | .ok request => Request.parse request
  | .error .jsonDecodeError => .error (.parsingRequestError data)
  | .error raised => .error (.decoder raised)

/-- A line that a client may send, with the shortest of fields. -/
def pidRequest : List Char :=
  ['{', '"', 'e', 'n', 'd', 'p', 'o', 'i', 'n', 't', '"', ':', '"', '/', 'p', '"', ',',
    '"', 'r', 'e', 'q', 'u', 'e', 's', 't', '_', 'i', 'd', '"', ':', '"', '1', '"', '}']

end VacuumCleaner.Core.Requests
