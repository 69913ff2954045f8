import Aldis.Agent.Targets

/-!
# The agent's messages

JSON-RPC as Moonraker frames it for an agent: the requests it relays, what the agent makes of each
of them, and what it sends.
-/

namespace Aldis.Agent

open Text

/-- A JSON value. An object names each of its fields once. -/
inductive Json where
  | null
  | bool (b : Bool)
  | int (n : ℤ)
  | float (text : Str)
  | str (s : Str)
  | arr (items : List Json)
  | obj (fields : List (Str × Json))

namespace Json

def isNull : Json → Bool
  | .null => true
  | _ => false

def isInt (n : ℤ) : Json → Bool
  | .int m => m == n
  | _ => false

def asStr : Json → Option Str
  | .str s => some s
  | _ => none

def get (key : Str) : Json → Option Json
  | .obj fields => fields.lookup key
  | _ => none

end Json

def METHOD_NOT_FOUND : ℤ := -32601

/-- The fixed `id` of the one `server.connection.identify` call of a connection, by which its
reply is told apart from any other response. -/
def IDENTIFY_ID : ℤ := 1

structure Request where
  id : Json
  method : Str
  params : Json

inductive Incoming where
  | request (request : Request)
  /-- Moonraker rejected the registration. -/
  | identifyError (message : Str)
  /-- Responses to the agent's own calls, and Moonraker's broadcasts. -/
  | ignored

/-- What the JSON library does: it reads and writes texts, and decodes the request of an update. -/
structure JsonLibrary where
  fromStr : Str → Option Json
  toString : Json → Str
  updateRequest : Json → Option UpdateRequest

variable (json : JsonLibrary)

def parseIncoming (text : Str) : Incoming :=
  match json.fromStr text with
  | some (.obj message) =>
    match message.lookup ("method" : Str), message.lookup ("id" : Str) with
    | some (.str method), some id =>
      if id.isNull then .ignored
      else .request ⟨id, method, (message.lookup ("params" : Str)).getD .null⟩
    | none, some id => match message.lookup ("error" : Str) with
      | some error =>
        if id.isInt IDENTIFY_ID then
          .identifyError (((error.get "message").bind Json.asStr).getD (json.toString error))
        else .ignored
      | none => .ignored
    | _, _ => .ignored
  | _ => .ignored

inductive ServiceCall where
  | status
  | update (request : UpdateRequest)

def ServiceCall.Returns (result : Except ApiError Json) : ServiceCall → Prop
  | .status => ∃ status, result = .ok status
  | .update _ => True

def dispatch (method : Str) (params : Json) : Except ApiError ServiceCall :=
  if method = "status" then .ok .status
  else if method = "update" then match json.updateRequest params with
    | some request => .ok (.update request)
    | none => .error ⟨INVALID_PARAMS, "invalid_request",
        "expected \x7b\"all\": true\x7d or \x7b\"mcus\": [...]\x7d", .null⟩
  else .error ⟨METHOD_NOT_FOUND, "unknown_method", "unknown method " ++ quoted method, .null⟩

structure Reply where
  id : Json
  result : Except ApiError Json

/-- A request, with the call that was made of the service for it and what this returned. -/
structure Exchange where
  request : Request
  answer : Option (ServiceCall × Except ApiError Json)

/-- A reply bears the id of its request, with what the service returned for the call that the
request asks for, or with why the service was not called. -/
def Answers (exchange : Exchange) (reply : Reply) : Prop :=
  reply.id = exchange.request.id ∧
    ((∃ call, dispatch json exchange.request.method exchange.request.params = .ok call ∧
      exchange.answer = some (call, reply.result)) ∨
    ∃ error, dispatch json exchange.request.method exchange.request.params = .error error ∧
      exchange.answer = none ∧ reply.result = .error error)

inductive Outgoing where
  | identify
  | reply (reply : Reply)
  | event (payload : UpdateResponse)

namespace Outgoing

def asReply : Outgoing → Option Reply
  | .reply answer => some answer
  | _ => none

def asEvent : Outgoing → Option UpdateResponse
  | .event payload => some payload
  | _ => none

end Outgoing

end Aldis.Agent
