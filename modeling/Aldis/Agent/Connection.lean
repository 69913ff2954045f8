import Aldis.Agent.Protocol
import Aldis.Lib.Machine

/-!
# The agent's connection

One thread connects to Moonraker, registers, and from then on reads with a short timeout, answers
each request before it reads on, and forwards the events that the threads of the service put into
the connection's channel. A connection that ends is made anew after a pause. The other threads may
emit an event between any two steps of it.
-/

namespace Aldis.Agent.Connection

open Machine Text

/-- In seconds. -/
def MAX_BACKOFF : ℕ := 30

/-- What the socket gives: `idle` is a timeout, or a frame that is neither text nor a close. -/
inductive Frame where
  | text (text : Str)
  | closed
  | idle
  | failed

inductive Place where
  | connecting
  | configuring
  | registering
  | identifying
  | reading
  | asking (request : Request) (call : ServiceCall)
  | replying (request : Request) (result : Except ApiError Json)
  | draining
  | forwarding (payload : UpdateResponse)
  /-- The connection has ended, and its channel is still registered. -/
  | leaving (closed : Bool)
  | returned (closed : Bool)
  | sleeping

structure Link where
  place : Place
  /-- The pause before the next attempt. -/
  backoff : ℕ
  /-- The channel of the connection, while one is registered for the service's events. -/
  events : Option (List UpdateResponse)

def Link.start : Link := ⟨.connecting, 1, none⟩

inductive Happening where
  | connected (ok : Bool)
  | configured (ok : Bool)
  | registered
  | sent (message : Outgoing) (ok : Bool)
  | received (frame : Frame)
  | answered (call : ServiceCall) (result : Except ApiError Json)
  | taken (payload : Option UpdateResponse)
  | cleared
  | ended (closed : Bool)
  | slept (seconds : ℕ)
  /-- A thread of the service emits an event. -/
  | emitted (payload : UpdateResponse)

variable (json : JsonLibrary)

def Frame.request : Frame → Option Request
  | .text content => match parseIncoming json content with
    | .request request => some request
    | _ => none
  | _ => none

def Frame.next : Frame → Place
  | .text content => match parseIncoming json content with
    | .request request => match dispatch json request.method request.params with
      | .ok call => .asking request call
      | .error error => .replying request (.error error)
    | .identifyError _ => .leaving false
    | .ignored => .draining
  | .closed => .leaving true
  | .idle => .draining
  | .failed => .leaving false

def Place.onceSent (next : Place) (ok : Bool) : Place := if ok then next else .leaving false

inductive Step : Link → Happening → Link → Prop
  | connected {backoff : ℕ} {events : Option (List UpdateResponse)} {ok : Bool} :
      Step ⟨.connecting, backoff, events⟩ (.connected ok)
        ⟨if ok then .configuring else .returned false, backoff, events⟩
  | configured {backoff : ℕ} {events : Option (List UpdateResponse)} {ok : Bool} :
      Step ⟨.configuring, backoff, events⟩ (.configured ok)
        ⟨if ok then .registering else .returned false, backoff, events⟩
  | registered {backoff : ℕ} {events : Option (List UpdateResponse)} :
      Step ⟨.registering, backoff, events⟩ .registered ⟨.identifying, backoff, some []⟩
  | identify {backoff : ℕ} {events : Option (List UpdateResponse)} {ok : Bool} :
      Step ⟨.identifying, backoff, events⟩ (.sent .identify ok)
        ⟨Place.reading.onceSent ok, backoff, events⟩
  | read {backoff : ℕ} {events : Option (List UpdateResponse)} {frame : Frame} :
      Step ⟨.reading, backoff, events⟩ (.received frame) ⟨frame.next json, backoff, events⟩
  | call {backoff : ℕ} {events : Option (List UpdateResponse)} {request : Request}
      {call : ServiceCall} {result : Except ApiError Json} (hc : call.Returns result) :
      Step ⟨.asking request call, backoff, events⟩ (.answered call result)
        ⟨.replying request result, backoff, events⟩
  | reply {backoff : ℕ} {events : Option (List UpdateResponse)} {request : Request}
      {result : Except ApiError Json} {ok : Bool} :
      Step ⟨.replying request result, backoff, events⟩ (.sent (.reply ⟨request.id, result⟩) ok)
        ⟨Place.draining.onceSent ok, backoff, events⟩
  | take {backoff : ℕ} {payload : UpdateResponse} {queue : List UpdateResponse} :
      Step ⟨.draining, backoff, some (payload :: queue)⟩ (.taken (some payload))
        ⟨.forwarding payload, backoff, some queue⟩
  | drained {backoff : ℕ} :
      Step ⟨.draining, backoff, some []⟩ (.taken none) ⟨.reading, backoff, some []⟩
  | forward {backoff : ℕ} {events : Option (List UpdateResponse)} {payload : UpdateResponse}
      {ok : Bool} :
      Step ⟨.forwarding payload, backoff, events⟩ (.sent (.event payload) ok)
        ⟨Place.draining.onceSent ok, backoff, events⟩
  | cleared {backoff : ℕ} {events : Option (List UpdateResponse)} {closed : Bool} :
      Step ⟨.leaving closed, backoff, events⟩ .cleared ⟨.returned closed, backoff, none⟩
  | ended {backoff : ℕ} {events : Option (List UpdateResponse)} {closed : Bool} :
      Step ⟨.returned closed, backoff, events⟩ (.ended closed)
        ⟨.sleeping, if closed then 1 else backoff, events⟩
  | slept {backoff : ℕ} {events : Option (List UpdateResponse)} :
      Step ⟨.sleeping, backoff, events⟩ (.slept backoff)
        ⟨.connecting, min (backoff * 2) MAX_BACKOFF, events⟩
  | emit {link : Link} {payload : UpdateResponse} :
      Step link (.emitted payload) { link with events := link.events.map (· ++ [payload]) }

/-- What has happened on a connection: the requests it relayed and what the service answered for
them, what was sent on it and whether that succeeded, and the events emitted since it was made. -/
structure Session where
  exchanges : List Exchange
  sent : List (Outgoing × Bool)
  emitted : List UpdateResponse

namespace Session

variable (session : Session)

def messages : List Outgoing := session.sent.map Prod.fst

def requests : List Request := session.exchanges.map Exchange.request

def replies : List Reply := session.messages.filterMap Outgoing.asReply

def events : List UpdateResponse := session.messages.filterMap Outgoing.asEvent

def empty : Session := ⟨[], [], []⟩

def next : Happening → Session
  | .registered => empty
  | .received frame =>
    { session with
      exchanges := session.exchanges ++ (frame.request json).toList.map fun r => ⟨r, none⟩ }
  | .answered call result =>
    { session with
      exchanges := session.exchanges.modifyLast fun e => { e with answer := some (call, result) } }
  | .sent message ok => { session with sent := session.sent ++ [(message, ok)] }
  | .emitted payload => { session with emitted := session.emitted ++ [payload] }
  | _ => session

end Session

def session (tr : List (Move Link Happening)) : Session :=
  (tr.map (·.event)).foldl (Session.next json) .empty

end Aldis.Agent.Connection
