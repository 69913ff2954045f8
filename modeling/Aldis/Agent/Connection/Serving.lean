import Aldis.Agent.Connection
import Mathlib.Data.List.ModifyLast

/-!
# What a connection serves

Whatever Moonraker sends, whichever sends fail and whenever the service emits an event, the agent
registers first, answers each request once and in turn, and forwards the events in the order in
which they were emitted.
-/

namespace Aldis.Agent.Connection

open Machine Text

variable (json : JsonLibrary)

namespace Place

def pending : Place → List Request
  | .asking request _ => [request]
  | .replying request _ => [request]
  | _ => []

def inHand : Place → List UpdateResponse
  | .forwarding payload => [payload]
  | _ => []

/-- The agent has registered and the connection has not failed. -/
def serving : Place → Bool
  | .reading | .asking _ _ | .replying _ _ | .draining | .forwarding _ => true
  | _ => false

def Sound (exchanges : List Exchange) : Place → Prop
  | .asking request call => dispatch json request.method request.params = .ok call ∧
    ∃ done, exchanges = done ++ [⟨request, none⟩]
  | .replying request result => ∃ done exchange, exchanges = done ++ [exchange] ∧
    exchange.request = request ∧ Answers json exchange ⟨request.id, result⟩
  | _ => True

end Place

structure Serves (link : Link) (session : Session) : Prop where
  /-- The agent registers before it sends anything else, and once. -/
  introduced : session.messages = [] ∨
    ∃ rest, session.messages = .identify :: rest ∧ Outgoing.identify ∉ rest
  /-- The requests are answered one for one and in their order, up to the one at hand. -/
  answered : ∃ done current, session.exchanges = done ++ current ∧
    current.map Exchange.request = link.place.pending ∧
      List.Forall₂ (Answers json) done session.replies
  /-- No event is lost, repeated or overtaken while the channel stands. -/
  forwarded : ∀ queue, link.events = some queue →
    session.emitted = session.events ++ link.place.inHand ++ queue
  /-- The channel stands from before the registration is sent until the connection ends. -/
  channel : link.place.serving = true ∨ link.place = .identifying → link.events ≠ none
  /-- Nothing is sent after a send that failed. -/
  delivered : ∀ sent last, session.sent = sent ++ [last] → ∀ m ∈ sent, m.2 = true

structure Keeps (link : Link) (session : Session) : Prop extends Serves json link session where
  sound : link.place.Sound json session.exchanges
  fresh : link.place = .identifying → session.sent = [] ∧ session.exchanges = []
  begun : link.place.serving = true → session.sent ≠ [] ∧ ∀ m ∈ session.sent, m.2 = true

section Frames

/-- A frame is a request that is now at hand, or the thread goes on without one. -/
theorem Frame.next_cases (frame : Frame) :
    (∃ request, frame.request json = some request ∧
      ((∃ call, dispatch json request.method request.params = .ok call ∧
        frame.next json = .asking request call) ∨
      ∃ error, dispatch json request.method request.params = .error error ∧
        frame.next json = .replying request (.error error))) ∨
    frame.request json = none ∧
      (frame.next json = .draining ∨ ∃ closed, frame.next json = .leaving closed) := by
  cases frame with
  | text content =>
      cases hp : parseIncoming json content with
      | request request =>
          left
          refine ⟨request, by simp only [Frame.request, hp], ?_⟩
          cases hd : dispatch json request.method request.params with
          | ok call => exact .inl ⟨call, rfl, by simp only [Frame.next, hp, hd]⟩
          | error error => exact .inr ⟨error, rfl, by simp only [Frame.next, hp, hd]⟩
      | identifyError message =>
          exact .inr ⟨by simp only [Frame.request, hp],
            .inr ⟨false, by simp only [Frame.next, hp]⟩⟩
      | ignored =>
          exact .inr ⟨by simp only [Frame.request, hp], .inl (by simp only [Frame.next, hp])⟩
  | closed => exact .inr ⟨rfl, .inr ⟨true, rfl⟩⟩
  | idle => exact .inr ⟨rfl, .inl rfl⟩
  | failed => exact .inr ⟨rfl, .inr ⟨false, rfl⟩⟩

end Frames

namespace Place

variable {ok : Bool} (next : Place)

theorem pending_onceSent (hn : next = .reading ∨ next = .draining) :
    (next.onceSent ok).pending = [] := by
  rcases hn with rfl | rfl <;> cases ok <;> rfl

theorem inHand_onceSent (hn : next = .reading ∨ next = .draining) :
    (next.onceSent ok).inHand = [] := by
  rcases hn with rfl | rfl <;> cases ok <;> rfl

theorem sound_onceSent (hn : next = .reading ∨ next = .draining) (exchanges : List Exchange) :
    (next.onceSent ok).Sound json exchanges := by
  rcases hn with rfl | rfl <;> cases ok <;> trivial

theorem onceSent_ne_identifying (hn : next = .reading ∨ next = .draining) :
    next.onceSent ok ≠ .identifying := by
  rcases hn with rfl | rfl <;> cases ok <;> exact nofun

theorem ok_of_serving (hs : (next.onceSent ok).serving = true) : ok = true := by
  cases ok with
  | true => rfl
  | false => cases hs

end Place

namespace Session

variable {json} {session : Session} {message : Outgoing} {ok : Bool}

@[simp] theorem messages_sent : (session.next json (.sent message ok)).messages =
    session.messages ++ [message] := by
  simp [messages, next]

@[simp] theorem replies_sent : (session.next json (.sent message ok)).replies =
    session.replies ++ message.asReply.toList := by
  rw [replies, messages_sent, List.filterMap_append, replies]
  cases message <;> rfl

@[simp] theorem events_sent : (session.next json (.sent message ok)).events =
    session.events ++ message.asEvent.toList := by
  rw [events, messages_sent, List.filterMap_append, events]
  cases message <;> rfl

/-- While every send succeeds, one more may be the last. -/
theorem delivered_sent (hsent : ∀ m ∈ session.sent, m.2 = true) {sent : List (Outgoing × Bool)}
    {last : Outgoing × Bool}
    (he : (session.next json (.sent message ok)).sent = sent ++ [last]) :
    ∀ m ∈ sent, m.2 = true := by
  obtain ⟨rfl, -⟩ := List.append_inj' he rfl
  exact hsent

end Session

section Steps

variable {json} {link link' : Link} {session : Session} {h : Happening}

/-- The thread goes on with the same request and the same event at hand. -/
theorem Keeps.moves (hk : Keeps json link session) {place : Place} {backoff : ℕ}
    {events : Option (List UpdateResponse)} (hp : place.pending = link.place.pending)
    (hi : place.inHand = link.place.inHand) 
    (he : events = link.events ∨ events = none ∧ place.serving = false)
    (hs : place.Sound json session.exchanges) (hf : place ≠ .identifying)
    (hb : place.serving = true → link.place.serving = true) :
    Keeps json ⟨place, backoff, events⟩ session where
  introduced := hk.introduced
  answered := by rw [hp]; exact hk.answered
  forwarded := by
    intro queue hq
    rw [hi]
    rcases he with rfl | ⟨rfl, -⟩
    · exact hk.forwarded queue hq
    · cases hq
  channel := by
    intro h
    have hserving := h.resolve_right hf
    rcases he with rfl | ⟨-, hnone⟩
    · exact hk.channel (.inl (hb hserving))
    · rw [hnone] at hserving
      cases hserving
  delivered := hk.delivered
  sound := hs
  fresh := fun h => absurd h hf
  begun := fun h => hk.begun (hb h)

/-- A send that every earlier one of the connection succeeded before. -/
theorem keeps_sent {next : Place} {backoff : ℕ} {events : Option (List UpdateResponse)}
    {message : Outgoing} (ok : Bool) (hn : next = .reading ∨ next = .draining)
    (hsent : ∀ m ∈ session.sent, m.2 = true)
    (hi : ∃ rest, session.messages ++ [message] = .identify :: rest ∧ Outgoing.identify ∉ rest)
    (ha : List.Forall₂ (Answers json) session.exchanges
      (session.replies ++ message.asReply.toList))
    (hf : ∀ queue, events = some queue →
      session.emitted = session.events ++ message.asEvent.toList ++ queue)
    (hc : events ≠ none) :
    Keeps json ⟨next.onceSent ok, backoff, events⟩
      (session.next json (.sent message ok)) where
  introduced := by
    right
    rw [Session.messages_sent]
    exact hi
  answered := by
    refine ⟨session.exchanges, [], (List.append_nil _).symm, ?_, ?_⟩
    · rw [next.pending_onceSent hn, List.map_nil]
    · rw [Session.replies_sent]
      exact ha
  forwarded := by
    intro queue hq
    change session.emitted = _
    rw [Session.events_sent, next.inHand_onceSent hn, List.append_nil]
    exact hf queue hq
  channel := fun _ => hc
  delivered := fun sent last he => Session.delivered_sent hsent he
  sound := next.sound_onceSent json hn _
  fresh := fun h => absurd h (next.onceSent_ne_identifying hn)
  begun := by
    intro hserving
    change session.sent ++ _ ≠ [] ∧ ∀ m ∈ session.sent ++ _, m.2 = true
    obtain rfl := next.ok_of_serving hserving
    refine ⟨List.append_ne_nil_of_right_ne_nil _ (List.cons_ne_nil _ _), ?_⟩
    intro m hm
    rcases List.mem_append.1 hm with hm | hm
    · exact hsent m hm
    · rw [List.mem_singleton.1 hm]

/-- What is sent after the registration leaves it the first and only one. -/
theorem Keeps.introduces {message : Outgoing} (hk : Keeps json link session)
    (hne : session.sent ≠ []) (hm : message ≠ .identify) :
    ∃ rest, session.messages ++ [message] = .identify :: rest ∧ Outgoing.identify ∉ rest := by
  rcases hk.introduced with hnil | ⟨rest, hrest, hid⟩
  · exact absurd (List.map_eq_nil_iff.1 hnil) hne
  · refine ⟨rest ++ [message], by rw [hrest, List.cons_append], ?_⟩
    intro hmem
    rcases List.mem_append.1 hmem with hmem | hmem
    · exact hid hmem
    · exact hm (List.mem_singleton.1 hmem).symm

theorem Keeps.identify {backoff : ℕ} {events : Option (List UpdateResponse)} (ok : Bool)
    (hk : Keeps json ⟨.identifying, backoff, events⟩ session) :
    Keeps json ⟨Place.reading.onceSent ok, backoff, events⟩
      (session.next json (.sent .identify ok)) := by
  obtain ⟨hsent, hexchanges⟩ := hk.fresh rfl
  have hmessages : session.messages = [] := by rw [Session.messages, hsent, List.map_nil]
  apply keeps_sent ok (.inl rfl)
  · intro m hm
    rw [hsent] at hm
    cases hm
  · exact ⟨[], by rw [hmessages, List.nil_append], List.not_mem_nil⟩
  · rw [hexchanges, Session.replies, hmessages]
    exact .nil
  · exact hk.forwarded
  · exact hk.channel (.inr rfl)

theorem Keeps.reply {backoff : ℕ} {events : Option (List UpdateResponse)} {request : Request}
    {result : Except ApiError Json} (ok : Bool)
    (hk : Keeps json ⟨.replying request result, backoff, events⟩ session) :
    Keeps json ⟨Place.draining.onceSent ok, backoff, events⟩
      (session.next json (.sent (.reply ⟨request.id, result⟩) ok)) := by
  obtain ⟨hne, hsent⟩ := hk.begun rfl
  obtain ⟨done, current, hexchanges, hcurrent, hanswers⟩ := hk.answered
  obtain ⟨done', exchange, hexchanges', hrequest, hreply⟩ := hk.sound
  obtain ⟨last, rfl⟩ : ∃ last, current = [last] := by
    cases current with
    | nil => cases hcurrent
    | cons last rest =>
        obtain rfl := List.map_eq_nil_iff.1 (List.cons.inj hcurrent).2
        exact ⟨last, rfl⟩
  obtain ⟨rfl, hlast⟩ := List.append_inj' (hexchanges.symm.trans hexchanges') rfl
  obtain rfl := List.singleton_inj.1 hlast
  apply keeps_sent ok (.inr rfl) hsent (hk.introduces hne (by intro h; cases h))
  · rw [hexchanges]
    exact List.rel_append hanswers (.cons hreply .nil)
  · exact hk.forwarded
  · exact hk.channel (.inl rfl)

theorem Keeps.forward {backoff : ℕ} {events : Option (List UpdateResponse)}
    {payload : UpdateResponse} (ok : Bool)
    (hk : Keeps json ⟨.forwarding payload, backoff, events⟩ session) :
    Keeps json ⟨Place.draining.onceSent ok, backoff, events⟩
      (session.next json (.sent (.event payload) ok)) := by
  obtain ⟨hne, hsent⟩ := hk.begun rfl
  obtain ⟨done, current, hexchanges, hcurrent, hanswers⟩ := hk.answered
  obtain rfl := List.map_eq_nil_iff.1 hcurrent
  apply keeps_sent ok (.inr rfl) hsent (hk.introduces hne (by intro h; cases h))
  · rw [hexchanges]
    simpa only [List.append_nil, Outgoing.asReply, Option.toList_none] using hanswers
  · exact hk.forwarded
  · exact hk.channel (.inl rfl)

/-- A frame is taken in while nothing is at hand. -/
theorem Keeps.receives {backoff : ℕ} {events : Option (List UpdateResponse)} {frame : Frame}
    {place : Place} (hk : Keeps json ⟨.reading, backoff, events⟩ session)
    (hp : place.pending = (frame.request json).toList) (hi : place.inHand = [])
    (hs : place.Sound json (session.next json (.received frame)).exchanges)
    (hf : place ≠ .identifying) :
    Keeps json ⟨place, backoff, events⟩ (session.next json (.received frame)) where
  introduced := hk.introduced
  answered := by
    obtain ⟨done, current, hexchanges, hcurrent, hanswers⟩ := hk.answered
    obtain rfl := List.map_eq_nil_iff.1 hcurrent
    rw [List.append_nil] at hexchanges
    refine ⟨done, (frame.request json).toList.map fun r => ⟨r, none⟩, ?_, ?_, hanswers⟩
    · rw [← hexchanges]
      rfl
    · rw [hp, List.map_map]
      exact List.map_id _
  forwarded := by
    intro queue hq
    rw [hi]
    exact hk.forwarded queue hq
  channel := fun _ => hk.channel (.inl rfl)
  delivered := hk.delivered
  sound := hs
  fresh := fun h => absurd h hf
  begun := fun _ => hk.begun rfl

theorem Keeps.read {backoff : ℕ} {events : Option (List UpdateResponse)} {frame : Frame}
    (hk : Keeps json ⟨.reading, backoff, events⟩ session) :
    Keeps json ⟨frame.next json, backoff, events⟩ (session.next json (.received frame)) := by
  rcases frame.next_cases json with
    ⟨request, hf, ⟨call, hd, hnext⟩ | ⟨error, hd, hnext⟩⟩ | ⟨hf, hnext | ⟨closed, hnext⟩⟩
  · rw [hnext]
    refine hk.receives (by rw [hf]; rfl) rfl ⟨hd, session.exchanges, ?_⟩ (by intro h; cases h)
    simp only [Session.next, hf, Option.toList_some, List.map_cons, List.map_nil]
  · rw [hnext]
    refine hk.receives (by rw [hf]; rfl) rfl
      ⟨session.exchanges, ⟨request, none⟩, ?_, rfl, rfl, .inr ⟨error, hd, rfl, rfl⟩⟩
      (by intro h; cases h)
    simp only [Session.next, hf, Option.toList_some, List.map_cons, List.map_nil]
  · rw [hnext]
    exact hk.receives (by rw [hf]; rfl) rfl trivial (by intro h; cases h)
  · rw [hnext]
    exact hk.receives (by rw [hf]; rfl) rfl trivial (by intro h; cases h)

/-- What the service answers is the answer of the request at hand. -/
theorem Keeps.answer {backoff : ℕ} {events : Option (List UpdateResponse)} {request : Request}
    {call : ServiceCall} {result : Except ApiError Json}
    (hk : Keeps json ⟨.asking request call, backoff, events⟩ session) :
    Keeps json ⟨.replying request result, backoff, events⟩
      (session.next json (.answered call result)) := by
  obtain ⟨hdispatch, done', hlast⟩ := hk.sound
  have hnext : (session.next json (.answered call result)).exchanges =
      done' ++ [⟨request, some (call, result)⟩] := by
    rw [Session.next, hlast, List.modifyLast_concat]
  obtain ⟨done, current, hexchanges, hcurrent, hanswers⟩ := hk.answered
  have hdone : done = done' := by
    have hlength : current.length = 1 := by
      have hlength := congrArg List.length hcurrent
      rwa [List.length_map] at hlength
    exact (List.append_inj' (hexchanges.symm.trans hlast) hlength).1
  subst hdone
  exact {
    introduced := hk.introduced
    answered := ⟨done, [⟨request, some (call, result)⟩], hnext, rfl, hanswers⟩
    forwarded := hk.forwarded
    channel := fun _ => hk.channel (.inl rfl)
    delivered := hk.delivered
    sound := ⟨done, _, hnext, rfl, rfl, .inl ⟨call, hdispatch, rfl⟩⟩
    fresh := by
      intro h
      cases h
    begun := fun _ => hk.begun rfl }

/-- An event emitted while a channel is registered is put at its end. -/
theorem Keeps.emit {payload : UpdateResponse} (hk : Keeps json link session) :
    Keeps json { link with events := link.events.map (· ++ [payload]) }
      (session.next json (.emitted payload)) where
  introduced := hk.introduced
  answered := hk.answered
  forwarded := by
    intro queue hq
    obtain ⟨before, hbefore, rfl⟩ := Option.map_eq_some_iff.1 hq
    change session.emitted ++ _ = _
    rw [hk.forwarded before hbefore, List.append_assoc]
    rfl
  channel := by
    intro h hnone
    exact hk.channel h (Option.map_eq_none_iff.1 hnone)
  delivered := hk.delivered
  sound := hk.sound
  fresh := hk.fresh
  begun := hk.begun

/-- The first event of the channel is taken to be sent. -/
theorem Keeps.take {backoff : ℕ} {payload : UpdateResponse} {queue : List UpdateResponse}
    (hk : Keeps json ⟨.draining, backoff, some (payload :: queue)⟩ session) :
    Keeps json ⟨.forwarding payload, backoff, some queue⟩ session where
  introduced := hk.introduced
  answered := hk.answered
  forwarded := by
    intro rest hq
    obtain rfl := Option.some.inj hq
    rw [hk.forwarded _ rfl]
    change session.events ++ [] ++ (payload :: queue) = session.events ++ [payload] ++ queue
    rw [List.append_nil, List.append_assoc, List.singleton_append]
  channel := by
    intro _ hnone
    cases hnone
  delivered := hk.delivered
  sound := trivial
  fresh := by
    intro h
    cases h
  begun := fun _ => hk.begun rfl

/-- A new connection: nothing has happened on it. -/
theorem keeps_empty (backoff : ℕ) :
    Keeps json ⟨.identifying, backoff, some []⟩ .empty where
  introduced := .inl rfl
  answered := ⟨[], [], rfl, rfl, .nil⟩
  forwarded := by
    intro queue hq
    obtain rfl := Option.some.inj hq
    rfl
  channel := by
    intro _ hnone
    cases hnone
  delivered := by
    intro sent last he
    exact absurd he.symm (List.append_ne_nil_of_right_ne_nil _ (List.cons_ne_nil _ _))
  sound := trivial
  fresh := fun _ => ⟨rfl, rfl⟩
  begun := by
    intro hs
    cases hs

theorem keeps_start : Keeps json .start .empty :=
  (keeps_empty 1).moves rfl rfl (.inr ⟨rfl, rfl⟩) trivial (by intro h; cases h)
    (by intro h; cases h)

theorem Keeps.step (hk : Keeps json link session) (hs : Step json link h link') :
    Keeps json link' (session.next json h) := by
  cases hs with
  | @connected _ _ ok | @configured _ _ ok =>
      cases ok <;> exact hk.moves rfl rfl (.inl rfl) trivial (by intro h; cases h)
        (by intro h; cases h)
  | registered => exact keeps_empty _
  | identify => exact hk.identify _
  | read => exact hk.read
  | call => exact hk.answer
  | reply => exact hk.reply _
  | take => exact hk.take
  | drained =>
      exact hk.moves rfl rfl (.inl rfl) trivial (by intro h; cases h) (fun _ => rfl)
  | forward => exact hk.forward _
  | cleared =>
      exact hk.moves rfl rfl (.inr ⟨rfl, rfl⟩) trivial (by intro h; cases h) (by intro h; cases h)
  | ended =>
      exact hk.moves rfl rfl (.inl rfl) trivial (by intro h; cases h) (by intro h; cases h)
  | slept =>
      exact hk.moves rfl rfl (.inl rfl) trivial (by intro h; cases h) (by intro h; cases h)
  | emit => exact hk.emit

end Steps

section Runs

variable {json} {link : Link} {tr : List (Move Link Happening)}

theorem session_append (m : Move Link Happening) :
    session json (tr ++ [m]) = (session json tr).next json m.event := by
  rw [session, List.map_append, List.foldl_append]
  rfl

def nextFailures (failures : ℕ) : Happening → ℕ
  | .ended true => 0
  | .slept _ => failures + 1
  | _ => failures

def failures (tr : List (Move Link Happening)) : ℕ := (tr.map (·.event)).foldl nextFailures 0

/-- Every pause is twice as long as the one before, up to thirty seconds, and the first one after
Moonraker closed a connection takes one second. -/
theorem backoff_eq (hr : Run (Step json) .start tr link) :
    link.backoff = min (2 ^ failures tr) MAX_BACKOFF := by
  apply hr.invariant (P := fun tr link => link.backoff = min (2 ^ failures tr) MAX_BACKOFF) rfl
  intro tr link h link' _ hb hs
  rw [failures, List.map_append, List.foldl_append]
  cases hs with
  | @ended backoff events closed =>
      cases closed with
      | true => rfl
      | false => exact hb
  | @slept backoff events =>
      change backoff = min (2 ^ failures tr) MAX_BACKOFF at hb
      change min (backoff * 2) MAX_BACKOFF = min (2 ^ (failures tr + 1)) MAX_BACKOFF
      rw [hb, pow_succ]
      omega
  | _ => exact hb

section Status

def statusText : Str := "\x7b\"method\":\"status\",\"id\":7\x7d"

def statusRequest : Request := ⟨.int 7, "status", .null⟩

def statusJson : JsonLibrary where
  fromStr text := if text = statusText then some (.obj [("method", .str "status"), ("id", .int 7)])
    else none
  toString _ := "\x7b\x7d"
  updateRequest _ := none

def building : UpdateResponse := ⟨"1-1", none, .build, "building", false, none⟩

theorem next_status : (Frame.text statusText).next statusJson = .asking statusRequest .status := rfl

def statusCourse : List Happening :=
  [.connected true, .configured true, .registered, .sent .identify true,
    .received (.text statusText), .emitted building, .answered .status (.ok (.obj [])),
    .sent (.reply ⟨.int 7, .ok (.obj [])⟩) true, .taken (some building),
    .sent (.event building) true, .taken none]

theorem runs_status : ∃ tr, tr.map (·.event) = statusCourse ∧
    Run (Step statusJson) .start tr ⟨.reading, 1, some []⟩ := by
  have hregistered : Run (Step statusJson) .start _ ⟨.identifying, 1, some []⟩ :=
    ((Run.start.next (@Step.connected _ 1 none true)).next
      (@Step.configured _ 1 none true)).next .registered
  have hread : Step statusJson ⟨.reading, 1, some []⟩ (.received (.text statusText))
      ⟨.asking statusRequest .status, 1, some []⟩ := next_status ▸ .read
  have hasked := (hregistered.next (@Step.identify _ 1 (some []) true)).next hread
  have hcall : ServiceCall.status.Returns (.ok (.obj [])) := ⟨_, rfl⟩
  have hreplying := (hasked.next (@Step.emit _ _ building)).next (.call hcall)
  have hdraining := hreplying.next (@Step.reply _ 1 _ statusRequest _ true)
  have hforwarding := hdraining.next .take
  have hforwarded := hforwarding.next (@Step.forward _ 1 (some []) building true)
  refine ⟨_, ?_, hforwarded.next .drained⟩
  rfl

end Status

end Runs

end Aldis.Agent.Connection
