import Aldis.Identify.Frame
import Aldis.Lib.Machine
import Aldis.Lib.Text

/-!
# The identify exchange

The exchange asks for one chunk of the dictionary after another, over a port that may lose, repeat
and mix up what the MCU answers. Whatever frame arrives is taken for progress: it sets the sequence
number, and the next request goes out. Only the chunk that continues the data is kept.
-/

namespace Aldis.Identify

open Octets Scanner Machine Text

/-- The most compressed dictionary that is accumulated. -/
def MAX_DICTIONARY_BYTES : ℕ := 1024 * 1024

inductive IdentifyError where
  | noResponse
  | timeout (timeout : ℕ)
  | dictionaryTooLarge (limit : ℕ)
  | io (error : Str)
  deriving DecidableEq

/-- Why a read gave no bytes. -/
inductive ReadError where
  | timedOut
  | wouldBlock
  | other (error : Str)
  deriving DecidableEq

inductive Phase where
  /-- About to write the byte that ends whatever block the MCU is in. -/
  | opening
  | deadline
  | requesting
  | decoding
  | reading
  | done (result : Except IdentifyError Bytes)

structure Exchange where
  decoder : Bytes
  seq : UInt8
  data : Bytes
  receivedFrame : Bool
  phase : Phase

inductive Event where
  | wrote (bytes : Bytes) (answer : Except Str Unit)
  | clock (late : Bool)
  | read (answer : Except ReadError Bytes)

namespace Exchange

def start : Exchange := ⟨[], 0, [], false, .opening⟩

def finish (x : Exchange) (result : Except IdentifyError Bytes) : Exchange :=
  { x with phase := .done result }

/-- The deadline has passed: before any frame, the MCU never answered. -/
def expire (x : Exchange) (timeout : ℕ) : Exchange :=
  x.finish (.error (if x.receivedFrame then .timeout timeout else .noResponse))

def request (x : Exchange) : Bytes :=
  identifyRequest x.seq (UInt32.ofNat x.data.length) IDENTIFY_CHUNK

def accept (x : Exchange) (frame : Frame) : Exchange :=
  let x := { x with seq := frame.seq &&& MESSAGE_SEQ_MASK, phase := .deadline }
  match parseIdentifyResponse frame.payload with
  | none => x
  | some (offset, chunk) =>
    if offset.toNat ≠ x.data.length then x
    else if x.data.length + chunk.length > MAX_DICTIONARY_BYTES then
      x.finish (.error (.dictionaryTooLarge MAX_DICTIONARY_BYTES))
    else if chunk = [] then x.finish (.ok x.data)
    else { x with data := x.data ++ chunk }

def decode (x : Exchange) (timeout : ℕ) (late : Bool) : Exchange :=
  let (frame, decoder) := nextFrame x.decoder
  let x := { x with decoder, receivedFrame := x.receivedFrame || frame.isSome }
  if late then x.expire timeout
  else match frame with
    | some frame => x.accept frame
    | none => { x with phase := .reading }

/-- One write, read or look at the clock, and what is done with its answer. -/
def step (timeout : ℕ) (x : Exchange) : Event → Option Exchange
  | .wrote bytes answer => match x.phase with
    | .opening =>
      if bytes ≠ [MESSAGE_SYNC] then none
      else match answer with
        | .ok () => some { x with phase := .deadline }
        | .error error => some (x.finish (.error (.io error)))
    | .requesting =>
      if bytes ≠ x.request then none
      else match answer with
        | .ok () => some { x with phase := .decoding }
        | .error error => some (x.finish (.error (.io error)))
    | _ => none
  | .clock late => match x.phase with
    | .deadline => some (if late then x.expire timeout else { x with phase := .requesting })
    | .decoding => some (x.decode timeout late)
    | _ => none
  | .read answer => match x.phase with
    | .reading => match answer with
      | .ok bytes =>
        if bytes.length ≤ MESSAGE_MAX then
          some { x with decoder := x.decoder ++ bytes, phase := .decoding }
        else none
      | .error (.other error) => some (x.finish (.error (.io error)))
      | .error _ => some { x with phase := .decoding }
    | _ => none

end Exchange

abbrev Exchanges (timeout : ℕ) (tr : List (Move Exchange Event)) (x : Exchange) : Prop :=
  Run (fun x e x' => x.step timeout e = some x') Exchange.start tr x

section Step

variable {x x' : Exchange} {e : Event} {timeout : ℕ} {frame : Frame}

inductive Accepted (x : Exchange) (frame : Option Frame) (x' : Exchange) : Prop
  | ignored (hd : x'.data = x.data) (hp : ∀ d, x'.phase ≠ .done (.ok d))
  | extended (found : Frame) (offset : UInt32) (chunk : Bytes) (hf : frame = some found)
      (hparse : parseIdentifyResponse found.payload = some (offset, chunk))
      (hoffset : offset.toNat = x.data.length)
      (hcap : x.data.length + chunk.length ≤ MAX_DICTIONARY_BYTES)
      (hd : x'.data = x.data ++ chunk) (hp : ∀ d, x'.phase ≠ .done (.ok d))
  | finished (found : Frame) (offset : UInt32) (hf : frame = some found)
      (hparse : parseIdentifyResponse found.payload = some (offset, []))
      (hoffset : offset.toNat = x.data.length) (hd : x'.data = x.data)
      (hp : x'.phase = .done (.ok x.data))

theorem accept_accepted : Accepted x (some frame) (x.accept frame) := by
  unfold Exchange.accept
  cases hparse : parseIdentifyResponse frame.payload with
  | none => exact .ignored rfl nofun
  | some found =>
      obtain ⟨offset, chunk⟩ := found
      by_cases hoffset : offset.toNat ≠ x.data.length
      · simp only [hoffset, not_false_eq_true, ne_eq, if_true]
        exact .ignored rfl nofun
      · rw [not_not] at hoffset
        by_cases hcap : x.data.length + chunk.length > MAX_DICTIONARY_BYTES
        · simp only [hoffset, hcap, ne_eq, not_true_eq_false, if_false, if_true]
          exact .ignored rfl nofun
        · by_cases hempty : chunk = []
          · subst hempty
            simp only [hoffset, hcap, ne_eq, not_true_eq_false, if_false, if_true]
            exact .finished frame offset rfl hparse hoffset rfl rfl
          · simp only [hoffset, hcap, hempty, ne_eq, not_true_eq_false, if_false]
            exact .extended frame offset chunk rfl hparse hoffset (not_lt.1 hcap) rfl nofun

theorem accept_decoder : (x.accept frame).decoder = x.decoder := by
  unfold Exchange.accept
  cases parseIdentifyResponse frame.payload with
  | none => rfl
  | some found =>
      obtain ⟨offset, chunk⟩ := found
      simp only []
      split_ifs
      · rfl
      · rfl
      · rfl
      · rfl

theorem decode_decoder {late : Bool} :
    (x.decode timeout late).decoder = (nextFrame x.decoder).2 := by
  unfold Exchange.decode
  cases late with
  | true => rfl
  | false =>
      cases hn : nextFrame x.decoder with
      | mk frame rest =>
          cases frame with
          | none => rfl
          | some frame => exact accept_decoder

theorem decode_accepted {late : Bool} :
    Accepted x (nextFrame x.decoder).1 (x.decode timeout late) := by
  unfold Exchange.decode
  cases late with
  | true => exact .ignored rfl nofun
  | false =>
      cases hn : nextFrame x.decoder with
      | mk frame rest =>
          cases frame with
          | none => exact .ignored rfl nofun
          | some frame =>
              let x₀ : Exchange :=
                { x with decoder := rest, receivedFrame := x.receivedFrame || true }
              have hx : Accepted x₀ (some frame) (x₀.accept frame) := accept_accepted
              cases hx with
              | ignored hd hp => exact .ignored hd hp
              | extended found offset chunk hf hparse hoffset hcap hd hp =>
                  exact .extended found offset chunk hf hparse hoffset hcap hd hp
              | finished found offset hf hparse hoffset hd hp =>
                  exact .finished found offset hf hparse hoffset hd hp

inductive Effect (x : Exchange) (e : Event) (x' : Exchange) : Prop
  | wrote (bytes : Bytes) (answer : Except Str Unit) (he : e = .wrote bytes answer)
      (hb : bytes = [MESSAGE_SYNC] ∨ bytes = x.request) (hdec : x'.decoder = x.decoder)
      (hd : x'.data = x.data) (hp : ∀ d, x'.phase ≠ .done (.ok d))
  | waited (he : (∃ late, e = .clock late) ∨ ∃ error, e = .read (.error error))
      (hdec : x'.decoder = x.decoder) (hd : x'.data = x.data) (hp : ∀ d, x'.phase ≠ .done (.ok d))
  | read (bytes : Bytes) (he : e = .read (.ok bytes)) (hdec : x'.decoder = x.decoder ++ bytes)
      (hd : x'.data = x.data) (hp : ∀ d, x'.phase ≠ .done (.ok d))
  | decoded (late : Bool) (he : e = .clock late) (hdec : x'.decoder = (nextFrame x.decoder).2)
      (ha : Accepted x (nextFrame x.decoder).1 x')

theorem step_effect (h : x.step timeout e = some x') : Effect x e x' := by
  cases e with
  | wrote bytes answer =>
      unfold Exchange.step at h
      cases hphase : x.phase with
      | opening =>
          simp only [hphase] at h
          split_ifs at h with hbytes
          rw [ne_eq, not_not] at hbytes
          cases answer with
          | ok _ =>
              obtain rfl := Option.some.inj h
              exact .wrote bytes _ rfl (.inl hbytes) rfl rfl nofun
          | error error =>
              obtain rfl := Option.some.inj h
              exact .wrote bytes _ rfl (.inl hbytes) rfl rfl nofun
      | requesting =>
          simp only [hphase] at h
          split_ifs at h with hbytes
          rw [ne_eq, not_not] at hbytes
          cases answer with
          | ok _ =>
              obtain rfl := Option.some.inj h
              exact .wrote bytes _ rfl (.inr hbytes) rfl rfl nofun
          | error error =>
              obtain rfl := Option.some.inj h
              exact .wrote bytes _ rfl (.inr hbytes) rfl rfl nofun
      | _ =>
          simp only [hphase] at h
          cases h
  | clock late =>
      unfold Exchange.step at h
      cases hphase : x.phase with
      | deadline =>
          simp only [hphase] at h
          obtain rfl := Option.some.inj h
          cases late with
          | true => exact .waited (.inl ⟨_, rfl⟩) rfl rfl nofun
          | false => exact .waited (.inl ⟨_, rfl⟩) rfl rfl nofun
      | decoding =>
          simp only [hphase] at h
          obtain rfl := Option.some.inj h
          exact .decoded late rfl decode_decoder decode_accepted
      | _ =>
          simp only [hphase] at h
          cases h
  | read answer =>
      unfold Exchange.step at h
      cases hphase : x.phase with
      | reading =>
          simp only [hphase] at h
          cases answer with
          | ok bytes =>
              simp only [] at h
              split_ifs at h
              obtain rfl := Option.some.inj h
              exact .read bytes rfl rfl rfl nofun
          | error error =>
              cases error with
              | timedOut =>
                  obtain rfl := Option.some.inj h
                  exact .waited (.inr ⟨_, rfl⟩) rfl rfl nofun
              | wouldBlock =>
                  obtain rfl := Option.some.inj h
                  exact .waited (.inr ⟨_, rfl⟩) rfl rfl nofun
              | other error =>
                  obtain rfl := Option.some.inj h
                  exact .waited (.inr ⟨_, rfl⟩) rfl rfl nofun
      | _ =>
          simp only [hphase] at h
          cases h

end Step

section Bound

variable {x x' : Exchange} {e : Event} {timeout : ℕ} {tr : List (Move Exchange Event)}

theorem step_data_length_le (h : x.step timeout e = some x')
    (hx : x.data.length ≤ MAX_DICTIONARY_BYTES) : x'.data.length ≤ MAX_DICTIONARY_BYTES := by
  cases step_effect h with
  | wrote bytes answer he hb hdec hd hp => rw [hd]; exact hx
  | waited he hdec hd hp => rw [hd]; exact hx
  | read bytes he hdec hd hp => rw [hd]; exact hx
  | decoded late he hdec ha =>
      cases ha with
      | ignored hd hp => rw [hd]; exact hx
      | extended found offset chunk hf hparse hoffset hcap hd hp =>
          rw [hd, List.length_append]
          exact hcap
      | finished found offset hf hparse hoffset hd hp => rw [hd]; exact hx

theorem data_length_le (hr : Exchanges timeout tr x) : x.data.length ≤ MAX_DICTIONARY_BYTES := by
  apply hr.invariant (P := fun _ x => x.data.length ≤ MAX_DICTIONARY_BYTES)
  · exact Nat.zero_le _
  · intro tr x e x' _ hx hs
    exact step_data_length_le hs hx

end Bound

end Aldis.Identify
