import Aldis.Identify.Channel

/-!
# The dictionary that the exchange returns
-/

namespace Aldis.Identify

open Octets Scanner Machine Text

section Exact

variable {x x' : Exchange} {e : Event} {timeout : ℕ} {tr : List (Move Exchange Event)}
  {dict : Bytes}

/-- What the exchange has asked for, and how far what it has kept agrees with the dictionary. -/
structure Faithful (dict : Bytes) (tr : List (Move Exchange Event)) (x : Exchange) : Prop where
  keeps : Keeps block (received tr) x.decoder
  requests : ∀ bytes ∈ written tr, bytes = [MESSAGE_SYNC] ∨
    ∃ seq offset, bytes = identifyRequest seq offset IDENTIFY_CHUNK
  data : x.data <+: dict
  result : ∀ d, x.phase = .done (.ok d) → d = dict

theorem faithful_start : Faithful dict [] Exchange.start := by
  constructor
  · exact keeps_refl
  · intro bytes hb
    cases hb
  · exact List.nil_prefix
  · intro d hd
    cases hd

/-- The chunk that continues a prefix of the dictionary gives a longer prefix. -/
theorem extend_prefix {data : Bytes} (h : data <+: dict) (count : ℕ) :
    data ++ (dict.drop data.length).take count <+: dict := by
  obtain ⟨rest, rfl⟩ := h
  rw [List.drop_left, List.prefix_append_right_inj]
  exact List.take_prefix count rest

/-- The dictionary has nothing after a prefix where the next piece is empty. -/
theorem eq_of_no_more {data : Bytes} (h : data <+: dict) {count : ℕ} (hcount : 0 < count)
    (hempty : [] = (dict.drop data.length).take count) : data = dict := by
  obtain ⟨rest, rfl⟩ := h
  rw [List.drop_left, eq_comm, List.take_eq_nil_iff] at hempty
  rcases hempty with hzero | hrest
  · exact absurd hzero hcount.ne'
  · rw [hrest, List.append_nil]

theorem requests_step (hs : x.step timeout e = some x') :
    ∀ bytes ∈ written [⟨x, e⟩], bytes = [MESSAGE_SYNC] ∨
      ∃ seq offset, bytes = identifyRequest seq offset IDENTIFY_CHUNK := by
  intro bytes hbytes
  cases step_effect hs with
  | wrote sent answer he hb hdec hd hp =>
      subst he
      obtain rfl := List.mem_singleton.1 hbytes
      rcases hb with hb | hb
      · exact .inl hb
      · exact .inr ⟨_, _, hb⟩
  | waited he hdec hd hp =>
      rcases he with ⟨late, rfl⟩ | ⟨error, rfl⟩
      · cases hbytes
      · cases hbytes
  | read sent he hdec hd hp =>
      subst he
      cases hbytes
  | decoded late he hdec ha =>
      subst he
      cases hbytes

theorem keeps_step (hs : x.step timeout e = some x') (h : Keeps block (received tr) x.decoder) :
    Keeps block (received (tr ++ [⟨x, e⟩])) x'.decoder := by
  have hsame : ∀ e : Event, received [⟨x, e⟩] = [] →
      received (tr ++ [⟨x, e⟩]) = received tr := by
    intro e he
    rw [received_snoc, he, List.append_nil]
  cases step_effect hs with
  | wrote bytes answer he hb hdec hd hp =>
      rw [hdec, he, hsame _ rfl]
      exact h
  | waited he hdec hd hp =>
      rw [hdec]
      rcases he with ⟨late, rfl⟩ | ⟨error, rfl⟩
      · rw [hsame _ rfl]
        exact h
      · rw [hsame _ rfl]
        exact h
  | read bytes he hdec hd hp =>
      have hmore : received [⟨x, e⟩] = bytes := by
        rw [he]
        exact List.append_nil bytes
      rw [received_snoc, hmore, hdec]
      exact h.push bytes
  | decoded late he hdec ha =>
      rw [hdec, he, hsame _ rfl]
      cases hn : nextFrame x.decoder with
      | mk frame rest =>
          cases frame with
          | none => exact h.next_none steady_block hn
          | some frame => exact (h.next_some steady_block hn).2

/-- A frame that the decoder finds is one that the MCU has sent. -/
theorem sent_of_next {frame : Frame} (h : Faithful dict tr x) (hc : Channel dict tr)
    (hn : (nextFrame x.decoder).1 = some frame) : Sent dict (written tr) frame := by
  have hnext : nextFrame x.decoder = (some frame, (nextFrame x.decoder).2) := by
    rw [← hn]
  obtain ⟨hformed, -⟩ := h.keeps.next_some steady_block hnext
  exact hc tr (List.prefix_refl tr) frame hformed

theorem data_step (hs : x.step timeout e = some x') (h : Faithful dict tr x)
    (hc : Channel dict tr) :
    x'.data <+: dict ∧ ∀ d, x'.phase = .done (.ok d) → d = dict := by
  have hkept : x'.data = x.data → (∀ d, x'.phase ≠ .done (.ok d)) →
      x'.data <+: dict ∧ ∀ d, x'.phase = .done (.ok d) → d = dict := by
    intro hd hp
    rw [hd]
    exact ⟨h.data, fun d hdone => absurd hdone (hp d)⟩
  cases step_effect hs with
  | wrote bytes answer he hb hdec hd hp => exact hkept hd hp
  | waited he hdec hd hp => exact hkept hd hp
  | read bytes he hdec hd hp => exact hkept hd hp
  | decoded late he hdec ha =>
      cases ha with
      | ignored hd hp => exact hkept hd hp
      | extended found offset chunk hf hparse hoffset hcap hd hp =>
          have hchunk := (sent_of_next h hc hf).chunk_eq h.requests hparse
          rw [hoffset] at hchunk
          constructor
          · rw [hd, hchunk]
            exact extend_prefix h.data _
          · intro d hdone
            exact absurd hdone (hp d)
      | finished found offset hf hparse hoffset hd hp =>
          have hchunk := (sent_of_next h hc hf).chunk_eq h.requests hparse
          rw [hoffset] at hchunk
          have hall : x.data = dict := eq_of_no_more h.data (by decide) hchunk
          constructor
          · rw [hd]
            exact h.data
          · intro d hdone
            rw [hp, Phase.done.injEq, Except.ok.injEq] at hdone
            rw [← hdone, hall]

theorem Faithful.step (h : Faithful dict tr x) (hc : Channel dict (tr ++ [⟨x, e⟩]))
    (hs : x.step timeout e = some x') : Faithful dict (tr ++ [⟨x, e⟩]) x' := by
  obtain ⟨hdata, hresult⟩ := data_step hs h hc.of_snoc
  refine ⟨keeps_step hs h.keeps, ?_, hdata, hresult⟩
  intro bytes hbytes
  rw [written_snoc, List.mem_append] at hbytes
  rcases hbytes with hbytes | hbytes
  · exact h.requests bytes hbytes
  · exact requests_step hs bytes hbytes

theorem faithful (hr : Exchanges timeout tr x) (hc : Channel dict tr) : Faithful dict tr x := by
  apply hr.invariant_of hc
  · intro tr m hc
    exact hc.of_snoc
  · exact faithful_start
  · intro tr x e x' _ hc h hs
    exact h.step hc hs

/-- Over any port the data stays within the limit, and over a port that carries what an MCU sent,
the dictionary that the exchange returns is that MCU's. -/
theorem identify_over_exact (hr : Exchanges timeout tr x) :
    x.data.length ≤ MAX_DICTIONARY_BYTES ∧
      ∀ dict d, Channel dict tr → x.phase = .done (.ok d) → d = dict := by
  constructor
  · exact data_length_le hr
  · intro dict d hc hdone
    exact (faithful hr hc).result d hdone

end Exact

section Answered

variable {x : Exchange} {timeout : ℕ} {tr : List (Move Exchange Event)} {dict : Bytes}

theorem identifyResponse_length_le (offset : UInt32) (chunk : Bytes) :
    (identifyResponse offset chunk).length ≤ chunk.length + 7 := by
  have hid : (encodeVlq IDENTIFY_RESPONSE_ID).length = 1 := rfl
  have hoffset := encodeVlq_length_le offset
  unfold identifyResponse
  rw [List.length_append, List.length_append, List.length_cons]
  omega

def answer (dict : Bytes) (x : Exchange) : Bytes :=
  identifyResponse (UInt32.ofNat x.data.length)
    ((dict.drop x.data.length).take IDENTIFY_CHUNK.toNat)

theorem answer_length_le (dict : Bytes) (x : Exchange) :
    (answer dict x).length + MESSAGE_MIN ≤ MESSAGE_MAX := by
  have hmin : MESSAGE_MIN = 5 := rfl
  have hmax : MESSAGE_MAX = 64 := rfl
  have hchunk : ((dict.drop x.data.length).take IDENTIFY_CHUNK.toNat).length ≤ 40 :=
    List.length_take_le _ _
  have hlen := identifyResponse_length_le (UInt32.ofNat x.data.length)
    ((dict.drop x.data.length).take IDENTIFY_CHUNK.toNat)
  unfold answer
  omega

theorem ofNat_data_length (hr : Exchanges timeout tr x) :
    (UInt32.ofNat x.data.length).toNat = x.data.length := by
  have hmax : MAX_DICTIONARY_BYTES = 1048576 := rfl
  have hlen := data_length_le hr
  rw [UInt32.toNat_ofNat', Nat.mod_eq_of_lt (by omega)]

/-- One request that is answered at once. -/
theorem answered_round (hr : Exchanges timeout tr x) (hd : Delivers dict tr)
    (hphase : x.phase = .requesting) (hdec : x.decoder = []) :
    ∃ tr' x₀, Exchanges timeout tr' (Exchange.accept x₀ ⟨MESSAGE_DEST, answer dict x⟩) ∧
      Delivers dict tr' ∧ x₀.data = x.data ∧ x₀.decoder = [] := by
  have hsize : (encodeFrame 0 (answer dict x)).length ≤ MESSAGE_MAX := by
    rw [encodeFrame_length]
    exact answer_length_le dict x
  have hdest : MESSAGE_DEST ||| (0 &&& MESSAGE_SEQ_MASK) = MESSAGE_DEST := rfl
  have hnext := nextFrame_encodeFrame 0 [] (answer_length_le dict x)
  rw [List.append_nil, hdest] at hnext
  let x₁ : Exchange := { x with phase := .decoding }
  let x₂ : Exchange := { x with receivedFrame := x.receivedFrame || false, phase := .reading }
  let x₃ : Exchange := { x₂ with decoder := encodeFrame 0 (answer dict x), phase := .decoding }
  let x₄ : Exchange := { x₃ with decoder := [], receivedFrame := x₃.receivedFrame || true }
  have hwrote : x.step timeout (.wrote x.request (.ok ())) = some x₁ := by
    simp only [Exchange.step, hphase, ne_eq, not_true_eq_false, if_false]
    rfl
  have hnone : x₁.step timeout (.clock false) = some x₂ := by
    change some (x₁.decode timeout false) = some x₂
    have hempty : nextFrame x₁.decoder = (none, []) := congrArg nextFrame hdec
    unfold Exchange.decode
    rw [hempty]
    change some { x₂ with decoder := [] } = some x₂
    rw [← hdec]
  have hread : x₂.step timeout (.read (.ok (encodeFrame 0 (answer dict x)))) = some x₃ := by
    change (if (encodeFrame 0 (answer dict x)).length ≤ MESSAGE_MAX then
      some { x₃ with decoder := x.decoder ++ encodeFrame 0 (answer dict x) } else none) = some x₃
    rw [if_pos hsize, hdec]
    rfl
  have haccept : x₃.step timeout (.clock false) =
      some (x₄.accept ⟨MESSAGE_DEST, answer dict x⟩) := by
    change some (x₃.decode timeout false) = _
    have hframe : nextFrame x₃.decoder = (some ⟨MESSAGE_DEST, answer dict x⟩, []) := hnext
    unfold Exchange.decode
    rw [hframe]
    rfl
  have hr' := (((Run.next hr hwrote).next hnone).next hread).next haccept
  refine ⟨_, x₄, hr', ?_, rfl, rfl⟩
  refine .quiet (.frame (.quiet (.quiet hd rfl) rfl) 0 (answer dict x)
    (answer_length_le dict x) ?_ ?_) rfl
  · exact List.append_nil _
  · refine .response x.seq IDENTIFY_CHUNK (UInt32.ofNat x.data.length) [] ?_ ?_
    · rw [written_snoc, written_snoc]
      exact List.mem_append_left _ (List.mem_append_right _ (List.mem_singleton_self _))
    · rw [ofNat_data_length hr, List.append_nil]
      rfl

theorem parse_answer :
    parseIdentifyResponse (answer dict x) = some (UInt32.ofNat x.data.length,
      (dict.drop x.data.length).take IDENTIFY_CHUNK.toNat) := by
  have hlen : ((dict.drop x.data.length).take IDENTIFY_CHUNK.toNat).length ≤ 40 :=
    List.length_take_le _ _
  rw [answer, ← List.append_nil (identifyResponse _ _)]
  exact parse_identifyResponse _ [] (by omega)

/-- The answer to a request ends the exchange or gives it more of the dictionary. -/
theorem accept_answer (hr : Exchanges timeout tr x) (hdata : x.data <+: dict)
    (hcap : dict.length ≤ MAX_DICTIONARY_BYTES) {x₀ : Exchange} (heq : x₀.data = x.data) :
    (x₀.accept ⟨MESSAGE_DEST, answer dict x⟩).phase = .done (.ok dict) ∨
      ((x₀.accept ⟨MESSAGE_DEST, answer dict x⟩).phase = .deadline ∧
        (x₀.accept ⟨MESSAGE_DEST, answer dict x⟩).data <+: dict ∧
        x.data.length < (x₀.accept ⟨MESSAGE_DEST, answer dict x⟩).data.length) := by
  have hoffset := ofNat_data_length hr
  have hnext := extend_prefix hdata IDENTIFY_CHUNK.toNat
  have hfits : ¬ x.data.length + ((dict.drop x.data.length).take IDENTIFY_CHUNK.toNat).length >
      MAX_DICTIONARY_BYTES := by
    have hlen := hnext.length_le
    rw [List.length_append] at hlen
    omega
  unfold Exchange.accept
  simp only [parse_answer, hoffset, heq, hfits, ne_eq, not_true_eq_false, if_false]
  by_cases hempty : (dict.drop x.data.length).take IDENTIFY_CHUNK.toNat = []
  · rw [if_pos hempty]
    left
    rw [eq_of_no_more hdata (by decide) hempty.symm]
    rfl
  · rw [if_neg hempty]
    have hpos := List.length_pos_of_ne_nil hempty
    refine .inr ⟨rfl, hnext, ?_⟩
    change x.data.length < (x.data ++ (dict.drop x.data.length).take IDENTIFY_CHUNK.toNat).length
    rw [List.length_append]
    omega

theorem completes_of_deadline (hcap : dict.length ≤ MAX_DICTIONARY_BYTES) (n : ℕ)
    (hr : Exchanges timeout tr x) (hd : Delivers dict tr) (hphase : x.phase = .deadline)
    (hdec : x.decoder = []) (hdata : x.data <+: dict) (hn : dict.length < x.data.length + n) :
    ∃ tr x, Exchanges timeout tr x ∧ Delivers dict tr ∧ x.phase = .done (.ok dict) := by
  induction n generalizing x tr with
  | zero =>
      have hlen := hdata.length_le
      omega
  | succ n ih =>
      have hclock : x.step timeout (.clock false) = some { x with phase := .requesting } := by
        simp only [Exchange.step, hphase, Bool.false_eq_true, if_false]
      have hr' := Run.next hr hclock
      obtain ⟨tr', x₀, hr₀, hd₀, heq, hdec₀⟩ := answered_round hr' (hd.quiet rfl) rfl hdec
      rcases accept_answer hr' hdata hcap heq with hdone | ⟨hphase', hdata', hmore⟩
      · exact ⟨tr', _, hr₀, hd₀, hdone⟩
      · apply ih hr₀ hd₀ hphase' (accept_decoder.trans hdec₀) hdata'
        change x.data.length < _ at hmore
        omega

/-- An MCU that answers each request at once gets its dictionary through, whatever the dictionary
is, as long as it is not longer than the limit. -/
theorem identify_over_completes (dict : Bytes) (timeout : ℕ)
    (hcap : dict.length ≤ MAX_DICTIONARY_BYTES) :
    ∃ tr x, Exchanges timeout tr x ∧ Channel dict tr ∧ x.phase = .done (.ok dict) := by
  have hr : Exchanges timeout ([] ++ [⟨Exchange.start, .wrote [MESSAGE_SYNC] (.ok ())⟩])
      { Exchange.start with phase := .deadline } := .next .start rfl
  obtain ⟨tr, x, hr, hd, hdone⟩ := completes_of_deadline hcap (dict.length + 1) hr
    (.quiet .start rfl) rfl rfl List.nil_prefix (Nat.lt_of_lt_of_le (Nat.lt_succ_self _)
      (Nat.le_add_left _ _))
  exact ⟨tr, x, hr, hd.channel, hdone⟩

theorem identify_over_exact_when_answered :
    ∃ tr x, Exchanges 15000 tr x ∧ Channel [0x78, 0x9c, 0x03, 0x00] tr ∧
      x.phase = .done (.ok [0x78, 0x9c, 0x03, 0x00]) ∧ x.data.length ≤ MAX_DICTIONARY_BYTES ∧
      ∀ dict, Channel dict tr → [0x78, 0x9c, 0x03, 0x00] = dict := by
  obtain ⟨tr, x, hr, hc, hdone⟩ :=
    identify_over_completes [0x78, 0x9c, 0x03, 0x00] 15000 (by decide)
  obtain ⟨hlen, hexact⟩ := identify_over_exact hr
  exact ⟨tr, x, hr, hc, hdone, hlen, fun dict hc => hexact dict _ hc hdone⟩

end Answered

end Aldis.Identify
