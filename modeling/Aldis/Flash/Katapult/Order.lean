import Aldis.Flash.Katapult.Adapter
import Aldis.Flash.Katapult.Device

/-!
# The order of Katapult requests

What the replies of an execution have established so far, whatever the transport did, and which
request a flash may send next. The transport is not restricted at all.
-/

namespace Aldis.Katapult

open Interaction World Octets Text

/-- What the requests and replies so far have established. -/
structure Progress where
  sent : List (Option Command)
  target : Option KatapultTarget
  uuid : Option ℕ
  acknowledged : ℕ
  eof : Bool
  readBack : ℕ
  verified : Bytes

namespace Progress

def start : Progress := ⟨[], none, none, 0, false, 0, []⟩

/-- A valid reply to `command`: a `CONNECT` establishes the target, a `SEND_BLOCK` counts when it
acknowledges the address it was sent for, and a `REQUEST_BLOCK` when it answers for its own. -/
def accept (p : Progress) (command : Command) (payload data : Bytes) : Progress :=
  match command with
  | .connect => match connection data with
    | .ok connection => { p with target := some connection.target }
    | .error _ => p
  | .getCanbusId => match canbusUuid data with
    | .ok uuid => { p with uuid := some uuid }
    | .error _ => p
  | .sendBlock =>
    if responseU32 .sendBlock data = .ok (fromLe32 payload) then
      { p with acknowledged := p.acknowledged + 1 }
    else p
  | .sendEof => match responseU32 .sendEof data with
    | .ok _ => { p with eof := true }
    | .error _ => p
  | .requestBlock =>
    if (∃ target ∈ p.target, data.length = 4 + target.blockSize) ∧
        responseU32 .requestBlock data = .ok (fromLe32 payload) then
      { p with readBack := p.readBack + 1, verified := p.verified ++ data.drop 4 }
    else p
  | .complete => p

def next {ε : Type} (p : Progress) (ev : Sigma (Exchange ε)) : Progress :=
  let p' := { p with sent := p.sent ++ [(parseRequest ev.1).map Prod.fst] }
  match parseRequest ev.1 with
  | some (command, payload) => match accepted command ev.2 with
    | some data => p'.accept command payload data
    | none => p'
  | none => p'

theorem accept_sent (p : Progress) (command : Command) (payload data : Bytes) :
    (p.accept command payload data).sent = p.sent := by
  unfold accept
  cases command <;> dsimp only <;> split <;> rfl

theorem next_sent {ε : Type} (p : Progress) (ev : Sigma (Exchange ε)) :
    (p.next ev).sent = p.sent ++ [(parseRequest ev.1).map Prod.fst] := by
  unfold next
  dsimp only
  split
  · split
    · rw [accept_sent]
    · rfl
  · rfl

/-- The progress at the end of a trace names the command of each of its requests. -/
theorem foldl_next_sent {ε : Type} (p : Progress) (tr : List (Sigma (Exchange ε))) :
    (tr.foldl next p).sent = p.sent ++ tr.map (fun ev => (parseRequest ev.1).map Prod.fst) := by
  induction tr generalizing p with
  | nil => simp
  | cons ev tr ih => rw [List.foldl_cons, ih, next_sent]; simp

end Progress

section Requests

variable (sha1 : Bytes → Bytes) (adapter : KatapultAdapter) (firmware : Bytes)

/-- The session is with the expected node, and its Katapult starts applications where expected. -/
structure Agreed (p : Progress) (target : KatapultTarget) : Prop where
  connected : p.target = some target
  uuid : ∀ uuid, adapter.expectedCanbusUuid = some uuid → p.uuid = some uuid
  start : ∀ start, adapter.expectedApplicationStart = some start →
    target.applicationStart = start

/-- The node is the expected one and nothing has been written, but Katapult starts applications
somewhere else than expected. -/
structure Refused (p : Progress) (target : KatapultTarget) : Prop where
  connected : p.target = some target
  uuid : ∀ uuid, adapter.expectedCanbusUuid = some uuid → p.uuid = some uuid
  start : ∃ start, adapter.expectedApplicationStart = some start ∧
    target.applicationStart ≠ start

/-- Which request may follow, given what has been established. -/
def MaySend (p : Progress) (payload : Bytes) : Command → Prop
  | .connect => p.target = none ∧ payload = []
  | .getCanbusId => p.target.isSome ∧ adapter.expectedCanbusUuid.isSome ∧ payload = []
  | .sendBlock => ∃ target address, Agreed adapter p target ∧
      p.acknowledged < divCeil firmware.length target.blockSize ∧
      address.toNat = target.applicationStart.toNat + p.acknowledged * target.blockSize ∧
      payload = le32 address ++
        paddedBlock (chunk target.blockSize p.acknowledged firmware) target.blockSize
  | .sendEof => ∃ target, Agreed adapter p target ∧
      p.acknowledged = divCeil firmware.length target.blockSize ∧ payload = []
  | .requestBlock => ∃ target address, Agreed adapter p target ∧ p.eof = true ∧
      p.acknowledged = divCeil firmware.length target.blockSize ∧
      p.readBack < divCeil firmware.length target.blockSize ∧
      address.toNat = target.applicationStart.toNat + p.readBack * target.blockSize ∧
      payload = le32 address
  | .complete => payload = [] ∧ ((∃ target, Refused adapter p target) ∨
      ∃ target, Agreed adapter p target ∧ p.eof = true ∧
        p.readBack = divCeil firmware.length target.blockSize ∧
        sha1 (paddedFirmware target.blockSize firmware) = sha1 p.verified)

def Allowed (p : Progress) (request : Bytes) : Prop :=
  ∃ command payload, parseRequest request = some (command, payload) ∧
    MaySend sha1 adapter firmware p payload command

end Requests

section Requests

variable {sha1 : Bytes → Bytes} {adapter : KatapultAdapter} {firmware payload : Bytes}
  {p q : Progress} {target : KatapultTarget} {command : Command}

theorem Agreed.of_established (h : Agreed adapter p target) (ht : q.target = p.target)
    (hu : q.uuid = p.uuid) : Agreed adapter q target :=
  ⟨ht.trans h.connected, fun uuid he => hu.trans (h.uuid uuid he), h.start⟩

theorem Refused.of_established (h : Refused adapter p target) (ht : q.target = p.target)
    (hu : q.uuid = p.uuid) : Refused adapter q target :=
  ⟨ht.trans h.connected, fun uuid he => hu.trans (h.uuid uuid he), h.start⟩

/-- What may follow does not depend on the requests that established nothing. -/
theorem MaySend.of_sent (h : MaySend sha1 adapter firmware p payload command)
    (hq : q = { p with sent := q.sent }) : MaySend sha1 adapter firmware q payload command := by
  have ht : q.target = p.target := by rw [hq]
  have hu : q.uuid = p.uuid := by rw [hq]
  have ha : q.acknowledged = p.acknowledged := by rw [hq]
  have he : q.eof = p.eof := by rw [hq]
  have hb : q.readBack = p.readBack := by rw [hq]
  have hv : q.verified = p.verified := by rw [hq]
  cases command with
  | connect => exact ⟨ht.trans h.1, h.2⟩
  | getCanbusId => exact ⟨ht ▸ h.1, h.2⟩
  | sendBlock =>
    obtain ⟨target, address, hagree, hlt, haddr, hpay⟩ := h
    exact ⟨target, address, hagree.of_established ht hu, ha ▸ hlt, ha ▸ haddr, ha ▸ hpay⟩
  | sendEof =>
    obtain ⟨target, hagree, hall, hpay⟩ := h
    exact ⟨target, hagree.of_established ht hu, ha ▸ hall, hpay⟩
  | requestBlock =>
    obtain ⟨target, address, hagree, heof, hall, hlt, haddr, hpay⟩ := h
    exact ⟨target, address, hagree.of_established ht hu, he ▸ heof, ha ▸ hall, hb ▸ hlt,
      hb ▸ haddr, hpay⟩
  | complete =>
    obtain ⟨hpay, ⟨target, hrefused⟩ | ⟨target, hagree, heof, hall, hsum⟩⟩ := h
    · exact ⟨hpay, .inl ⟨target, hrefused.of_established ht hu⟩⟩
    · exact ⟨hpay, .inr ⟨target, hagree.of_established ht hu, he ▸ heof, hb ▸ hall, hv ▸ hsum⟩⟩

end Requests

namespace Progress

structure Retried (p : Progress) (command : Command) (q : Progress) : Prop where
  eq : q = { p with sent := q.sent }
  sent : ∀ c ∈ q.sent, c ∈ p.sent ∨ c = some command

theorem Retried.refl (p : Progress) (command : Command) : p.Retried command p :=
  ⟨rfl, fun _ h => .inl h⟩

theorem Retried.trans {p q r : Progress} {command : Command} (h : p.Retried command q)
    (h' : q.Retried command r) : p.Retried command r := by
  refine ⟨?_, ?_⟩
  · rw [h'.eq, h.eq]
  · intro c hc
    exact (h'.sent c hc).elim (h.sent c) .inr

theorem Retried.next {ε : Type} {p q : Progress} {command : Command} {payload request : Bytes}
    {answer : Except ε Bytes} (h : p.Retried command q)
    (hr : parseRequest request = some (command, payload)) (ha : accepted command answer = none) :
    p.Retried command (q.next ⟨request, answer⟩) := by
  have hs := next_sent q ⟨request, answer⟩
  simp only [hr, Option.map_some] at hs
  refine ⟨?_, ?_⟩
  · rw [hs, h.eq]
    simp only [Progress.next, hr, ha, Option.map_some]
  · rw [hs]
    intro c hc
    rcases List.mem_append.1 hc with hc | hc
    · exact h.sent c hc
    · exact .inr (List.mem_singleton.1 hc)

end Progress

section Order

variable {ε : Type} [Debug ε] {sha1 : Bytes → Bytes} {adapter : KatapultAdapter}
  {firmware : Bytes}

/-- The world that follows the progress and allows only what `Allowed` does. -/
abbrev ordered (ε : Type) (sha1 : Bytes → Bytes) (adapter : KatapultAdapter) (firmware : Bytes) :
    World (Exchange ε) Progress :=
  tracking Progress.next (Allowed sha1 adapter firmware)

/-- A command that may be sent is retried without progress until one reply is accepted. -/
theorem command_ordered {c : Command} {payload : Bytes} {p : Progress} {Q : Bytes → Progress → Prop}
    {R : SessionError → Progress → Prop}
    (hp : ∀ q, p.Retried c q → MaySend sha1 adapter firmware q payload c)
    (hq : ∀ q data, p.Retried c q → Q data (q.accept c payload data))
    (hr : ∀ q e, p.Retried c q → (∀ expected actual, e ≠ .canbusUuidMismatch expected actual) →
      R e q) :
    (ordered ε sha1 adapter firmware).EnsuresOr (command c payload) p Q R := by
  refine command_ensures (I := fun q => p.Retried c q) ?_ ?_ ?_ ?_ p (.refl p c)
  · intro q request hI he
    exact ⟨c, payload, parseRequest_of_encodeCommand he, hp q hI⟩
  · intro q request answer q' hI he hs ha
    have hs : q' = q.next ⟨request, answer⟩ := hs
    exact hs ▸ hI.next (parseRequest_of_encodeCommand he) ha
  · intro q request answer q' data hI he hs ha
    have hs : q' = q.next ⟨request, answer⟩ := hs
    have hn : q.next ⟨request, answer⟩ =
        { q with sent := q.sent ++ [some c] }.accept c payload data := by
      simp only [Progress.next, parseRequest_of_encodeCommand he, ha, Option.map_some]
    rw [hs, hn]
    refine hq _ data ⟨?_, ?_⟩
    · rw [hI.eq]
    · intro x hx
      rcases List.mem_append.1 hx with hx | hx
      · exact hI.sent x hx
      · exact .inr (List.mem_singleton.1 hx)
  · exact fun q e hI he => hr q e hI he

variable {p : Progress} {target : KatapultTarget} {R : SessionError → Progress → Prop}

/-- Errors that are no UUID mismatch, and so say nothing about what was sent. -/
def Unrelated (R : SessionError → Progress → Prop) : Prop :=
  ∀ q e, (∀ expected actual, e ≠ .canbusUuidMismatch expected actual) → R e q

theorem responseU32_error {c : Command} {response : Bytes} {e : SessionError}
    (h : responseU32 c response = .error e) (expected actual : ℕ) :
    e ≠ .canbusUuidMismatch expected actual := by
  unfold responseU32 at h
  split_ifs at h
  rw [← Except.error.inj h]
  simp

theorem blockAddress_error {index : ℕ} {e : SessionError}
    (h : blockAddress target index = .error e) (expected actual : ℕ) :
    e ≠ .canbusUuidMismatch expected actual := by
  have he : e = .addressOverflow := by
    unfold blockAddress at h
    split_ifs at h
    · split at h
      · cases h
      · exact (Except.error.inj h).symm
    · exact (Except.error.inj h).symm
  rw [he]
  simp

theorem writeBlockAttempts_ordered {index : ℕ} {address : UInt32} (ha : Agreed adapter p target)
    (hi : p.acknowledged = index) (hlt : index < divCeil firmware.length target.blockSize)
    (haddr : blockAddress target index = .ok address) (hR : Unrelated R) (n : ℕ) (actual : UInt32)
    (q : Progress) (hq : p.Retried .sendBlock q) :
    (ordered ε sha1 adapter firmware).EnsuresOr
      (writeBlockAttempts address
        (paddedBlock (chunk target.blockSize index firmware) target.blockSize) n actual) q
      (fun _ q' => q' = { p with sent := q'.sent, acknowledged := index + 1 }) R := by
  induction n generalizing actual q with
  | zero => exact hR q _ (by simp)
  | succ n ih =>
    rw [writeBlockAttempts, ensuresOr_bind]
    have hmay : MaySend sha1 adapter firmware p (le32 address ++
        paddedBlock (chunk target.blockSize index firmware) target.blockSize) .sendBlock :=
      ⟨target, address, ha, hi ▸ hlt, hi ▸ blockAddress_eq_ok haddr, hi ▸ rfl⟩
    apply command_ordered
    · intro q' hq'
      exact hmay.of_sent (hq.trans hq').eq
    · intro q' data hq'
      have hnow := hq.trans hq'
      have heq : q' = { p with sent := q'.sent } := hnow.eq
      rw [ensuresOr_bind, ensuresOr_ofExcept]
      cases hu : responseU32 .sendBlock data with
      | error e => exact hR _ e (responseU32_error hu)
      | ok acknowledged =>
        change World.EnsuresOr _ (if acknowledged = address then _ else _) _ _ _
        have haccept : q'.accept .sendBlock (le32 address ++
            paddedBlock (chunk target.blockSize index firmware) target.blockSize) data =
            if acknowledged = address then { q' with acknowledged := q'.acknowledged + 1 }
            else q' := by
          simp only [Progress.accept, hu, fromLe32_le32, Except.ok.injEq]
        rw [haccept]
        by_cases hc : acknowledged = address
        · rw [if_pos hc, if_pos hc, ensuresOr_pure, heq, hi]
        · rw [if_neg hc, if_neg hc]
          exact ih acknowledged q' hnow
    · exact fun q' e _ he => hR q' e he

/-- The blocks from `index` on, when all before it are acknowledged. -/
theorem writeBlocks_ordered (k index : ℕ) (written : Bytes) (hR : Unrelated R)
    (ha : Agreed adapter p target) (hi : p.acknowledged = index)
    (hk : index + k = divCeil firmware.length target.blockSize) :
    (ordered ε sha1 adapter firmware).EnsuresOr
      (writeBlocks target index written
        ((List.range' index k).map (fun i => chunk target.blockSize i firmware))) p
      (fun w q => q = { p with sent := q.sent, acknowledged := index + k } ∧
        w = written ++ ((List.range' index k).map
          (fun i => chunk target.blockSize i firmware)).flatMap
            (paddedBlock · target.blockSize)) R := by
  induction k generalizing index written p with
  | zero =>
    rw [List.range'_zero, List.map_nil, writeBlocks, ensuresOr_pure]
    refine ⟨?_, by simp⟩
    rw [← hi]
    rfl
  | succ k ih =>
    rw [List.range'_succ, List.map_cons, writeBlocks, ensuresOr_bind, ensuresOr_ofExcept]
    cases haddr : blockAddress target index with
    | error e => exact hR p e (blockAddress_error haddr)
    | ok address =>
      change World.EnsuresOr _ _ _ _ _
      rw [ensuresOr_bind]
      refine (writeBlockAttempts_ordered ha hi (by omega) haddr hR BLOCK_ATTEMPTS 0 p
        (.refl p _)).mono ?_ fun _ _ h => h
      intro _ q hq
      have hagree : Agreed adapter q target := by
        rw [hq]
        exact ⟨ha.connected, ha.uuid, ha.start⟩
      refine (ih (index + 1) _ hagree (by rw [hq]) (by omega)).mono ?_
        fun _ _ h => h
      intro w q' hq'
      refine ⟨?_, ?_⟩
      · rw [hq'.1, hq]
        simp only [Progress.mk.injEq, true_and, and_true]
        omega
      · rw [hq'.2, List.flatMap_cons, List.append_assoc]

theorem readBlockAttempts_ordered {index : ℕ} {address : UInt32} (ha : Agreed adapter p target)
    (he : p.eof = true) (hall : p.acknowledged = divCeil firmware.length target.blockSize)
    (hi : p.readBack = index) (hlt : index < divCeil firmware.length target.blockSize)
    (haddr : blockAddress target index = .ok address) (hR : Unrelated R) (n : ℕ) (actual : UInt32)
    (q : Progress) (hq : p.Retried .requestBlock q) :
    (ordered ε sha1 adapter firmware).EnsuresOr
      (readBlockAttempts address target.blockSize n actual) q
      (fun block q' => q' = { p with
        sent := q'.sent
        readBack := index + 1
        verified := p.verified ++ block }) R := by
  induction n generalizing actual q with
  | zero => exact hR q _ (by simp)
  | succ n ih =>
    rw [readBlockAttempts, ensuresOr_bind]
    have hmay : MaySend sha1 adapter firmware p (le32 address) .requestBlock :=
      ⟨target, address, ha, he, hall, hi ▸ hlt, hi ▸ blockAddress_eq_ok haddr, rfl⟩
    apply command_ordered
    · intro q' hq'
      exact hmay.of_sent (hq.trans hq').eq
    · intro q' data hq'
      have hnow := hq.trans hq'
      have heq : q' = { p with sent := q'.sent } := hnow.eq
      have htarget : q'.target = some target := by
        rw [heq]
        exact ha.connected
      by_cases hlen : data.length ≠ 4 + target.blockSize
      · rw [if_pos hlen]
        exact hR _ _ (by simp)
      · rw [if_neg hlen]
        change World.EnsuresOr _ (Attempt.ofExcept _ >>= _) _ _ _
        rw [ensuresOr_bind, ensuresOr_ofExcept]
        cases hu : responseU32 .requestBlock data with
        | error e => exact hR _ e (responseU32_error hu)
        | ok answered =>
          change World.EnsuresOr _ (if answered = address then _ else _) _ _ _
          have haccept : q'.accept .requestBlock (le32 address) data =
              if answered = address then { q' with
                readBack := q'.readBack + 1
                verified := q'.verified ++ data.drop 4 }
              else q' := by
            have hword : fromLe32 (le32 address) = address := by
              simpa only [List.append_nil] using fromLe32_le32 address []
            have hfits : ∃ target ∈ q'.target, data.length = 4 + target.blockSize :=
              ⟨target, htarget, not_not.1 hlen⟩
            simp only [Progress.accept, hu, hword, hfits, true_and, Except.ok.injEq]
          rw [haccept]
          by_cases hc : answered = address
          · rw [if_pos hc, if_pos hc, ensuresOr_pure, heq, hi]
          · rw [if_neg hc, if_neg hc]
            exact ih answered q' hnow
    · exact fun q' e _ he => hR q' e he

/-- The blocks from `index` on, when all before it have been read back. -/
theorem readBlocks_ordered (k index : ℕ) {verified : Bytes} (hR : Unrelated R)
    (ha : Agreed adapter p target) (he : p.eof = true)
    (hall : p.acknowledged = divCeil firmware.length target.blockSize)
    (hi : p.readBack = index) (hv : p.verified = verified)
    (hk : index + k = divCeil firmware.length target.blockSize) :
    (ordered ε sha1 adapter firmware).EnsuresOr
      (readBlocks target verified (List.range' index k)) p
      (fun v q => q = { p with sent := q.sent, readBack := index + k, verified := v }) R := by
  induction k generalizing index verified p with
  | zero =>
    rw [List.range'_zero, readBlocks, ensuresOr_pure, ← hv, Nat.add_zero, ← hi]
  | succ k ih =>
    rw [List.range'_succ, readBlocks, ensuresOr_bind, ensuresOr_ofExcept]
    cases haddr : blockAddress target index with
    | error e => exact hR p e (blockAddress_error haddr)
    | ok address =>
      change World.EnsuresOr _ _ _ _ _
      rw [ensuresOr_bind]
      refine (readBlockAttempts_ordered ha he hall hi (by omega) haddr hR BLOCK_ATTEMPTS 0 p
        (.refl p _)).mono ?_ fun _ _ h => h
      intro block q hq
      have hagree : Agreed adapter q target :=
        ha.of_established (by rw [hq]) (by rw [hq])
      have heof : q.eof = true := by
        rw [hq]
        exact he
      have hq' : q.acknowledged = divCeil firmware.length target.blockSize := by
        rw [hq]
        exact hall
      have hverified : q.verified = verified ++ block := by rw [hq, ← hv]
      refine (ih (index + 1) hagree heof hq' (by rw [hq]) hverified
        (by omega)).mono ?_ fun _ _ h => h
      intro v q' hq'
      rw [hq', hq]
      simp only [Progress.mk.injEq, true_and, and_true]
      omega

/-- An upload to the agreed target ends with everything read back and the digests equal. -/
theorem upload_ordered (hR : Unrelated R) (ha : Agreed adapter p target)
    (hp : p.acknowledged = 0 ∧ p.readBack = 0 ∧ p.verified = []) :
    (ordered ε sha1 adapter firmware).EnsuresOr (upload sha1 firmware target) p
      (fun _ q => Agreed adapter q target ∧ q.eof = true ∧
        q.readBack = divCeil firmware.length target.blockSize ∧
        sha1 (paddedFirmware target.blockSize firmware) = sha1 q.verified) R := by
  rw [upload, ensuresOr_bind, chunks, List.range_eq_range']
  refine (writeBlocks_ordered _ 0 [] hR ha hp.1 (Nat.zero_add _)).mono ?_ fun _ _ h => h
  rintro written q ⟨hq, hwritten⟩
  have hpadded : written = paddedFirmware target.blockSize firmware := by
    rw [hwritten, List.nil_append, paddedFirmware, chunks, List.range_eq_range']
  have hagree : Agreed adapter q target := ha.of_established (by rw [hq]) (by rw [hq])
  have hall : q.acknowledged = divCeil firmware.length target.blockSize := by rw [hq, Nat.zero_add]
  rw [ensuresOr_bind]
  apply command_ordered
  · intro q' hq'
    exact MaySend.of_sent (p := q) ⟨target, hagree, hall, rfl⟩ hq'.eq
  · intro q' data hq'
    rw [ensuresOr_bind, ensuresOr_ofExcept]
    cases hu : responseU32 .sendEof data with
    | error e => exact hR _ e (responseU32_error hu)
    | ok pages =>
      change World.EnsuresOr _ _ _ _ _
      have haccept : q'.accept .sendEof [] data = { q' with eof := true } := by
        simp only [Progress.accept, hu]
      have heq : q' = { p with
          sent := q'.sent
          acknowledged := divCeil firmware.length target.blockSize } := by
        rw [hq'.eq, hq, Nat.zero_add]
      have hagree' : Agreed adapter { q' with eof := true } target :=
        ha.of_established (by rw [heq]) (by rw [heq])
      have hnone : q'.acknowledged = divCeil firmware.length target.blockSize ∧
          q'.readBack = 0 ∧ q'.verified = [] := by
        rw [heq]
        exact ⟨rfl, hp.2⟩
      rw [haccept, ensuresOr_bind]
      refine (readBlocks_ordered _ 0 hR hagree' rfl hnone.1 hnone.2.1 hnone.2.2
        (Nat.zero_add _)).mono ?_ fun _ _ h => h
      intro verified q'' hq''
      by_cases hsum : sha1 written ≠ sha1 verified
      · rw [if_pos hsum]
        exact hR _ _ (by simp)
      · rw [if_neg hsum]
        refine ⟨hagree'.of_established (by rw [hq'']) (by rw [hq'']), by rw [hq''],
          by rw [hq'', Nat.zero_add], ?_⟩
        rw [hq'', ← hpadded]
        exact not_not.1 hsum
  · exact fun q' e _ he => hR q' e he

/-- Connecting establishes the reported target and nothing else. -/
theorem connect_ordered (hR : Unrelated R) :
    (ordered ε sha1 adapter firmware).EnsuresOr connect .start
      (fun connection q => (∀ c ∈ q.sent, c = some .connect) ∧
        q = { Progress.start with sent := q.sent, target := some connection.target }) R := by
  rw [connect, ensuresOr_bind]
  apply command_ordered
  · intro q hq
    exact MaySend.of_sent (p := .start) ⟨rfl, rfl⟩ hq.eq
  · intro q data hq
    rw [ensuresOr_ofExcept]
    cases hu : connection data with
    | error e =>
      refine hR _ e fun expected actual => ?_
      unfold connection at hu
      split_ifs at hu
      · rw [← Except.error.inj hu]
        simp
      · split at hu
        · cases hu
        · rw [← Except.error.inj hu]
          simp
    | ok connection =>
      have haccept : q.accept .connect [] data = { q with target := some connection.target } := by
        simp only [Progress.accept, hu]
      rw [haccept]
      refine ⟨fun c hc => (hq.sent c hc).elim ?_ id, ?_⟩
      · intro h
        cases h
      · rw [hq.eq]
  · exact fun q e _ he => hR q e he

/-- The identity is settled before anything is written. -/
theorem verifyCanbusUuid_ordered {expected : ℕ} (he : adapter.expectedCanbusUuid = some expected)
    (ht : p.target = some target) (hR : Unrelated R)
    (hR' : ∀ q expected actual, p.Retried .getCanbusId q →
      ∀ uuid, R (.canbusUuidMismatch expected actual) { q with uuid := uuid }) :
    (ordered ε sha1 adapter firmware).EnsuresOr (verifyCanbusUuid expected) p
      (fun _ q => (∀ c ∈ q.sent, c ∈ p.sent ∨ c = some .getCanbusId) ∧
        q = { p with sent := q.sent, uuid := some expected }) R := by
  rw [verifyCanbusUuid, ensuresOr_bind]
  apply command_ordered
  · intro q hq
    exact MaySend.of_sent (p := p) ⟨by simp [ht], by simp [he], rfl⟩ hq.eq
  · intro q data hq
    rw [ensuresOr_bind, ensuresOr_ofExcept]
    cases hu : canbusUuid data with
    | error e =>
      refine hR _ e fun expected actual => ?_
      unfold canbusUuid at hu
      split_ifs at hu
      rw [← Except.error.inj hu]
      simp
    | ok uuid =>
      change World.EnsuresOr _ (if uuid = expected then _ else _) _ _ _
      have haccept : q.accept .getCanbusId [] data = { q with uuid := some uuid } := by
        simp only [Progress.accept, hu]
      rw [haccept]
      by_cases hc : uuid = expected
      · rw [if_pos hc, ensuresOr_pure]
        refine ⟨hq.sent, ?_⟩
        rw [hq.eq, hc]
      · rw [if_neg hc]
        exact hR' q expected uuid hq _
  · exact fun q e _ he => hR q e he

/-- Which commands were sent at most when a flash ends with a refusal. -/
def SentOnly (e : KatapultFlashError) (q : Progress) : Prop :=
  match e with
  | .applicationStartMismatch _ _ =>
    ∀ c ∈ q.sent, c = some .connect ∨ c = some .getCanbusId ∨ c = some .complete
  | .session (.canbusUuidMismatch _ _) => ∀ c ∈ q.sent, c = some .connect ∨ c = some .getCanbusId
  | .session _ => True

theorem unrelated_sentOnly : Unrelated (fun e => SentOnly (.session e)) := by
  intro q e he
  cases e with
  | canbusUuidMismatch expected actual => exact absurd rfl (he expected actual)
  | _ => exact trivial

/-- A refused session only starts the existing application. -/
theorem complete_refused (hr : Refused adapter p target) :
    (ordered ε sha1 adapter firmware).Ensures (complete (ε := ε)).run p
      (fun _ q => ∀ c ∈ q.sent, c ∈ p.sent ∨ c = some .complete) := by
  have hcomplete : (ordered ε sha1 adapter firmware).EnsuresOr complete p
      (fun _ q => ∀ c ∈ q.sent, c ∈ p.sent ∨ c = some .complete)
      (fun _ q => ∀ c ∈ q.sent, c ∈ p.sent ∨ c = some .complete) := by
    rw [complete, ensuresOr_bind]
    apply command_ordered
    · intro q hq
      exact MaySend.of_sent (p := p) ⟨rfl, .inl ⟨target, hr⟩⟩ hq.eq
    · intro q data hq
      rw [ensuresOr_pure, Progress.accept_sent]
      exact hq.sent
    · exact fun q e hq _ => hq.sent
  refine Ensures.mono hcomplete fun r q h => ?_
  cases r with
  | ok a => exact h
  | error e => exact h

/-- With the identity settled, a flash either refuses the target or writes to it. -/
theorem flashIdentified_ordered (hs : ∀ c ∈ p.sent, c = some .connect ∨ c = some .getCanbusId)
    (hu : ∀ uuid, adapter.expectedCanbusUuid = some uuid → p.uuid = some uuid)
    (hp : p = { Progress.start with sent := p.sent, target := some target, uuid := p.uuid }) :
    (ordered ε sha1 adapter firmware).EnsuresOr (adapter.flashIdentified sha1 firmware target) p
      (fun _ _ => True) SentOnly := by
  have hconnected : p.target = some target := by rw [hp]
  rw [KatapultAdapter.flashIdentified]
  cases hstart : adapter.expectedApplicationStart.filter
      (fun expected => expected ≠ target.applicationStart) with
  | some expected =>
    obtain ⟨hexpected, hne⟩ := Option.filter_eq_some_iff.1 hstart
    have hrefused : Refused adapter p target :=
      ⟨hconnected, hu, expected, hexpected, fun h => by simp [h] at hne⟩
    dsimp only
    rw [ensuresOr_bind, ensuresOr_lift]
    refine (complete_refused hrefused).mono fun r q h => ?_
    rw [ensuresOr_throw]
    intro c hc
    rcases h c hc with hc | hc
    · exact (hs c hc).imp_right .inl
    · exact .inr (.inr hc)
  | none =>
    have hagree : Agreed adapter p target := by
      refine ⟨hconnected, hu, fun start h => ?_⟩
      by_contra hne
      rw [h, Option.filter_some, if_pos (by simpa using fun h => hne h.symm)] at hstart
      cases hstart
    have hnone : p.acknowledged = 0 ∧ p.readBack = 0 ∧ p.verified = [] := by
      rw [hp]
      exact ⟨rfl, rfl, rfl⟩
    dsimp only
    rw [ensuresOr_bind, KatapultAdapter.session, ensuresOr_adapt]
    refine (upload_ordered unrelated_sentOnly hagree hnone).mono ?_ fun _ _ h => h
    rintro upload q ⟨hagree', heof, hread, hsum⟩
    rw [ensuresOr_bind, KatapultAdapter.session, ensuresOr_adapt, complete, ensuresOr_bind]
    apply command_ordered
    · intro q' hq'
      exact MaySend.of_sent (p := q) ⟨rfl, .inr ⟨target, hagree', heof, hread, hsum⟩⟩ hq'.eq
    · exact fun _ _ _ => trivial
    · exact fun q' e _ he => unrelated_sentOnly q' e he

/-- Every exchange of a flash is allowed by what came before it, and a refused flash sent nothing
that writes. -/
theorem flash_ordered :
    (ordered ε sha1 adapter firmware).EnsuresOr (adapter.flash sha1 firmware) .start
      (fun _ _ => True) SentOnly := by
  rw [KatapultAdapter.flash, ensuresOr_bind, KatapultAdapter.session, ensuresOr_adapt]
  refine (connect_ordered unrelated_sentOnly).mono ?_ fun _ _ h => h
  rintro ⟨version, target⟩ p ⟨hsent, hp⟩
  -- The identity is only asked for when one is expected; either way it is settled afterwards.
  cases hu : adapter.expectedCanbusUuid with
  | none =>
    refine flashIdentified_ordered (fun c hc => .inl (hsent c hc)) (by simp [hu]) ?_
    rw [hp]
  | some expected =>
    have hconnected : p.target = some target := by rw [hp]
    dsimp only
    rw [ensuresOr_bind, KatapultAdapter.session, ensuresOr_adapt]
    refine (verifyCanbusUuid_ordered hu hconnected unrelated_sentOnly ?_).mono ?_ fun _ _ h => h
    · intro q expected actual hq uuid c hc
      exact (hq.sent c hc).imp (hsent c) id
    · rintro _ q ⟨hq, heq⟩
      refine flashIdentified_ordered (fun c hc => (hq c hc).imp (hsent c) id) ?_ ?_
      · intro uuid h
        rw [heq, ← h, hu]
      · rw [heq, hp]

variable {tr : List (Sigma (Exchange ε))} {result : Except KatapultFlashError FlashResult}

/-- Whatever the transport answers, every request may follow the ones before it, and a refused flash
sends nothing that writes. -/
theorem flash_requests_ordered (h : Runs (adapter.flash sha1 firmware).run tr result) :
    (∀ pre ev post, tr = pre ++ ev :: post →
      Allowed sha1 adapter firmware (pre.foldl Progress.next .start) ev.1) ∧
    (∀ expected actual, result = .error (.applicationStartMismatch expected actual) →
      ∀ ev ∈ tr, ∃ command payload, parseRequest ev.1 = some (command, payload) ∧
        (command = .connect ∨ command = .getCanbusId ∨ command = .complete)) ∧
    ∀ expected actual, result = .error (.session (.canbusUuidMismatch expected actual)) →
      ∀ ev ∈ tr, ∃ command payload, parseRequest ev.1 = some (command, payload) ∧
        (command = .connect ∨ command = .getCanbusId) := by
  have hflash : (ordered ε sha1 adapter firmware).Ensures (adapter.flash sha1 firmware).run .start
      (Outcome (fun _ _ => True) SentOnly) := flash_ordered
  have hpost := hflash.trace h
  have hsent : ∀ ev ∈ tr,
      (parseRequest ev.1).map Prod.fst ∈ (tr.foldl Progress.next .start).sent := by
    intro ev hev
    rw [Progress.foldl_next_sent]
    exact List.mem_append_right _ (List.mem_map_of_mem hev)
  refine ⟨?_, ?_, ?_⟩
  · rintro pre ev post rfl
    exact hflash.trace_permits h
  · rintro expected actual rfl ev hev
    have hcommand := hpost _ (hsent ev hev)
    simp only [Option.map_eq_some_iff, Prod.exists, exists_and_right, exists_eq_right] at hcommand
    rcases hcommand with ⟨payload, hp⟩ | ⟨payload, hp⟩ | ⟨payload, hp⟩
    · exact ⟨_, _, hp, .inl rfl⟩
    · exact ⟨_, _, hp, .inr (.inl rfl)⟩
    · exact ⟨_, _, hp, .inr (.inr rfl)⟩
  · rintro expected actual rfl ev hev
    have hcommand := hpost _ (hsent ev hev)
    simp only [Option.map_eq_some_iff, Prod.exists, exists_and_right, exists_eq_right] at hcommand
    rcases hcommand with ⟨payload, hp⟩ | ⟨payload, hp⟩
    · exact ⟨_, _, hp, .inl rfl⟩
    · exact ⟨_, _, hp, .inr rfl⟩

end Order

def refusedFlash : List (Sigma (Exchange Unit)) × Except KatapultFlashError FlashResult :=
  (((KatapultAdapter.forCanbus 1).expectingApplicationStart 0x08004000).flash id
    [1, 2, 3]).run.interact (smallDevice.direct ()) []

theorem refusedFlash_runs : Runs (((KatapultAdapter.forCanbus 1).expectingApplicationStart
    0x08004000).flash id [1, 2, 3]).run refusedFlash.1
    (.error (.applicationStartMismatch 0x08004000 0x08002000)) := by
  have hresult : refusedFlash.2 = .error (.applicationStartMismatch 0x08004000 0x08002000) := by
    decide +kernel
  rw [← hresult]
  exact runs_interact_nil _ _

def acceptedFlash : List (Sigma (Exchange Unit)) × Except KatapultFlashError FlashResult :=
  (((KatapultAdapter.forCanbus 1).expectingApplicationStart 0x08002000).flash id
    [1, 2, 3]).run.interact (smallDevice.direct ()) []

theorem acceptedFlash_runs : Runs (((KatapultAdapter.forCanbus 1).expectingApplicationStart
    0x08002000).flash id [1, 2, 3]).run acceptedFlash.1 acceptedFlash.2 := runs_interact_nil _ _

theorem refused_flash_requests :
    (refusedFlash.1.length = 3 ∧
      ∀ ev ∈ refusedFlash.1, ∃ command payload, parseRequest ev.1 = some (command, payload) ∧
        (command = .connect ∨ command = .getCanbusId ∨ command = .complete)) ∧
    (acceptedFlash.1.map (fun ev => (parseRequest ev.1).map Prod.fst)) =
        [some .connect, some .getCanbusId, some .sendBlock, some .sendEof, some .requestBlock,
          some .complete] ∧
      ∀ pre ev post, acceptedFlash.1 = pre ++ ev :: post →
        Allowed id ((KatapultAdapter.forCanbus 1).expectingApplicationStart 0x08002000) [1, 2, 3]
          (pre.foldl Progress.next .start) ev.1 :=
  ⟨⟨by decide +kernel, (flash_requests_ordered refusedFlash_runs).2.1 _ _ rfl⟩, by decide +kernel,
    (flash_requests_ordered acceptedFlash_runs).1⟩

end Aldis.Katapult
