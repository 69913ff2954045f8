import Aldis.Flash.Katapult.Device

/-!
# Uploads over an unreliable channel

The channel keeps every reply the device ever gave and may deliver any of them, at any time and
any number of times; it may lose requests and replies, and garble replies so that they no longer
decode. What an upload reads back is nevertheless what the flash holds.
-/

namespace Aldis.Katapult

open Interaction World Octets Text

structure Channel where
  memory : Memory
  replies : List Bytes

namespace Channel

def fresh (memory : Memory) : Channel := ⟨memory, []⟩

section Steps

variable {ε : Type}

/-- The device receives the request once, or not at all. -/
inductive Received (blockSize : ℕ) (c : Channel) (request : Bytes) : Channel → Prop where
  | lost : Received blockSize c request c
  | handled {command : Command} {payload reply : Bytes} {memory : Memory}
      (hp : parseRequest request = some (command, payload))
      (hh : Handled blockSize c.memory command payload reply memory) :
      Received blockSize c request ⟨memory, c.replies ++ [reply]⟩

/-- What may come back: nothing, something undecodable, or any reply given so far. -/
inductive Delivered (c : Channel) : Except ε Bytes → Prop where
  | lost (error : ε) : Delivered c (.error error)
  | garbled {bytes : Bytes} {error : FrameError} (h : decodeResponse bytes = .error error) :
      Delivered c (.ok bytes)
  | reply {bytes : Bytes} (h : bytes ∈ c.replies) : Delivered c (.ok bytes)

end Steps

def world (ε : Type) (blockSize : ℕ) : World (Exchange ε) Channel where
  permits _ _ := True
  step c request answer c' := c.Received blockSize request c' ∧ c'.Delivered answer

/-- Every reply to `REQUEST_BLOCK` carries what the flash still holds. -/
def Current (blockSize : ℕ) (c : Channel) : Prop :=
  ∀ reply ∈ c.replies, ∀ response, decodeResponse reply = .ok response →
    response.command = Command.requestBlock.code.toUInt32 →
    ∃ address : UInt32, response.data =
      le32 address ++ content c.memory address.toNat blockSize

/-- Nothing has been read back yet. -/
def Unread (c : Channel) : Prop :=
  ∀ reply ∈ c.replies, ∀ response, decodeResponse reply = .ok response →
    response.command ≠ Command.requestBlock.code.toUInt32

variable {c c' : Channel} {blockSize : ℕ} {command : Command} {payload request : Bytes}

theorem Unread.current (h : c.Unread) : c.Current blockSize :=
  fun reply hr response hd hc => absurd hc (h reply hr response hd)

theorem code_ne_requestBlock (h : command ≠ .requestBlock) :
    command.code.toUInt32 ≠ Command.requestBlock.code.toUInt32 := by
  cases command with
  | requestBlock => exact absurd rfl h
  | _ => decide

/-- Other commands leave no reply that could pass for one to `REQUEST_BLOCK`. -/
theorem Unread.received (h : c.Unread) (hr : c.Received blockSize request c')
    (hp : parseRequest request = some (command, payload)) (hc : command ≠ .requestBlock) :
    c'.Unread := by
  cases hr with
  | lost => exact h
  | @handled command' payload' reply memory hp' hh =>
    obtain ⟨rfl, -⟩ := Prod.mk.inj (Option.some.inj (hp.symm.trans hp'))
    intro bytes hb response hd
    rcases List.mem_append.1 hb with hb | hb
    · exact h bytes hb response hd
    · obtain ⟨response', hd', hcode, -⟩ := hh.replied
      rw [List.mem_singleton.1 hb, hd'] at hd
      rw [← Except.ok.inj hd, hcode]
      exact code_ne_requestBlock hc

/-- Reading back changes nothing, and its reply is of the flash as it is. -/
theorem Current.received {address : UInt32} (h : c.Current blockSize)
    (hr : c.Received blockSize request c')
    (hp : parseRequest request = some (.requestBlock, le32 address)) :
    c'.memory = c.memory ∧ c'.Current blockSize := by
  cases hr with
  | lost => exact ⟨rfl, h⟩
  | @handled command' payload' reply memory hp' hh =>
    obtain ⟨rfl, rfl⟩ := Prod.mk.inj (Option.some.inj (hp.symm.trans hp'))
    have hmemory : memory = c.memory := hh.written
    refine ⟨hmemory, ?_⟩
    intro bytes hb response hd hcode
    change ∃ address : UInt32, response.data = le32 address ++ content memory _ _
    rw [hmemory]
    rcases List.mem_append.1 hb with hb | hb
    · exact h bytes hb response hd hcode
    · obtain ⟨response', hd', -, -, hdata⟩ := hh.replied
      rw [List.mem_singleton.1 hb, hd'] at hd
      refine ⟨address, ?_⟩
      have hword : fromLe32 (le32 address) = address := by
        simpa only [List.append_nil] using fromLe32_le32 address []
      rw [← Except.ok.inj hd, hdata rfl, hword]
      exact rfl

section Delivery

variable {ε : Type} {answer : Except ε Bytes} {data : Bytes}

/-- Accepted data is the data of a reply that was given. -/
theorem Delivered.accepted (h : c.Delivered answer) (ha : accepted command answer = some data) :
    ∃ reply ∈ c.replies, ∃ response, decodeResponse reply = .ok response ∧
      response.command = command.code.toUInt32 ∧ response.data = data := by
  cases h with
  | lost error => simp [Katapult.accepted] at ha
  | garbled hg => simp [Katapult.accepted, hg] at ha
  | @reply bytes hb =>
    unfold Katapult.accepted at ha
    dsimp only at ha
    split at ha
    · cases ha
    · rename_i response hd
      split_ifs at ha with hc
      exact ⟨bytes, hb, response, hd, hc, Option.some.inj ha⟩

end Delivery
end Channel

section Upload

variable {ε : Type} [Debug ε] {c : Channel} {blockSize : ℕ} {memory : Memory}

theorem command_unread {command : Command} {payload : Bytes} (hc : command ≠ .requestBlock)
    (h : c.Unread) : (Channel.world ε blockSize).EnsuresOr (Katapult.command command payload) c
      (fun _ c' => c'.Unread) (fun _ _ => True) := by
  refine command_ensures (I := Channel.Unread) ?_ ?_ ?_ ?_ c h
  · exact fun _ _ _ _ => trivial
  · intro c request answer c' hI he hs _
    exact hI.received hs.1 (parseRequest_of_encodeCommand he) hc
  · intro c request answer c' data hI he hs _
    exact hI.received hs.1 (parseRequest_of_encodeCommand he) hc
  · exact fun _ _ _ _ => trivial

theorem writeBlockAttempts_unread (address : UInt32) (block : Bytes) (n : ℕ) (actual : UInt32)
    (h : c.Unread) : (Channel.world ε blockSize).EnsuresOr
      (writeBlockAttempts address block n actual) c (fun _ c' => c'.Unread) (fun _ _ => True) := by
  induction n generalizing actual c with
  | zero => exact trivial
  | succ n ih =>
    rw [writeBlockAttempts, ensuresOr_bind]
    refine (command_unread (by simp) h).mono ?_ fun _ _ h => h
    intro response c' h'
    rw [ensuresOr_bind, ensuresOr_ofExcept]
    cases responseU32 .sendBlock response with
    | error e => exact trivial
    | ok acknowledged =>
      change World.EnsuresOr _ (if acknowledged = address then _ else _) _ _ _
      split_ifs with ha
      · exact h'
      · exact ih acknowledged h'

/-- Writing returns the padded chunks and asks for no block. -/
theorem writeBlocks_unread (target : KatapultTarget) (index : ℕ) (written : Bytes)
    (chunks : List Bytes) (h : c.Unread) :
    (Channel.world ε blockSize).EnsuresOr (writeBlocks target index written chunks) c
      (fun w c' => c'.Unread ∧ w = written ++ chunks.flatMap (paddedBlock · target.blockSize))
      (fun _ _ => True) := by
  induction chunks generalizing index written c with
  | nil => exact ⟨h, by simp⟩
  | cons chunk rest ih =>
    rw [writeBlocks, ensuresOr_bind, ensuresOr_ofExcept]
    cases blockAddress target index with
    | error e => exact trivial
    | ok address =>
      change World.EnsuresOr _ (writeBlock _ _ >>= _) _ _ _
      rw [ensuresOr_bind]
      refine (writeBlockAttempts_unread address _ BLOCK_ATTEMPTS 0 h).mono ?_ fun _ _ h => h
      intro _ c' h'
      refine (ih (index + 1) _ h').mono ?_ fun _ _ h => h
      rintro w c'' ⟨hc, hw⟩
      refine ⟨hc, ?_⟩
      rw [hw, List.flatMap_cons, List.append_assoc]

/-- The replies at hand are of the flash as it is, which is `memory`. -/
def Reading (blockSize : ℕ) (memory : Memory) (c : Channel) : Prop :=
  c.memory = memory ∧ c.Current blockSize

/-- However late or often a reply comes, the address it echoes says which block it carries. -/
theorem readBlockAttempts_content {address : UInt32} (n : ℕ) (actual : UInt32)
    (h : Reading blockSize memory c) : (Channel.world ε blockSize).EnsuresOr
      (readBlockAttempts address blockSize n actual) c
      (fun block c' => Reading blockSize memory c' ∧
        block = content memory address.toNat blockSize) (fun _ _ => True) := by
  induction n generalizing actual c with
  | zero => exact trivial
  | succ n ih =>
    have hreply : (Channel.world ε blockSize).EnsuresOr
        (command .requestBlock (le32 address)) c
        (fun data c' => Reading blockSize memory c' ∧ ∃ answered : UInt32,
          data = le32 answered ++ content memory answered.toNat blockSize) (fun _ _ => True) := by
      refine command_ensures (I := Reading blockSize memory) ?_ ?_ ?_ ?_ c h
      · exact fun _ _ _ _ => trivial
      · intro c request answer c' hI he hs _
        obtain ⟨hm, hcur⟩ := hI.2.received hs.1 (parseRequest_of_encodeCommand he)
        exact ⟨hm.trans hI.1, hcur⟩
      · intro c request answer c' data hI he hs ha
        obtain ⟨hm, hcur⟩ := hI.2.received hs.1 (parseRequest_of_encodeCommand he)
        obtain ⟨reply, hr, response, hd, hc, hdata⟩ := hs.2.accepted ha
        obtain ⟨answered, hcontent⟩ := hcur reply hr response hd hc
        refine ⟨⟨hm.trans hI.1, hcur⟩, answered, ?_⟩
        rw [← hdata, hcontent, hm, hI.1]
      · exact fun _ _ _ _ => trivial
    rw [readBlockAttempts, ensuresOr_bind]
    refine hreply.mono ?_ fun _ _ h => h
    rintro _ c' ⟨h', answered, rfl⟩
    by_cases hlen : (le32 answered ++ content memory answered.toNat blockSize).length ≠
        4 + blockSize
    · rw [if_pos hlen]
      exact trivial
    · rw [if_neg hlen]
      change World.EnsuresOr _ (Attempt.ofExcept _ >>= _) _ _ _
      have hword : responseU32 .requestBlock
          (le32 answered ++ content memory answered.toNat blockSize) = .ok answered := by
        rw [responseU32, if_neg (by simp), fromLe32_le32]
      rw [ensuresOr_bind, ensuresOr_ofExcept, hword]
      change World.EnsuresOr _ (if answered = address then _ else _) _ _ _
      split_ifs with ha
      · refine ⟨h', ?_⟩
        rw [ha]
        exact rfl
      · exact ih answered h'

theorem readBlocks_content (target : KatapultTarget) (verified : Bytes) (indices : List ℕ)
    (h : Reading target.blockSize memory c) :
    (Channel.world ε target.blockSize).EnsuresOr (readBlocks target verified indices) c
      (fun v c' => Reading target.blockSize memory c' ∧ v = verified ++ indices.flatMap (fun i =>
        content memory (target.applicationStart.toNat + i * target.blockSize) target.blockSize))
      (fun _ _ => True) := by
  induction indices generalizing verified c with
  | nil => exact ⟨h, by simp⟩
  | cons index rest ih =>
    rw [readBlocks, ensuresOr_bind, ensuresOr_ofExcept]
    cases haddr : blockAddress target index with
    | error e => exact trivial
    | ok address =>
      change World.EnsuresOr _ (readBlock _ _ >>= _) _ _ _
      rw [ensuresOr_bind]
      refine (readBlockAttempts_content BLOCK_ATTEMPTS 0 h).mono ?_ fun _ _ h => h
      rintro block c' ⟨h', hblock⟩
      refine (ih _ h').mono ?_ fun _ _ h => h
      rintro v c'' ⟨hc, hv⟩
      refine ⟨hc, ?_⟩
      rw [hv, hblock, blockAddress_eq_ok haddr, List.flatMap_cons, List.append_assoc]

/-- What an upload compares is the padded firmware and the flash. -/
theorem upload_content (sha1 : Bytes → Bytes) (firmware : Bytes) (target : KatapultTarget)
    (h : c.Unread) :
    (Channel.world ε target.blockSize).EnsuresOr (upload sha1 firmware target) c
      (fun _ c' => sha1 (firmware ++ List.replicate
          (divCeil firmware.length target.blockSize * target.blockSize - firmware.length) 0xff) =
        sha1 (content c'.memory target.applicationStart.toNat
          (divCeil firmware.length target.blockSize * target.blockSize)))
      (fun _ _ => True) := by
  rw [upload, ensuresOr_bind]
  refine (writeBlocks_unread target 0 [] _ h).mono ?_ fun _ _ h => h
  rintro written c' ⟨h', hwritten⟩
  rw [ensuresOr_bind]
  refine (command_unread (by simp) h').mono ?_ fun _ _ h => h
  intro response c'' h''
  rw [ensuresOr_bind, ensuresOr_ofExcept]
  cases responseU32 .sendEof response with
  | error e => exact trivial
  | ok pages =>
    change World.EnsuresOr _ (readBlocks _ _ _ >>= _) _ _ _
    rw [ensuresOr_bind]
    refine (readBlocks_content target [] _ ⟨rfl, h''.current⟩).mono ?_ fun _ _ h => h
    rintro verified c''' ⟨hreading, hverified⟩
    by_cases hsum : sha1 written ≠ sha1 verified
    · rw [if_pos hsum]
      exact trivial
    · rw [if_neg hsum]
      change sha1 _ = sha1 _
      rw [hreading.1, ← flatMap_content, ← List.nil_append (List.flatMap _ _), ← hverified,
        ← not_not.1 hsum, hwritten, List.nil_append, ← flatMap_paddedBlock target.blockSize
          (divCeil_mul_le target.blockSize_pos firmware.length), chunks, List.flatMap_map]

end Upload

section Direct

variable {ε : Type}

/-- A transport that delivers every request, but loses the replies to those that `lost` counts. -/
def Device.lossy (device : Device) (lost : ℕ → Bool) (silence : ε)
    (past : List (Sigma (Exchange ε))) (request : Bytes) : Exchange ε request :=
  if lost past.length then .error silence else device.direct silence past request

def Device.replies (device : Device) : List (Sigma (Exchange ε)) → List Bytes
  | [] => []
  | ev :: past => ((device.receive ev.1).map Prod.snd).toList ++
    Device.replies (((device.receive ev.1).map Prod.fst).getD device) past

theorem Device.replies_append (device : Device) (past : List (Sigma (Exchange ε)))
    (ev : Sigma (Exchange ε)) : device.replies (past ++ [ev]) =
      device.replies past ++ (((device.after past).receive ev.1).map Prod.snd).toList := by
  induction past generalizing device with
  | nil => simp [Device.replies, Device.after]
  | cons first past ih =>
    rw [List.cons_append, Device.replies, ih, Device.replies, List.append_assoc]
    rfl

def Device.channel (device : Device) (past : List (Sigma (Exchange ε))) : Channel :=
  ⟨(device.after past).memory, device.replies past⟩

theorem Device.lossy_step (device : Device) (lost : ℕ → Bool) (silence : ε)
    (past : List (Sigma (Exchange ε))) (request : Bytes) :
    (Channel.world ε device.blockSize).step (device.channel past) request
      (device.lossy lost silence past request)
      (device.channel (past ++ [⟨request, device.lossy lost silence past request⟩])) := by
  unfold Device.channel
  rw [Device.after_append, Device.replies_append]
  cases hr : (device.after past).receive request with
  | none =>
    have hsilent : device.lossy lost silence past request = .error silence := by
      unfold Device.lossy Device.direct
      rw [hr, ite_self]
    simp only [hsilent, Option.map_none, Option.getD_none, Option.toList_none, List.append_nil]
    exact ⟨.lost, .lost silence⟩
  | some received =>
    obtain ⟨device', reply⟩ := received
    obtain ⟨command, payload, hp, hh⟩ := Device.receive_handled hr
    rw [Device.after_blockSize] at hh
    refine ⟨.handled hp hh, ?_⟩
    unfold Device.lossy Device.direct
    rw [hr]
    by_cases hl : lost past.length = true
    · rw [if_pos hl]
      exact .lost silence
    · rw [if_neg hl]
      exact .reply (List.mem_append_right _ List.mem_cons_self)

end Direct

section Correctness

variable {ε : Type} [Debug ε] {c : Channel} {memory : Memory}
  {sha1 : Bytes → Bytes} {firmware : Bytes} {target : KatapultTarget}
  {tr : List (Sigma (Exchange ε))} {result : UploadResult}

/-- Whatever the channel did, a finished upload left the padded firmware in the flash, unless two
different strings have the same SHA-1. -/
theorem upload_end_to_end (hr : Runs (upload sha1 firmware target).run tr (.ok result))
    (hc : (Channel.world ε target.blockSize).Path (.fresh memory) tr c)
    (hsha : sha1 (firmware ++ List.replicate
          (divCeil firmware.length target.blockSize * target.blockSize - firmware.length) 0xff) =
        sha1 (content c.memory target.applicationStart.toNat
          (divCeil firmware.length target.blockSize * target.blockSize)) →
      firmware ++ List.replicate
          (divCeil firmware.length target.blockSize * target.blockSize - firmware.length) 0xff =
        content c.memory target.applicationStart.toNat
          (divCeil firmware.length target.blockSize * target.blockSize)) :
    content c.memory target.applicationStart.toNat
        (divCeil firmware.length target.blockSize * target.blockSize) =
      firmware ++ List.replicate
        (divCeil firmware.length target.blockSize * target.blockSize - firmware.length) 0xff := by
  have hunread : (Channel.fresh memory).Unread := fun _ h => absurd h List.not_mem_nil
  have hequal := ((ensuresOr_iff _ _ _ _).1 (upload_content (ε := ε) sha1 firmware target
    hunread)).run hr hc
  exact (hsha hequal).symm

/-- A firmware of two blocks, the second of them all padding but for a byte. -/
def twoBlocks : Bytes := [1, 2, 3] ++ List.replicate 62 0

/-- A SHA-1 that knows the two blocks. -/
def blockSha1 (bytes : Bytes) : Bytes :=
  if bytes = twoBlocks ++ List.replicate 63 0xff then
    [0x0b, 0x2a, 0x51, 0x7d, 0xe6, 0xef, 0xe7, 0x4a, 0xbb, 0xa5, 0xdb, 0x37, 0xaa, 0x7c, 0xb4, 0x30,
      0x96, 0xe9, 0xa9, 0x70]
  else []

def smallTarget : KatapultTarget := ⟨0x08002000, 64, by decide⟩

/-- The two blocks uploaded to `smallDevice`, whose second and fifth reply are lost. -/
def smallUpload : List (Sigma (Exchange Unit)) × Except SessionError UploadResult :=
  (upload blockSha1 twoBlocks smallTarget).run.interact (smallDevice.lossy (· % 3 = 1) ()) []

theorem smallUpload_runs : Runs (upload blockSha1 twoBlocks smallTarget).run smallUpload.1
    (.ok (⟨0, 128⟩ : UploadResult)) := by
  have hresult : smallUpload.2 = .ok ⟨0, 128⟩ := by decide +kernel
  rw [← hresult]
  exact runs_interact_nil _ _

theorem small_upload_end_to_end :
    (smallUpload.1.countP fun ev => ev.2.toOption.isNone) = 2 ∧
      content (smallDevice.channel smallUpload.1).memory smallTarget.applicationStart.toNat 128 =
        twoBlocks ++ List.replicate 63 0xff := by
  have hc : (Channel.world Unit 64).Path (.fresh smallDevice.memory) smallUpload.1
      (smallDevice.channel smallUpload.1) :=
    path_interact_nil _ (smallDevice.lossy_step _ ()) _
  exact ⟨by decide +kernel, upload_end_to_end smallUpload_runs hc fun _ => by decide +kernel⟩

end Correctness
end Aldis.Katapult
