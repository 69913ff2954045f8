import Aldis.Moonraker
import Aldis.Revision
import Aldis.Service.Unit

/-!
# What blocks an agent update

The agent derives its status from a snapshot of the host, and offers no update while one of the
checks below blocks it.
-/

namespace Aldis.Agent

open Text Revision

structure HostSnapshot where
  urlIsLocal : Bool
  klipperUnit : Option Str
  info : HostInfo
  checkoutVersion : Option CheckoutRevision
  printState : Option PrintState
  configError : Bool

inductive BlockerReason where
  | nonLocalMoonraker
  | unsupportedInstance
  | configError
  | klippyUnavailable
  | restartPending
  | printing
  deriving DecidableEq

structure Blocker where
  reason : BlockerReason
  message : Str
  deriving DecidableEq

def restartBlocker (host : HostSnapshot) : Option Blocker :=
  let software := host.info.softwareVersion.getD "unknown"
  match host.checkoutVersion with
  | some (.known checkout) =>
    if revisionsMatch software checkout then none
    else some ⟨.restartPending, "Klipper restart pending: host is running " ++ software ++
      ", checkout is " ++ checkout⟩
  | _ => some ⟨.restartPending, "could not read the Klipper checkout revision"⟩

def printBlocker (host : HostSnapshot) : Option Blocker :=
  if host.info.state = .ready then
    match host.printState with
    | some state =>
      if state.isIdle then none
      else some ⟨.printing, "the printer is busy; update when it is idle"⟩
    | none => some ⟨.printing, "could not confirm the printer is idle"⟩
  else none

/-- The checks that come before the comparison with the checkout. -/
def instanceBlocker (host : HostSnapshot) : Option Blocker :=
  if ¬ host.urlIsLocal then
    some ⟨.nonLocalMoonraker,
      "Moonraker is not on this machine; firmware updates need a local Moonraker"⟩
  else match host.klipperUnit.filter (fun unit => ¬ KlipperUnit.isValid unit) with
  | some unit => some ⟨.unsupportedInstance, "Moonraker manages the Klipper service " ++
      quoted unit ++ ", which aldis cannot control"⟩
  | none =>
    if host.configError then some ⟨.configError, host.info.stateMessage⟩
    else if host.info.state = .startup ∨ host.info.state = .disconnected then
      some ⟨.klippyUnavailable, host.info.stateMessage⟩
    else none

def blocker (host : HostSnapshot) : Option Blocker :=
  (instanceBlocker host).or ((restartBlocker host).or (printBlocker host))

/-- The check of the revision Klippy runs has been reached and passed. -/
def RestartLifted (host : HostSnapshot) : Prop :=
  ∀ b, blocker host = some b → b.reason = .printing

theorem instanceBlocker_reason {host : HostSnapshot} {b : Blocker}
    (h : instanceBlocker host = some b) : b.reason ≠ .printing := by
  unfold instanceBlocker at h
  by_cases hlocal : host.urlIsLocal
  · rw [if_neg (not_not.2 hlocal)] at h
    split at h
    · rw [← Option.some.inj h]
      exact nofun
    · split_ifs at h
      · rw [← Option.some.inj h]
        exact nofun
      · rw [← Option.some.inj h]
        exact nofun
  · rw [if_pos hlocal] at h
    rw [← Option.some.inj h]
    exact nofun

theorem restartBlocker_reason {host : HostSnapshot} {b : Blocker}
    (h : restartBlocker host = some b) : b.reason ≠ .printing := by
  unfold restartBlocker at h
  dsimp only at h
  split at h
  · split_ifs at h
    rw [← Option.some.inj h]
    exact nofun
  · rw [← Option.some.inj h]
    exact nofun

theorem restartBlocker_of_lifted {host : HostSnapshot} (h : RestartLifted host) :
    restartBlocker host = none := by
  unfold RestartLifted blocker at h
  cases hi : instanceBlocker host with
  | some b => exact absurd (h b (by rw [hi]; rfl)) (instanceBlocker_reason hi)
  | none =>
    cases hr : restartBlocker host with
    | none => rfl
    | some b => exact absurd (h b (by rw [hi, hr]; rfl)) (restartBlocker_reason hr)

/-- The check passes only on a known checkout that matches what Klippy runs. -/
theorem restartBlocker_eq_none_iff (host : HostSnapshot) :
    restartBlocker host = none ↔ ∃ checkout, host.checkoutVersion = some (.known checkout) ∧
      revisionsMatch (host.info.softwareVersion.getD "unknown") checkout = true := by
  unfold restartBlocker
  rcases host.checkoutVersion with _ | checkout | _
  · constructor
    · intro h
      cases h
    · rintro ⟨checkout, h, -⟩
      cases h
  · constructor
    · intro h
      refine ⟨checkout, rfl, ?_⟩
      by_contra hmatch
      rw [Bool.not_eq_true] at hmatch
      simp only [hmatch, Bool.false_eq_true, if_false] at h
      cases h
    · rintro ⟨found, hfound, hmatch⟩
      obtain rfl := CheckoutRevision.known.inj (Option.some.inj hfound)
      exact if_pos hmatch
  · constructor
    · intro h
      cases h
    · rintro ⟨checkout, h, -⟩
      cases h

end Aldis.Agent
