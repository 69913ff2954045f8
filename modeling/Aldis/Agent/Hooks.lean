import Aldis.Agent.Report
import Aldis.Host.Call

/-!
# What a run tells its agent

A run calls hooks as it goes, and the agent makes an `update_response` of each.
-/

namespace Aldis.Agent

open Text

structure AgentHooks where
  runId : Str
  mcu : Option Str
  phase : Phase
  deriving DecidableEq

namespace AgentHooks

variable (hooks : AgentHooks)

/-- `stopKlipper` is host-level: it is not attributed to the MCU that triggered it. -/
def send (phase : Phase) (message : Str) : AgentHooks × UpdateResponse :=
  ({ hooks with phase := phase },
    ⟨hooks.runId, if phase = .stopKlipper then none else hooks.mcu, phase, message, false, none⟩)

def progressLabel : UpdateProgress → Phase × Str
  | .downloadingFirmware => (.build, "downloading firmware")
  | .firmwareDownloaded => (.build, "downloaded firmware")
  | .readingFirmware => (.build, "reading firmware image")
  | .firmwareRead => (.build, "read firmware image")
  | .stoppingKlipper => (.stopKlipper, "stopping Klipper")
  | .configuringFirmware => (.build, "configuring firmware")
  | .compilingFirmware => (.build, "compiling firmware")
  | .enteringBootloader => (.enterBootloader, "entering bootloader")
  | .bootloaderReady => (.enterBootloader, "bootloader ready")
  | .startingFlash => (.flash, "flashing firmware")
  | .installing => (.flash, "installing host MCU")

def call : HookCall → AgentHooks × UpdateResponse
  | .approve name current next =>
    send { hooks with mcu := some (displayName name) } .build
      ("updating from " ++ current ++ " to " ++ next)
  | .progress _ progress => hooks.send (progressLabel progress).1 (progressLabel progress).2
  | .flashed _ _ paddedBytes => hooks.send .flash ("wrote " ++ decimal paddedBytes ++ " bytes")
  | .stepStarted .waitForApplication => hooks.send .verify "waiting for the MCU to restart"
  | .stepStarted .startKlipper => send { hooks with mcu := none } .startKlipper "starting Klipper"
  | .stepStarted .reconnect => hooks.send .reconnect "waiting for updated MCUs to reconnect"
  | .stepSucceeded .waitForApplication => hooks.send .verify "MCU restarted"
  | .stepSucceeded .startKlipper => hooks.send .startKlipper "Klipper started"
  | .stepSucceeded .reconnect => hooks.send .reconnect "all updated MCUs reconnected"
  | .failed message => hooks.send hooks.phase ("error: " ++ message)

/-- A hook's message belongs to the run and does not complete it. -/
structure Tells (runId : Str) (sent : AgentHooks × UpdateResponse) : Prop where
  hooks : sent.1.runId = runId
  message : sent.2.runId = runId
  complete : sent.2.complete = false

theorem send_tells (phase : Phase) (message : Str) : Tells hooks.runId (hooks.send phase message) :=
  ⟨rfl, rfl, rfl⟩

theorem call_tells (hook : HookCall) : Tells hooks.runId (hooks.call hook) := by
  cases hook with
  | approve name current next =>
      exact send_tells { hooks with mcu := some (displayName name) } _ _
  | progress name progress => exact send_tells _ _ _
  | flashed name kconfig paddedBytes => exact send_tells _ _ _
  | stepStarted step =>
      cases step with
      | waitForApplication => exact send_tells _ _ _
      | startKlipper => exact send_tells { hooks with mcu := none } _ _
      | reconnect => exact send_tells _ _ _
  | stepSucceeded step =>
      cases step with
      | waitForApplication => exact send_tells _ _ _
      | startKlipper => exact send_tells _ _ _
      | reconnect => exact send_tells _ _ _
  | failed message => exact send_tells _ _ _

end AgentHooks
end Aldis.Agent
