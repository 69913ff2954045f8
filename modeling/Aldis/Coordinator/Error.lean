import Aldis.Flash.Error
import Aldis.Prepare
import Aldis.Service.State

/-!
# How an update of one MCU can fail

The errors of preparing, building and flashing, and after which of them Klipper may be
restarted.
-/

namespace Aldis

open Text

inductive WorkspaceError where
  | io (action : Str) (source : Cause)
  | emptyTargetName
  deriving DecidableEq

def WorkspaceError.cause : WorkspaceError → Cause
  | io action source => .headline ("could not " ++ action) source
  | emptyTargetName => .leaf "MCU target name must not be empty"

inductive CoordinatorError where
  | workspace (source : WorkspaceError)
  | preparation (source : PreparationError)
  | service (source : ServiceError)
  | unexpectedKlipperState (state : ServiceState)
  | build (source : BuildError)
  | requestForAnotherMcu (requested approved : Str)
  deriving DecidableEq

def CoordinatorError.cause : CoordinatorError → Cause
  | workspace source => .headline "workspace preparation failed" source.cause
  | preparation source => .headline "build preparation failed" source.cause
  | service source => .headline "Klipper service operation failed" source.cause
  | unexpectedKlipperState state =>
    .leaf ("Klipper must be active or inactive, found " ++ state.debug)
  | build source => .headline "Klipper build failed" source.cause
  | requestForAnotherMcu requested approved => .leaf
      ("the firmware was prepared for " ++ requested ++ ", but " ++ approved ++ " was approved")

inductive FlashCoordinatorError where
  | coordinator (error : CoordinatorError)
  | artifact (error : Cause)
  | flash (error : SystemFlashError)
  deriving DecidableEq

/-- Whether Klipper can safely be restarted: the host MCU is never left in a bootloader, and an
MCU on a refused link was never asked to enter one. -/
def FlashCoordinatorError.allowsKlipperRestore : FlashCoordinatorError → Bool
  | flash (.linuxHost _) | flash (.linkRefused _ _) => true
  | flash _ => false
  | coordinator _ | artifact _ => true

end Aldis
