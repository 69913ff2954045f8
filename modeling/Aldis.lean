import Aldis.Lib.Program
import Aldis.Lib.Systemd
import Aldis.Lib.Text
import Aldis.Lib.Path
import Aldis.Lib.Calls
import Aldis.Lib.Handler
import Aldis.Lib.Failure
import Aldis.Lib.Octets
import Aldis.Lib.Semver
import Aldis.Lib.Distinct
import Aldis.Lib.Machine
import Aldis.Lib.Threads
import Aldis.Lib.Scanner
import Aldis.Lib.Windows
import Aldis.Lib.Register
import Aldis.Moonraker
import Aldis.Moonraker.Inventory
import Aldis.Revision
import Aldis.Flash.Stm32
import Aldis.Foci
import Aldis.Foci.Version
import Aldis.Foci.Cache
import Aldis.Beacon
import Aldis.Lib.Best
import Aldis.Cartographer
import Aldis.Cartographer.Selection
import Aldis.Cartographer.Manifest
import Aldis.Lib.SortedMap
import Aldis.Prebuilt
import Aldis.Prebuilt.Resolve
import Aldis.Flash.Samba.Parts
import Aldis.Eligibility
import Aldis.RevisionOrder
import Aldis.KlipperVersion
import Aldis.Downgrade
import Aldis.Service.Unit
import Aldis.Agent.Blocker
import Aldis.UpdateRun.Pending
import Aldis.CommitMatch
import Aldis.FreshBuild
import Aldis.Lib.Make
import Aldis.Kconfig
import Aldis.KconfigMake
import Aldis.Flash.Result
import Aldis.Flash.Katapult.Frame
import Aldis.Flash.Katapult.Grammar
import Aldis.Flash.Katapult.Assembler
import Aldis.Flash.Katapult.Transport
import Aldis.Flash.Katapult.Session
import Aldis.Flash.Katapult.Device
import Aldis.Flash.Katapult.Overflow
import Aldis.Flash.Katapult.Channel
import Aldis.Flash.Uf2
import Aldis.Flash.Uf2.Bounds
import Aldis.Flash.Katapult.Adapter
import Aldis.Flash.Katapult.Order
import Aldis.Flash.Katapult.Bits
import Aldis.Flash.Katapult.Checksum
import Aldis.Beacon.Image
import Aldis.Flash.Samba.Command
import Aldis.Flash.Samba.Adapter
import Aldis.Flash.Samba.Safety
import Aldis.Host.Cause
import Aldis.Host.Command
import Aldis.Flash.UsbBootloader
import Aldis.Flash.BeaconBootloader
import Aldis.Flash.Error
import Aldis.Build.Request
import Aldis.Prepare
import Aldis.Service.State
import Aldis.Coordinator.Error
import Aldis.Host.Call
import Aldis.Build.Builder
import Aldis.Service.Control
import Aldis.Flash.LinuxHost
import Aldis.Workspace
import Aldis.Flash.Request
import Aldis.Flash.System
import Aldis.Flash.FirmwareFile
import Aldis.FlashOrder
import Aldis.Fleet.Peer
import Aldis.Cli.Call
import Aldis.Coordinator.Operations
import Aldis.SelfUpdate.Checksum
import Aldis.Prebuilt.Release
import Aldis.SelfUpdate
import Aldis.Setup
import Aldis.Prebuilt.Prepare
import Aldis.Prebuilt.Assessed
import Aldis.Prebuilt.Explicit
import Aldis.Prebuilt.Vendor
import Aldis.Prebuilt.Separation
import Aldis.Prebuilt.Reached
import Aldis.UpdateRun.Report
import Aldis.FlashCommand.ExplicitFile
import Aldis.Agent.Report
import Aldis.Agent.Api
import Aldis.Agent.Offer
import Aldis.Agent.Targets
import Aldis.Agent.Hooks
import Aldis.Agent.Service
import Aldis.Agent.Turns
import Aldis.Agent.Trace
import Aldis.Agent.Course
import Aldis.Agent.Records
import Aldis.Agent.Holder
import Aldis.Agent.Completion
import Aldis.UpdateRun.Wait
import Aldis.UpdateRun.Probe
import Aldis.UpdateRun.Run
import Aldis.FlashCommand
import Aldis.UpdateRun.Ledger
import Aldis.UpdateRun.Parts
import Aldis.UpdateRun.Steps
import Aldis.UpdateRun.Discipline
import Aldis.UpdateRun.Safety
import Aldis.UpdateRun.Reporting
import Aldis.UpdateRun.Accounting
import Aldis.Identify.Frame
import Aldis.Identify.Exchange
import Aldis.Identify.Channel
import Aldis.Identify.Dictionary
import Aldis.Identify.Position
import Aldis.Crc16
import Aldis.Identify.Resync
import Aldis.Coordinator.Courses
import Aldis.FlashCommand.Warrant
import Aldis.FlashCommand.Checks
import Aldis.FlashCommand.Segments
import Aldis.FlashCommand.Safety
import Aldis.FlashCommand.Endings
import Aldis.UpdateCommand
import Aldis.UpdateRun.Consent
import Aldis.UpdateRun.Started
import Aldis.UpdateCommand.Plan
import Aldis.UpdateCommand.Safety
import Aldis.Reboot
import Aldis.Reboot.Warrant
import Aldis.Reboot.Leave
import Aldis.Reboot.Watch
import Aldis.Reboot.Recover
import Aldis.Reboot.Safety
import Aldis.Reboot.Accounts
import Aldis.Lock
import Aldis.Lock.Exclusion
import Aldis.Agent.Protocol
import Aldis.Agent.Connection
import Aldis.Agent.Connection.Serving
import Aldis.SelfUpdate.Command
import Aldis.SelfUpdate.Safety
