import IoThreadController.Core.Run
import IoThreadController.Core.Rate
import IoThreadController.Core.Backoff
import IoThreadController.Core.Lifecycle
import IoThreadController.Core.RoundRobin
import IoThreadController.Core.Follow
import IoThreadController.Core.MergePatch
import IoThreadController.Core.Window
import IoThreadController.Core.SortedMap
import IoThreadController.Core.Split
import IoThreadController.Core.Keyed
import IoThreadController.Core.Utf8
import IoThreadController.Core.Streak
import IoThreadController.Model.Base
import IoThreadController.Model.Config
import IoThreadController.Model.Rolling
import IoThreadController.Model.Instance
import IoThreadController.Model.Text
import IoThreadController.Model.Qemu
import IoThreadController.Model.Topology
import IoThreadController.Model.Client
import IoThreadController.Model.Dbus
import IoThreadController.Model.Discovery
import IoThreadController.Model.Engine
import IoThreadController.Model.Threshold
import IoThreadController.Model.Durations
import IoThreadController.Model.Include
import IoThreadController.Model.Qmp
import IoThreadController.Model.Session
import IoThreadController.Model.PerVmLog
import IoThreadController.Model.Ownership
import IoThreadController.Model.Controller
import IoThreadController.Model.Status
import IoThreadController.Model.HostCpu
import IoThreadController.Model.Daemon
import IoThreadController.Model.Dashboard
import IoThreadController.Fleet.Attempts
import IoThreadController.Fleet.Tick
import IoThreadController.Fleet.Guards
import IoThreadController.Fleet.Inventory
import IoThreadController.Fleet.Durability
import IoThreadController.Fleet.Sticky
import IoThreadController.Threshold.Spec
import IoThreadController.Threshold.Bounds
import IoThreadController.Threshold.Drive
import IoThreadController.Threshold.Windows
import IoThreadController.Threshold.Counters
import IoThreadController.Threshold.Baseline
import IoThreadController.Threshold.Rates
import IoThreadController.Threshold.Lifecycle
import IoThreadController.Threshold.History
import IoThreadController.Threshold.Hold
import IoThreadController.Threshold.Sustain
import IoThreadController.Threshold.Convergence
import IoThreadController.Fleet.Evaluation
import IoThreadController.Threshold.Consistency
import IoThreadController.Fleet.Utilisation
import IoThreadController.Fleet.Cap
import IoThreadController.Fleet.Requests
import IoThreadController.Fleet.Reverts
import IoThreadController.Fleet.Manual
import IoThreadController.Fleet.Snapshots
import IoThreadController.Fleet.Permission
import IoThreadController.Fleet.Ceiling
import IoThreadController.Fleet.Cooldown
import IoThreadController.Fleet.Plan
import IoThreadController.Fleet.Clients
import IoThreadController.Fleet.Lockstep
import IoThreadController.Fleet.Ownership
import IoThreadController.Fleet.HostCpu
import IoThreadController.Qemu.Commands
import IoThreadController.Qemu.Resize
import IoThreadController.Qemu.Rollback
import IoThreadController.Qemu.Discovery
import IoThreadController.Qemu.Labels
import IoThreadController.Qemu.Topology
import IoThreadController.Qemu.Envelope
import IoThreadController.Qemu.Utilisation
import IoThreadController.Qemu.FreshIds
import IoThreadController.Qemu.Snapshots
import IoThreadController.Qemu.Recovery
import IoThreadController.Qemu.BlockStats
import IoThreadController.Rolling.History
import IoThreadController.Rolling.Windows
import IoThreadController.Fleet.StatusLines
import IoThreadController.Service.Boxing
import IoThreadController.Service.Requests
import IoThreadController.Service.Logs
import IoThreadController.Config.Durations
import IoThreadController.Config.Loading
import IoThreadController.Config.Includes
import IoThreadController.Dashboard.Texts
import IoThreadController.Dashboard.Roster
import IoThreadController.Dashboard.Attached
import IoThreadController.Model.Screen
import IoThreadController.Dashboard.Keys
import IoThreadController.Backends.Peers
import IoThreadController.Core.Linear
import IoThreadController.Model.Service
import IoThreadController.Service.Linear
import IoThreadController.Dashboard.Console
import IoThreadController.Model.Hosted
import IoThreadController.Fleet.Hosted
