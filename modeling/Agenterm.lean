import Agenterm.Terminal.RedactionTheorems
import Agenterm.Ui.CommandTheorems
import Agenterm.Ui.LeaseTheorems
import Agenterm.Server.ReceiptTheorems
import Agenterm.Server.WakeSignal
import Agenterm.Ui.AcceptanceTheorems
import Agenterm.Chassis.VmTheorems
import Agenterm.Chassis.AdjacentTab
import Agenterm.Cu.IdempotencyRuns
import Agenterm.Cu.RuntimeValidity
import Agenterm.Cu.DeviceLeaseTheorems
import Agenterm.Cu.AuthStoreTheorems
import Agenterm.Qjswasm.ChildRegistryTheorems
import Agenterm.Qjswasm.SlotTheorems
import Agenterm.Cu.WebSocketTheorems
import Agenterm.Worker.LifecycleTheorems
import Agenterm.Worker.InvocationTheorems
import Agenterm.Cu.JobOutputTheorems
import Agenterm.Cu.CdpSession
import Agenterm.Cu.AuditRetention
import Agenterm.Cu.ManagedJobOwnerTheorems
import Agenterm.Control.OptionsTheorems
import Agenterm.Cu.BridgeHostTheorems
import Agenterm.Cu.Snapshot
import Agenterm.Cu.RuntimeStatus
import Agenterm.Cu.ManagedJobPrune
import Agenterm.Cu.GeometryCycles
import Agenterm.Cu.PlaceHistory
import Agenterm.Qjswasm.LineSearch
import Agenterm.Qjswasm.ChildOutput
import Agenterm.Launcher.Version
import Agenterm.Launcher.InstallTheorems
import Agenterm.Ui.DeltaFailure
import Agenterm.Cu.PrivilegePlanTheorems
import Agenterm.Server.TreeOrder
import Agenterm.Control.SelectionTheorems
import Agenterm.Terminal.Cursor
import Agenterm.Ui.Clipboard
import Agenterm.Terminal.ShellCommand
import Agenterm.Terminal.Osc7
import Agenterm.Qjswasm.CheckManyTheorems
import Agenterm.Ui.ComposerTheorems
import Agenterm.Terminal.ProxyConfirmation
import Agenterm.Mcp.Input
import Agenterm.Control.RenderFormat
import Agenterm.Ui.TextSelection
import Agenterm.Ui.Interaction
import Agenterm.Cu.PtyWait
import Agenterm.Chassis.L2DispatchTheorems
import Agenterm.Script.Artifact
import Agenterm.Vnc.Framebuffer
import Agenterm.Script.TaskGraph
import Agenterm.Ui.TreeRowHitTest
import Agenterm.Ui.WordSelection
import Agenterm.Cu.PageTextTheorems
import Agenterm.Cu.SshReply
import Agenterm.Server.InstanceCleanup
import Agenterm.Incremental.WrapperTheorems
