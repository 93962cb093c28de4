import AxiomDesktop.Account.Barrier
import AxiomDesktop.Acp.Journaled
import AxiomDesktop.Acp.SettingsUndone
import AxiomDesktop.Acp.Stranded
import AxiomDesktop.Agent.Authorized
import AxiomDesktop.Agent.Lossless
import AxiomDesktop.Agent.Replayed
import AxiomDesktop.Agent.SteeringDelivery
import AxiomDesktop.App.Lifecycle
import AxiomDesktop.Auth.RefreshOnce
import AxiomDesktop.Chat.SingleFlight
import AxiomDesktop.Client.AcpSettlement
import AxiomDesktop.Client.GapRepair
import AxiomDesktop.Desktop.ProxyOwned
import AxiomDesktop.Desktop.UpdateNewer
import AxiomDesktop.Inference.Splits
import AxiomDesktop.Plan.Reviewed
import AxiomDesktop.Policy.Containment
import AxiomDesktop.Proxy.StrictMode
import AxiomDesktop.Release.Agreement
import AxiomDesktop.SecureClient.DroppedControls
import AxiomDesktop.SecureClient.Forwarded
import AxiomDesktop.SecureClient.FreshSessions
import AxiomDesktop.SecureClient.HelperReused
import AxiomDesktop.SecureClient.LastKnownGood
import AxiomDesktop.SecureClient.PythonFloat
import AxiomDesktop.SecureClient.Rollback
import AxiomDesktop.SecureClient.SseReceipts
import AxiomDesktop.SecureClient.ToolCallIds
import AxiomDesktop.Session.Bearer
import AxiomDesktop.Session.CatalogPages
import AxiomDesktop.Session.FollowsKernel
import AxiomDesktop.Session.Revision
import AxiomDesktop.Session.Shelves
import AxiomDesktop.Session.Streaming
import AxiomDesktop.Session.Titles
import AxiomDesktop.Session.ToolRows
import AxiomDesktop.Session.Verified
import AxiomDesktop.Tui.Answers
import AxiomDesktop.Tui.Navigation
import AxiomDesktop.Update.Forward
import AxiomDesktop.Web.Redirects
import AxiomDesktop.Workspace.LiveOutput
import AxiomDesktop.Workspace.Replace
import AxiomDesktop.Workspace.Toolchains
import AxiomDesktop.Workspace.Windows
