import Splinterm.Core.Restart
import Splinterm.Core.Migration
import Splinterm.Daemon.MetadataStore
import Splinterm.Daemon.PendingAccessRun
import Splinterm.Daemon.ConsentRun
import Splinterm.Daemon.AgentAccessRun
import Splinterm.Daemon.ControlTransfers
import Splinterm.Daemon.PublicationBytes
import Splinterm.Daemon.PtyWrites
import Splinterm.Relay.Codec
import Splinterm.Relay.ClientIsolation
import Splinterm.Terminal.SixelShape
import Splinterm.Policy.Budget
import Splinterm.Preset.Placeholders
import Splinterm.Relay.ServerIsolation
import Splinterm.Relay.FairQueue
import Splinterm.Terminal.ReflowText
import Splinterm.Terminal.ReflowRowMap
import Splinterm.Handoff.ManifestSpec
import Splinterm.Handoff.HoldRun
import Splinterm.Terminal.GridScrollHistory
import Splinterm.Terminal.SearchRun
import Splinterm.Terminal.ParserText
import Splinterm.Terminal.ParserEscape
import Splinterm.Terminal.PlaneAccounts
import Splinterm.Terminal.UpdateWindow
import Splinterm.Terminal.WideCells
import Splinterm.Window.PaneGap
import Splinterm.Window.HistoryCache
