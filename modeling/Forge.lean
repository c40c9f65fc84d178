import Forge.Copy.Wire
import Forge.Copy.Reader
import Forge.Copy.Download
import Forge.Copy.Agreement
import Forge.Copy.Goroutines
import Forge.Copy.Path
import Forge.Copy.Grammar
import Forge.Session.Client
import Forge.Session.CloseSignal
import Forge.Session.KeepAlive
import Forge.Session.WaitForSSH
import Forge.Session.Address
import Forge.Orchestrator.Reconcile
import Forge.Watcher.Model
import Forge.Watcher.Statuses
import Forge.Watcher.Errors
import Forge.Watcher.Retry
import Forge.Predicates.All
