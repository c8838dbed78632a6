import GraphicsEngine.Memory
import GraphicsEngine.Command.Cache
import GraphicsEngine.Command.Signal
import GraphicsEngine.Queue
import GraphicsEngine.ReturnStack
import GraphicsEngine.Sync
import GraphicsEngine.Clock
import GraphicsEngine.Trace
import GraphicsEngine.Engine.Drain
import GraphicsEngine.Snapshot.Read
import GraphicsEngine.Snapshot.Write
import GraphicsEngine.Snapshot.Writer
import GraphicsEngine.Text.Numeral
import GraphicsEngine.Text.Quoted
import GraphicsEngine.Engine.Operation
import GraphicsEngine.Session.AddressText
import GraphicsEngine.Session.Arguments
import GraphicsEngine.Session.Run
import GraphicsEngine.Main
import GraphicsEngine.Proofs.Snapshot.Inversion
import GraphicsEngine.Proofs.Snapshot.Records
import GraphicsEngine.Proofs.Snapshot.Grammar
import GraphicsEngine.Proofs.Snapshot.Layout
import GraphicsEngine.Proofs.Snapshot.RoundTrip
import GraphicsEngine.Proofs.Snapshot.Capacity
import GraphicsEngine.Proofs.Snapshot.Revision
import GraphicsEngine.Proofs.Engine.Transparency
import GraphicsEngine.Proofs.Engine.Waiting
import GraphicsEngine.Proofs.Engine.Restorability
import GraphicsEngine.Proofs.Engine.Piecewise
import GraphicsEngine.Proofs.Execution.Announcements
import GraphicsEngine.Proofs.Engine.Announcements
import GraphicsEngine.Proofs.Engine.Delivery
import GraphicsEngine.Proofs.Engine.Quiescence
import GraphicsEngine.Proofs.Engine.Order
import GraphicsEngine.Proofs.Engine.Numbers
import GraphicsEngine.Proofs.Engine.Ranges
import GraphicsEngine.Proofs.Engine.Loading
import GraphicsEngine.Proofs.Engine.Canonical
import GraphicsEngine.Proofs.Engine.Tearing
import GraphicsEngine.Proofs.Engine.Forwarding
import GraphicsEngine.Proofs.Engine.Balance
import GraphicsEngine.Proofs.Engine.Deferral
import GraphicsEngine.Proofs.Session.Checkpoint
import GraphicsEngine.Proofs.Engine.Nesting
import GraphicsEngine.Proofs.Engine.ReturnStack
import GraphicsEngine.Proofs.Engine.Termination
import GraphicsEngine.Proofs.Engine.Parallel
import GraphicsEngine.Proofs.Memory.History
import GraphicsEngine.Proofs.Memory.Image
import GraphicsEngine.Proofs.Execution.Straight
import GraphicsEngine.Proofs.Text.Numeral
import GraphicsEngine.Proofs.Session.AddressText
import GraphicsEngine.Proofs.Session.Image
