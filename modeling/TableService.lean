import TableService.Metrics.Exposition
import TableService.Proofs.Command.Asked
import TableService.Proofs.Command.Careful
import TableService.Proofs.Command.Chronicle
import TableService.Proofs.Command.Creation
import TableService.Proofs.Command.InTime
import TableService.Proofs.Command.Request
import TableService.Proofs.Command.Scope
import TableService.Proofs.Command.SeenMenu
import TableService.Proofs.Command.Serial
import TableService.Proofs.Command.WellFormed
import TableService.Proofs.Number.Product
import TableService.Proofs.Outbox.Inquiry
import TableService.Proofs.Outbox.Lifecycle
import TableService.Proofs.Outbox.Settings
import TableService.Proofs.Outbox.Stored
import TableService.Proofs.ReadModel.HandlerTable
import TableService.Proofs.ReadModel.ItemsShown
import TableService.Proofs.ReadModel.Reordering
import TableService.Proofs.ReadModel.WireForm
import TableService.Proofs.Relay.HandOver
import TableService.Proofs.Service.AuditTrail
import TableService.Proofs.Service.Bookkeeping
import TableService.Proofs.Service.Dispatch
import TableService.Proofs.Service.OnePass
import TableService.Proofs.Service.Recovery
import TableService.Proofs.Service.Redelivery
import TableService.Proofs.Store.Isolation
import TableService.Proofs.Store.WholeCommit
import TableService.Proofs.Worker.Timetable
import TableService.Service.Session
import TableService.Text.Uuid
import TableService.Wire.Event
import TableService.Wire.ReadModel
