import EventModel.Main
import EventModel.Proofs.Check.Layout
import EventModel.Proofs.Check.Picture
import EventModel.Proofs.Check.Underlining
import EventModel.Proofs.Check.Uniqueness
import EventModel.Proofs.Connection.Outcomes
import EventModel.Proofs.Diagram.Indexing
import EventModel.Proofs.Document.Continuation
import EventModel.Proofs.Document.ElementForms
import EventModel.Proofs.Document.FieldBounds
import EventModel.Proofs.Document.Naming
import EventModel.Proofs.Document.NoteAttachment
import EventModel.Proofs.Document.NoteEntries
import EventModel.Proofs.Document.RoundTrip
import EventModel.Proofs.Document.WrittenFlows
import EventModel.Proofs.Program.Outcome
import EventModel.Proofs.Rule.Branching
import EventModel.Proofs.Rule.CellSharing
import EventModel.Proofs.Rule.Reordering
import EventModel.Proofs.Rule.RowRepair
import EventModel.Proofs.Rule.SliceDemands
import EventModel.Proofs.Rule.Spelling
