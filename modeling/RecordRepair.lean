import RecordRepair.ClassFile.Exchange
import RecordRepair.Descriptor.Printer
import RecordRepair.Json.Printer
import RecordRepair.Registry.Exchange
import RecordRepair.Session
import RecordRepair.Signature.Agenda
import RecordRepair.Signature.Tree
import RecordRepair.Text.Utf8
import RecordRepair.Proofs.Signature.Reading
import RecordRepair.Proofs.Signature.Rewriting
import RecordRepair.Proofs.Signature.TreeReading
import RecordRepair.Proofs.Signature.Steps
import RecordRepair.Proofs.Signature.Stream
import RecordRepair.Proofs.Signature.Splicing
import RecordRepair.Proofs.Signature.SplicedText
import RecordRepair.Proofs.Signature.Derivation
import RecordRepair.Proofs.Signature.Grammar
import RecordRepair.Proofs.Signature.Depths
import RecordRepair.Proofs.Signature.Viability
import RecordRepair.Proofs.Descriptor.Rendering
import RecordRepair.Proofs.ClassFile.Visibility
import RecordRepair.Proofs.Record.Bindings
import RecordRepair.Proofs.Record.Survey
import RecordRepair.Proofs.Record.Declaration
import RecordRepair.Proofs.Record.Closure
import RecordRepair.Proofs.Record.Outcome
import RecordRepair.Proofs.Record.Frame
import RecordRepair.Proofs.Record.Stability
import RecordRepair.Proofs.Record.Collection
import RecordRepair.Proofs.Record.Discovery
import RecordRepair.Proofs.Record.FirstFailure
import RecordRepair.Proofs.Record.Failures
import RecordRepair.Proofs.Record.Batch
import RecordRepair.Proofs.Descriptor.Agreement
import RecordRepair.Proofs.Record.Composition
import RecordRepair.Proofs.Record.Consultation
import RecordRepair.Proofs.Signature.Uses
import RecordRepair.Proofs.Record.DirectUse
import RecordRepair.Proofs.Record.Mirroring
import RecordRepair.Proofs.Record.MemberOrder
import RecordRepair.Proofs.Signature.Finding
import RecordRepair.Proofs.Signature.Locations
import RecordRepair.Proofs.Signature.Renaming
import RecordRepair.Proofs.Record.LocalNames
import RecordRepair.Proofs.Signature.Extension
import RecordRepair.Proofs.Signature.Classification
import RecordRepair.Proofs.Signature.Parameters
import RecordRepair.Proofs.Signature.Length
import RecordRepair.Proofs.Signature.Agendas
import RecordRepair.Proofs.Signature.Balance
import RecordRepair.Proofs.Text.Cutting
import RecordRepair.Proofs.Record.Positions
