import SubmissionAnnotation.Action.Bare
import SubmissionAnnotation.Main
import SubmissionAnnotation.Proofs.Advance
import SubmissionAnnotation.Proofs.Walks
import SubmissionAnnotation.Proofs.Settling
import SubmissionAnnotation.Proofs.Dispatch
import SubmissionAnnotation.Proofs.Delivery
import SubmissionAnnotation.Proofs.Completion
import SubmissionAnnotation.Proofs.Recording
import SubmissionAnnotation.Proofs.Loading
import SubmissionAnnotation.Proofs.Session
import SubmissionAnnotation.Proofs.SlotMoves
import SubmissionAnnotation.Proofs.Records
import SubmissionAnnotation.Proofs.Lifecycle
import SubmissionAnnotation.Proofs.HandIn
import SubmissionAnnotation.Proofs.Provenance
import SubmissionAnnotation.Proofs.History
import SubmissionAnnotation.Proofs.Batches
import SubmissionAnnotation.Proofs.Reading
import SubmissionAnnotation.Proofs.Parameters
import SubmissionAnnotation.Proofs.SchemaEdits
import SubmissionAnnotation.Proofs.SchemaMeaning
import SubmissionAnnotation.Proofs.StoredTranscripts
import SubmissionAnnotation.Json.SameData
import SubmissionAnnotation.Proofs.Interleaving
import SubmissionAnnotation.Proofs.Sharing
import SubmissionAnnotation.Proofs.Publication
import SubmissionAnnotation.Proofs.PublishedShape
import SubmissionAnnotation.Proofs.SlotKeys
import SubmissionAnnotation.Proofs.StoredTypes
import SubmissionAnnotation.Proofs.Discovery
import SubmissionAnnotation.Proofs.Engines
import SubmissionAnnotation.Proofs.SchemaWrites
import SubmissionAnnotation.Proofs.Acceptance
import SubmissionAnnotation.Proofs.SlotSets
import SubmissionAnnotation.Proofs.DiscoveredNames
import SubmissionAnnotation.Proofs.MatrixLayout
import SubmissionAnnotation.Proofs.Registrations
import SubmissionAnnotation.Proofs.Repeats
