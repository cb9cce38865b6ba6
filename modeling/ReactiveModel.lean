import ReactiveModel.Main
import ReactiveModel.Proofs.Cleanup
import ReactiveModel.Proofs.Comparability
import ReactiveModel.Proofs.ExitCodes
import ReactiveModel.Proofs.JsonRoundTrip
import ReactiveModel.Proofs.MissingBindings
import ReactiveModel.Proofs.References
import ReactiveModel.Proofs.Repetition
import ReactiveModel.Proofs.Retry
import ReactiveModel.Proofs.StrictReading
import ReactiveModel.Proofs.Attachments
import ReactiveModel.Proofs.Classification
import ReactiveModel.Proofs.Visits
import ReactiveModel.Proofs.Registration
import ReactiveModel.Proofs.Hygiene
import ReactiveModel.Proofs.Setters
