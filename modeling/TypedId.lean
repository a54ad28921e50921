import TypedId.Defaults.Serial
import TypedId.Defaults.Trial
import TypedId.Digest.Sha256
import TypedId.Catalog.Edit
import TypedId.KindSet.Operation
import TypedId.Outline
import TypedId.Sink.Session
import TypedId.Proofs.Leftover
import TypedId.Proofs.Probes
import TypedId.Proofs.Failure
import TypedId.Proofs.Isolation
import TypedId.Proofs.Growth
import TypedId.Proofs.Placement
import TypedId.Proofs.Distinct
import TypedId.Proofs.CatalogSteps
import TypedId.Proofs.SetPrograms
import TypedId.Proofs.Layering
import TypedId.Proofs.Batches
import TypedId.Proofs.RawForms
import TypedId.Proofs.Resolution
import TypedId.Proofs.SerialDefaults
import TypedId.Proofs.Attribution
import TypedId.Proofs.DeclaredNames
import TypedId.Proofs.Layout
import TypedId.Proofs.HeaderList
import TypedId.Proofs.KnownNames
import TypedId.Proofs.ClauseLine
import TypedId.Proofs.StaleFiles
