import StaticInit.Main
import StaticInit.Proofs.Conservation
import StaticInit.Proofs.Copies
import StaticInit.Proofs.Dispatch
import StaticInit.Proofs.Equality
import StaticInit.Proofs.Failures
import StaticInit.Proofs.Finality
import StaticInit.Proofs.History
import StaticInit.Proofs.Invocations
import StaticInit.Proofs.Looks
import StaticInit.Proofs.Memory
import StaticInit.Proofs.NumberValues
import StaticInit.Proofs.Observation
import StaticInit.Proofs.Occupancy
import StaticInit.Proofs.Readability
import StaticInit.Proofs.Separation
import StaticInit.Proofs.Settings
import StaticInit.Proofs.Story
import StaticInit.Proofs.Writing
