import Troupe.Session
import Troupe.Settings.Text
import Troupe.Proofs.Atomicity
import Troupe.Proofs.Likeness
import Troupe.Proofs.Outside
import Troupe.Proofs.Blocked
import Troupe.Proofs.Shelter
import Troupe.Proofs.WaitingDeliveries
import Troupe.Proofs.Wakeups
import Troupe.Proofs.Isolation
import Troupe.Proofs.Serializer
import Troupe.Proofs.Space
import Troupe.Proofs.Plan
import Troupe.Proofs.Privacy
import Troupe.Proofs.Soup
import Troupe.Proofs.HeapPlans
import Troupe.Proofs.DoomedTrees
import Troupe.Proofs.SoupSteps
import Troupe.Proofs.Tracking
import Troupe.Proofs.Reference
import Troupe.Proofs.Trampoline
import Troupe.Proofs.Refinement
import Troupe.Proofs.Acts
import Troupe.Proofs.Mailbox
import Troupe.Proofs.Timetable
import Troupe.Proofs.Addresses
import Troupe.Proofs.Registration
import Troupe.Proofs.Enclosure
import Troupe.Proofs.PartOwnership
import Troupe.Proofs.Hosting
import Troupe.Proofs.Dangling
import Troupe.Proofs.Batches
import Troupe.Proofs.Binders
import Troupe.Proofs.SingleAssignment
import Troupe.Proofs.Unification
import Troupe.Proofs.Printing
import Troupe.Proofs.Confluence
import Troupe.Proofs.Pausing
import Troupe.Proofs.Transcript
import Troupe.Proofs.Matching
import Troupe.Proofs.Retention
import Troupe.Proofs.UntilIdle
import Troupe.Proofs.SilentExpressions
import Troupe.Proofs.Inquiry
import Troupe.Proofs.Latch
import Troupe.Proofs.Legible
import Troupe.Proofs.Selfhood
import Troupe.Proofs.Arithmetic
import Troupe.Proofs.Equality
import Troupe.Proofs.Notation
import Troupe.Proofs.Generator
