import Tenure.Decimal.Rounded
import Tenure.Proofs.Admission.Denials
import Tenure.Proofs.Admission.Documents
import Tenure.Proofs.Admission.Exact
import Tenure.Proofs.Admission.Isolation
import Tenure.Proofs.Admission.Late
import Tenure.Proofs.Admission.Rate
import Tenure.Proofs.Admission.Totals
import Tenure.Proofs.Admission.Windows
import Tenure.Proofs.Agreement
import Tenure.Proofs.AllOrNothing
import Tenure.Proofs.Balancing.Evenness
import Tenure.Proofs.Balancing.InFlight
import Tenure.Proofs.Balancing.Turns
import Tenure.Proofs.BestFit
import Tenure.Proofs.Cancelling
import Tenure.Proofs.Codes
import Tenure.Proofs.Deadlines
import Tenure.Proofs.Discipline
import Tenure.Proofs.Draining
import Tenure.Proofs.Expiries
import Tenure.Proofs.Following
import Tenure.Proofs.Gate
import Tenure.Proofs.Generations
import Tenure.Proofs.Linearity
import Tenure.Proofs.LockOrder
import Tenure.Proofs.Membership
import Tenure.Proofs.Naming
import Tenure.Proofs.Occupancy
import Tenure.Proofs.Ownership
import Tenure.Proofs.Punctual
import Tenure.Proofs.Redeeming
import Tenure.Proofs.Refusals
import Tenure.Proofs.Settings.Usable
import Tenure.Proofs.Settlement
import Tenure.Proofs.SortedQueue
import Tenure.Proofs.Telling
