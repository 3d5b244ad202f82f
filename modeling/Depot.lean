import Depot.Site.Opening
import Depot.Proofs.Act
import Depot.Proofs.Change
import Depot.Proofs.Balance
import Depot.Proofs.Records
import Depot.Proofs.Room
import Depot.Proofs.Transfers
import Depot.Proofs.Outcomes
import Depot.Proofs.Moves
import Depot.Proofs.Jobs
import Depot.Proofs.Assessment
import Depot.Proofs.Quiet
import Depot.Proofs.Errands
import Depot.Proofs.Idling
import Depot.Proofs.Creation
import Depot.Proofs.Sweeps
import Depot.Proofs.Provision
import Depot.Proofs.Passage
import Depot.Proofs.Undertakings
import Depot.Proofs.Run
import Depot.Proofs.Holding
import Depot.Proofs.Charging
import Depot.Proofs.Pinning
import Depot.Proofs.Catalogues
import Depot.Proofs.Flights
import Depot.Proofs.SingleFlight
import Depot.Proofs.Sending
import Depot.Proofs.Turns
import Depot.Proofs.Strokes
import Depot.Proofs.Lifecycle
import Depot.Proofs.Quota
import Depot.Proofs.Eviction
import Depot.Proofs.Reservation
import Depot.Proofs.Commitment
import Depot.Proofs.Displacement
import Depot.Proofs.Recovery
import Depot.Proofs.Waiting
import Depot.Proofs.Expiry
import Depot.Proofs.Coherence
import Depot.Proofs.Notices
import Depot.Proofs.Promises
import Depot.Proofs.Warnings
import Depot.Proofs.References
import Depot.Proofs.Retries
import Depot.Proofs.Pacing
import Depot.Proofs.Trials
import Depot.Proofs.Idempotence
import Depot.Proofs.Numerals
import Depot.Proofs.Calendar
import Depot.Proofs.Stamps
import Depot.Proofs.Json
import Depot.Proofs.Written
import Depot.Proofs.Disk
import Depot.Proofs.Keeping
import Depot.Proofs.Calls
import Depot.Proofs.Paths
import Depot.Proofs.Removal
import Depot.Proofs.Clearance
import Depot.Proofs.Alerts
import Depot.Proofs.Silence
import Depot.Proofs.Reports
import Depot.Proofs.Requests
import Depot.Proofs.Arrivals
import Depot.Proofs.Cancellation
import Depot.Proofs.Verdicts
import Depot.Proofs.Locations
