import ReviewRota.Main
import ReviewRota.RowFault
import ReviewRota.Proofs.Commuting
import ReviewRota.Proofs.Envelope
import ReviewRota.Proofs.Failure
import ReviewRota.Proofs.Merging
import ReviewRota.Proofs.OnDuty
import ReviewRota.Proofs.Opening
import ReviewRota.Proofs.Overload
import ReviewRota.Proofs.Planning
import ReviewRota.Proofs.Reassignment
import ReviewRota.Proofs.Seeding
import ReviewRota.Proofs.Views
import ReviewRota.Proofs.Winner
import ReviewRota.Proofs.Rosters
import ReviewRota.Proofs.Replacement
import ReviewRota.Proofs.Storing
import ReviewRota.Proofs.Closings
import ReviewRota.Proofs.RoundTrip
import ReviewRota.Proofs.Migrations
import ReviewRota.Proofs.Batches
import ReviewRota.Proofs.Rewriting
