import Turnstile.Backoff
import Turnstile.Blocking
import Turnstile.Cooperative
import Turnstile.Manifest
import Turnstile.Rehearsal.Run
import Turnstile.Proofs.Backoff.Accepted
import Turnstile.Proofs.Backoff.Shape
import Turnstile.Proofs.Balance
import Turnstile.Proofs.Clients
import Turnstile.Proofs.Crowd.Lapse
import Turnstile.Proofs.Exact.TwinTimeout
import Turnstile.Proofs.Fault.Package
import Turnstile.Proofs.Fault.Precedence
import Turnstile.Proofs.Hall.Apart
import Turnstile.Proofs.Hall.Depth
import Turnstile.Proofs.Hall.Handover
import Turnstile.Proofs.Hall.Ledger
import Turnstile.Proofs.Handles
import Turnstile.Proofs.Redis.Fifo
import Turnstile.Proofs.Redis.Raised
import Turnstile.Proofs.Rounds
import Turnstile.Proofs.Site.Reason
import Turnstile.Proofs.Tidy.CleanUp
import Turnstile.Proofs.Twins
import Turnstile.Proofs.Vacancy
import Turnstile.Proofs.Vigil.Stranded
