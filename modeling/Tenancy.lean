import Tenancy.Json.Reader
import Tenancy.Json.Writer
import Tenancy.Organization.Logic
import Tenancy.Deployment.Logic
import Tenancy.Store.Disturbed
import Tenancy.Settings
import Tenancy.Subject
import Tenancy.Pacer
import Tenancy.Queue.Lobby
import Tenancy.Fanout
import Tenancy.Registry
import Tenancy.Control.Direct
import Tenancy.Control.Lifecycle
import Tenancy.Control.Lookup
import Tenancy.Reconcile.Script
import Tenancy.Startup
import Tenancy.Queue.Session
import Tenancy.Main
import Tenancy.Proofs.Pacer
import Tenancy.Proofs.Queue.Consistent
import Tenancy.Proofs.Queue.Service
import Tenancy.Proofs.Store.Effect
import Tenancy.Proofs.Store.Versions
import Tenancy.Proofs.Reconcile.Dialogue
import Tenancy.Proofs.Reconcile.Guard
import Tenancy.Proofs.Equality
import Tenancy.Proofs.Store.Listing
import Tenancy.Proofs.Deployment.Verdict
import Tenancy.Proofs.Deployment.Upkeep
import Tenancy.Proofs.Deployment.Concern
import Tenancy.Proofs.Control.Desk
import Tenancy.Proofs.Control.Moves
import Tenancy.Proofs.Control.Passes
import Tenancy.Proofs.Control.Rest
import Tenancy.Proofs.Reconcile.Exits
import Tenancy.Proofs.Reconcile.Manner
import Tenancy.Proofs.Reconcile.Visit
import Tenancy.Proofs.Queue.Roster
import Tenancy.Proofs.Control.Crew
import Tenancy.Proofs.Control.Station
import Tenancy.Proofs.Reconcile.Dismissal
import Tenancy.Proofs.Control.Host
import Tenancy.Proofs.Control.Coverage
import Tenancy.Proofs.Reconcile.Pace
import Tenancy.Proofs.Control.Chains
import Tenancy.Proofs.Control.Spacing
import Tenancy.Proofs.Store.Replay
import Tenancy.Proofs.Store.Generation
import Tenancy.Proofs.Reconcile.Echo
import Tenancy.Proofs.Identity
import Tenancy.Proofs.Reconcile.Grip
import Tenancy.Proofs.Reconcile.Workshop
import Tenancy.Proofs.Reconcile.Counters
import Tenancy.Proofs.Control.Watch
import Tenancy.Proofs.Reconcile.Deadline
import Tenancy.Proofs.Control.Direct
import Tenancy.Proofs.Reconcile.Footprint
import Tenancy.Proofs.Reconcile.Rounds
import Tenancy.Proofs.Wire.RoundTrip
import Tenancy.Proofs.Store.Integrity
import Tenancy.Proofs.Registers
import Tenancy.Proofs.Deployment.Effective
import Tenancy.Proofs.Segments
import Tenancy.Proofs.Deployment.Malformed
import Tenancy.Proofs.Reconcile.Settled
import Tenancy.Proofs.Registry
import Tenancy.Proofs.Condition
import Tenancy.Proofs.Control.Fanout
import Tenancy.Proofs.Store.Parts
import Tenancy.Proofs.Queue.Waking
import Tenancy.Proofs.Startup
import Tenancy.Proofs.Reconcile.Causes
import Tenancy.Proofs.Observed
import Tenancy.Proofs.Overflow
