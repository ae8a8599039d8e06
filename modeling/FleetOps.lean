import FleetOps.Drill.Session
import FleetOps.Main
import FleetOps.Proofs.Execution.Record
import FleetOps.Proofs.Scheduler.Calls
import FleetOps.Proofs.Scheduler.Guards
import FleetOps.Proofs.Scheduler.Sound
import FleetOps.Proofs.Scheduler.Effect
import FleetOps.Proofs.Scheduler.Ledger
import FleetOps.Proofs.Scheduler.Entry
import FleetOps.Proofs.Scheduler.Exclusion
import FleetOps.Proofs.Scheduler.Accounting
import FleetOps.Proofs.Scheduler.History
import FleetOps.Proofs.Scheduler.Recovery
import FleetOps.Proofs.Scheduler.Upkeep
import FleetOps.Proofs.Scheduler.Convergence
import FleetOps.Proofs.Settings.Duplicates
import FleetOps.Proofs.Access.FailClosed
import FleetOps.Proofs.Access.Loading
import FleetOps.Proofs.Access.Decision
import FleetOps.Proofs.Access.Sessions
import FleetOps.Proofs.Json.Members
import FleetOps.Proofs.Execution.Content
import FleetOps.Proofs.Execution.Query
import FleetOps.Proofs.Store.Refinement
import FleetOps.Proofs.Access.Tenants
import FleetOps.Proofs.Scheduler.Refusals
import FleetOps.Proofs.Store.Frozen
import FleetOps.Proofs.Store.Reopening
import FleetOps.Proofs.Scheduler.SystemJobs
import FleetOps.Proofs.Settings.Expansion
import FleetOps.Proofs.Json.Forms
import FleetOps.Proofs.Access.Lookup
import FleetOps.Proofs.Access.Verdict
import FleetOps.Proofs.Scheduler.Switching
import FleetOps.Proofs.Cron.Weekday
import FleetOps.Proofs.Scheduler.Firings
import FleetOps.Proofs.Scheduler.Triggers
import FleetOps.Proofs.Store.Creation
import FleetOps.Proofs.Store.Pruning
import FleetOps.Proofs.Scheduler.Cleanup
import FleetOps.Proofs.Scheduler.Environments
import FleetOps.Proofs.Execution.Lifecycle
import FleetOps.Proofs.Scheduler.Search
import FleetOps.Proofs.Scheduler.Retrieval
import FleetOps.Proofs.Store.Register
import FleetOps.Proofs.Scheduler.Chronicle
import FleetOps.Proofs.Schedule.Id
import FleetOps.Proofs.Settings.Warnings
