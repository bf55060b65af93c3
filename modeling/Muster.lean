import Muster.Binary64.Basic
import Muster.Binary64.Rounding
import Muster.Decimal.Layout
import Muster.Text.Extender
import Muster.Text.Quoted
import Muster.Record.Basic
import Muster.Record.Display
import Muster.Json.Failure
import Muster.Json.Number
import Muster.Json.Text
import Muster.Json.Walk
import Muster.Json.Skip
import Muster.Record.Json
import Muster.Digest.Stream
import Muster.Key
import Muster.Config.Basic
import Muster.Config.Json
import Muster.Barrier
import Muster.Census.Basic
import Muster.Census.Calls
import Muster.Grouper.Basic
import Muster.Grouper.Handles
import Muster.Replica.Basic
import Muster.Replica.Build
import Muster.Inlet
import Muster.Roster
import Muster.Crew.Basic
import Muster.Crew.Context
import Muster.Crew.Run
import Muster.Proofs.Census.Sound
import Muster.Proofs.Census.Changes
import Muster.Proofs.Census.Sections
import Muster.Proofs.Traffic.Calls
import Muster.Proofs.Census.Steady
import Muster.Proofs.Traffic.Basic
import Muster.Proofs.Census.HandOff
import Muster.Proofs.Traffic.Frozen
import Muster.Proofs.Traffic.Tally
import Muster.Proofs.Census.Cycle
import Muster.Proofs.Census.Tally
import Muster.Proofs.Census.Sweeping
import Muster.Proofs.Census.Counting
import Muster.Proofs.Squad.Basic
import Muster.Proofs.Squad.Seats
import Muster.Proofs.Squad.Once
import Muster.Proofs.Grouper.Groups
import Muster.Proofs.Grouper.Alone
import Muster.Proofs.Squad.Sequential
import Muster.Proofs.Census.Ledger
import Muster.Proofs.Census.Sharding
import Muster.Proofs.Census.Undercount
import Muster.Proofs.Census.Cardinality
import Muster.Proofs.Fields
import Muster.Proofs.Validation
import Muster.Proofs.Grouper.Tabulating
import Muster.Proofs.Agreement
import Muster.Proofs.Grouper.Identifying
import Muster.Proofs.Crew.Building
import Muster.Proofs.Crew.Refusal
import Muster.Proofs.Squad.Turns
import Muster.Proofs.Squad.Books
import Muster.Proofs.Squad.Joining
import Muster.Proofs.Squad.Reckoning
import Muster.Proofs.Squad.Passes
import Muster.Proofs.Assembly
import Muster.Proofs.Camp.Scopes
import Muster.Proofs.Crew.Stranding
import Muster.Proofs.Crew.Undisturbed
import Muster.Proofs.Traffic.Readers
import Muster.Proofs.Census.Twins
import Muster.Proofs.Census.Breaking
import Muster.Proofs.Census.Renewing
import Muster.Proofs.Census.Auditing
import Muster.Proofs.Grouper.Retaining
import Muster.Proofs.Grouper.Unbroken
import Muster.Proofs.Replica.Steps
import Muster.Proofs.Replica.Stopping
import Muster.Proofs.Crew.Reporting
import Muster.Proofs.Record.Digesting
import Muster.Proofs.Record.Nesting
import Muster.Proofs.Record.Unambiguous
import Muster.Proofs.Json.Spelling
import Muster.Proofs.Json.Integers
import Muster.Proofs.Json.Listing
import Muster.Proofs.Json.Grammar
import Muster.Proofs.Json.Skipping
import Muster.Proofs.Config.Values
import Muster.Proofs.Config.RoundTrip
import Muster.Proofs.Record.RoundTrip
