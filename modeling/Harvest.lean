import Harvest.Text.Blank
import Harvest.Text.Digits
import Harvest.Text.Utf8
import Harvest.Json.Decoder
import Harvest.Calendar.Instant
import Harvest.Calendar.Scan
import Harvest.Calendar.DayKey
import Harvest.Calendar.TimeOfDay
import Harvest.Calendar.MailDate
import Harvest.Text.Quoted
import Harvest.Killmail.Decode
import Harvest.Admission.Monitor
import Harvest.Api.Failure
import Harvest.Api.Headers
import Harvest.Api.Request
import Harvest.Api.Client
import Harvest.Api.Endpoint
import Harvest.Archive.Basic
import Harvest.Archive.Tally
import Harvest.Queue.Basic
import Harvest.Queue.Dispatch
import Harvest.Backup.Basic
import Harvest.Queue.Faulty
import Harvest.Backfill.Client
import Harvest.Backfill.Report
import Harvest.Import.Handling
import Harvest.Import.Importer
import Harvest.Admission.Gate
import Harvest.Admission.Lobby
import Harvest.Proofs.Admission.Openings
import Harvest.Archive.Faults
import Harvest.Simulation
import Harvest.Import.Rehearsal
import Harvest.Admission.Watch
import Harvest.Backfill.Rehearsal
import Harvest.Settings.Basic
import Harvest.Settings.Derived
import Harvest.Feed
import Harvest.Crawler.Basic
import Harvest.CommandLine.Command
import Harvest.CommandLine.LogFilter
import Harvest.CommandLine.Session
import Harvest.Json.Access
import Harvest.Crawler.Document
import Harvest.Main
import Harvest.Proofs.Archive.Records
import Harvest.Proofs.Import.Moves
import Harvest.Proofs.Queue.Items
import Harvest.Proofs.Queue.Ledger
import Harvest.Proofs.Run
import Harvest.Proofs.Import.Crew
import Harvest.Proofs.Import.Conservation
import Harvest.Proofs.Import.ExactlyOnce
import Harvest.Proofs.Archive.Tallies
import Harvest.Proofs.Import.Drain
import Harvest.Proofs.Import.Progress
import Harvest.Proofs.Backfill.Moves
import Harvest.Proofs.Backfill.Barrier
import Harvest.Proofs.Admission.Moves
import Harvest.Proofs.Admission.Downtime
import Harvest.Proofs.Admission.Exhaustion
import Harvest.Proofs.Admission.Recovery
import Harvest.Proofs.Json.Reading
import Harvest.Proofs.Archive.Lookup
import Harvest.Proofs.Calendar.Instants
import Harvest.Proofs.Import.Delivery
import Harvest.Proofs.Backfill.Completeness
import Harvest.Proofs.Admission.Silence
import Harvest.Proofs.Admission.OldReadings
import Harvest.Proofs.Admission.Settling
import Harvest.Proofs.Import.Intake
import Harvest.Proofs.Admission.Clearance
import Harvest.Proofs.Archive.Filtering
import Harvest.Proofs.Calendar.Dates
import Harvest.Proofs.Archive.Days
import Harvest.Proofs.Queue.SortedSet
import Harvest.Proofs.Api.Attempts
import Harvest.Proofs.Import.Breakdown
import Harvest.Proofs.Backfill.Breakdown
import Harvest.Proofs.Backfill.Ending
import Harvest.Proofs.Admission.ResponseLog
import Harvest.Proofs.Api.Resets
import Harvest.Proofs.Backfill.Passes
import Harvest.Proofs.Json.Writing
import Harvest.Proofs.Json.Records
import Harvest.Proofs.Calendar.Timestamps
import Harvest.Proofs.Killmail.Documents
import Harvest.Proofs.Archive.ReadBack
import Harvest.Proofs.Admission.Scarcity
import Harvest.Proofs.Crawler.Limits
import Harvest.Proofs.Backup.Places
import Harvest.Proofs.Backfill.Listing
import Harvest.Proofs.Archive.TallyOrder
import Harvest.Proofs.Queue.DispatchOrder
import Harvest.Proofs.Queue.Batches
import Harvest.Proofs.Text.Blanks
import Harvest.Proofs.Killmail.ItemText
import Harvest.Proofs.Calendar.DayKeys
import Harvest.Proofs.Backfill.TotalsOrder
