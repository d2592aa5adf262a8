import StickArbiter.Main
import StickArbiter.Station.Session
import StickArbiter.Proofs.History
import StickArbiter.Proofs.Failsafe
import StickArbiter.Proofs.Failover
import StickArbiter.Proofs.Hold
import StickArbiter.Proofs.Twins
import StickArbiter.Proofs.Ahead
import StickArbiter.Proofs.Interference
import StickArbiter.Proofs.Forestalling
import StickArbiter.Proofs.Publication
import StickArbiter.Proofs.Requests
import StickArbiter.Proofs.Notice
import StickArbiter.Proofs.Stickiness
import StickArbiter.Proofs.Displacement
import StickArbiter.Proofs.Takeover
import StickArbiter.Proofs.Reports
import StickArbiter.Proofs.Waiting
import StickArbiter.Proofs.Delivery
import StickArbiter.Proofs.Course
import StickArbiter.Proofs.Latency
import StickArbiter.Proofs.Accepted
import StickArbiter.Proofs.FileValues
import StickArbiter.Proofs.Reloads
import StickArbiter.Proofs.HeldSticks
import StickArbiter.Proofs.Indifference
import StickArbiter.Proofs.Epoch
import StickArbiter.Proofs.Silence
import StickArbiter.Proofs.Retuning
import StickArbiter.Proofs.Repetition
import StickArbiter.Proofs.Redundancy
import StickArbiter.Proofs.Finiteness
import StickArbiter.Proofs.Deadzone
import StickArbiter.Proofs.FileNames
import StickArbiter.Proofs.Shelf
import StickArbiter.Proofs.Retention
import StickArbiter.Proofs.Survival
import StickArbiter.Proofs.ReadBack
import StickArbiter.Proofs.Numerals
import StickArbiter.Proofs.Records
import StickArbiter.Proofs.RoundTrip
import StickArbiter.Proofs.Recorded
import StickArbiter.Proofs.Flips
import StickArbiter.Proofs.Confirmation
import StickArbiter.Proofs.Latches
import StickArbiter.Proofs.Ledger
import StickArbiter.Proofs.NameOrder
import StickArbiter.Proofs.Emissions
import StickArbiter.Proofs.SwitchChanges
import StickArbiter.Proofs.ReaderEnd
import StickArbiter.Proofs.Detection
import StickArbiter.Proofs.Binding
import StickArbiter.Proofs.Reselection
import StickArbiter.Proofs.SelectionLog
import StickArbiter.Proofs.Pacing
import StickArbiter.Proofs.RecordingLines
import StickArbiter.Proofs.JournalLines
