import KeyScan.Bytes
import KeyScan.Text.Grouped
import KeyScan.Text.Places
import KeyScan.Report
import KeyScan.Json.Writer
import KeyScan.Json.Reader
import KeyScan.Options.Written
import KeyScan.Window
import KeyScan.Table.Walker
import KeyScan.Snapshots
import KeyScan.Engine.Positioning
import KeyScan.Engine.Memory
import KeyScan.Engine.Journal
import KeyScan.Engine.Script
import KeyScan.Page
import KeyScan.Reader
import KeyScan.Admission.Handshake
import KeyScan.Roster
import KeyScan.Tally
import KeyScan.Traffic.Completion
import KeyScan.Traffic.Caller
import KeyScan.Session.Command
import KeyScan.Benchmark.Summary
import KeyScan.Benchmark.Workload
import KeyScan.Demonstration
import KeyScan.Main
import KeyScan.Proofs.Travel
import KeyScan.Proofs.Table.Visibility
import KeyScan.Proofs.Table.Scan
import KeyScan.Proofs.Engine.Contents
import KeyScan.Proofs.Window.Bounds
import KeyScan.Proofs.Window.Selection
import KeyScan.Proofs.Engine.Courses
import KeyScan.Proofs.Engine.Census
import KeyScan.Proofs.Engine.Stock
import KeyScan.Proofs.Engine.Suppliers
import KeyScan.Proofs.Reader.Outlook
import KeyScan.Proofs.Reader.Stocked
import KeyScan.Proofs.Reader.Sight
import KeyScan.Proofs.Reader.Remaining
import KeyScan.Proofs.Reader.Seeking
import KeyScan.Proofs.Reader.Cutting
import KeyScan.Proofs.Reader.Balking
import KeyScan.Proofs.Reader.Rounds
import KeyScan.Proofs.Reader.Frame
import KeyScan.Proofs.Reader.Pin
import KeyScan.Proofs.Service.Condition
import KeyScan.Proofs.Service.Counts
import KeyScan.Proofs.Service.Catalog
import KeyScan.Proofs.Traffic.Life
import KeyScan.Proofs.Traffic.Ending
import KeyScan.Proofs.Service.Standing
import KeyScan.Proofs.Service.Listing
import KeyScan.Proofs.Service.Stability
import KeyScan.Proofs.Service.Isolation
import KeyScan.Proofs.Engine.History
import KeyScan.Proofs.Table.Cursor
import KeyScan.Proofs.Service.Waiting
import KeyScan.Proofs.Traffic.Errand
import KeyScan.Proofs.Traffic.Ledger
import KeyScan.Proofs.Traffic.Record
import KeyScan.Proofs.Traffic.Outcomes
import KeyScan.Proofs.Traffic.Delivery
import KeyScan.Proofs.Service.Pins
import KeyScan.Proofs.Traffic.Turns
import KeyScan.Proofs.Traffic.Dispatch
import KeyScan.Proofs.Traffic.Closing
import KeyScan.Proofs.Traffic.Admittance
import KeyScan.Proofs.Traffic.Scope
import KeyScan.Proofs.Traffic.Reading
import KeyScan.Proofs.Traffic.Interchange
import KeyScan.Proofs.Traffic.Books
import KeyScan.Proofs.Traffic.Accounts
import KeyScan.Proofs.Window.Agreement
import KeyScan.Proofs.Reader.Counting
import KeyScan.Proofs.Reader.Exhaustion
import KeyScan.Proofs.Reader.Starting
import KeyScan.Proofs.Admission.Notice
import KeyScan.Proofs.Reader.Custody
import KeyScan.Proofs.Reader.Parking
import KeyScan.Proofs.Service.Views
import KeyScan.Proofs.Traffic.Parkings
import KeyScan.Proofs.Engine.Holdings
import KeyScan.Proofs.Text.Units
import KeyScan.Proofs.Text.Grouped
import KeyScan.Proofs.Json.Spelling
import KeyScan.Proofs.Json.Reading
import KeyScan.Proofs.Json.Writing
import KeyScan.Proofs.Json.Forms
import KeyScan.Proofs.Options.Decoding
import KeyScan.Proofs.Benchmark.Keys
import KeyScan.Proofs.Benchmark.Filling
import KeyScan.Proofs.Service.Attending
import KeyScan.Proofs.Traffic.Pooling
import KeyScan.Proofs.Benchmark.Dividing
import KeyScan.Proofs.Benchmark.Draining
import KeyScan.Proofs.Benchmark.Targets
import KeyScan.Proofs.Benchmark.Runs
import KeyScan.Proofs.Benchmark.Outcomes
