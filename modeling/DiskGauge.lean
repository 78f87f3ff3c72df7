import DiskGauge.Bench.Harness
import DiskGauge.Http.Service
import DiskGauge.Main
import DiskGauge.Station.Listener
import DiskGauge.Storage.Folder
import DiskGauge.Proofs.Feed.Tidy
import DiskGauge.Proofs.Feed.Roll
import DiskGauge.Proofs.Gauge.Coherence
import DiskGauge.Proofs.Station.Evolution
import DiskGauge.Proofs.Station.Moves
import DiskGauge.Proofs.Station.Rendering
import DiskGauge.Proofs.Station.Wiring
import DiskGauge.Proofs.Station.Upkeep
import DiskGauge.Proofs.Station.Ledger
import DiskGauge.Proofs.Station.Gauges
import DiskGauge.Proofs.Station.Hosting
import DiskGauge.Proofs.Feed.Foreign
import DiskGauge.Proofs.Station.Settling
import DiskGauge.Proofs.Usage.Exchange
import DiskGauge.Proofs.Usage.Events
import DiskGauge.Proofs.Preferences.Restart
import DiskGauge.Proofs.Preferences.Traffic
import DiskGauge.Proofs.Http.Admission
import DiskGauge.Proofs.Http.Quiet
import DiskGauge.Proofs.Preferences.Record
import DiskGauge.Proofs.Station.Relay
import DiskGauge.Proofs.Station.Silence
import DiskGauge.Proofs.Toml.Document
import DiskGauge.Proofs.Probe.Saving
import DiskGauge.Proofs.Station.Intake
import DiskGauge.Proofs.Http.Overlap
import DiskGauge.Proofs.Station.Glimpse
import DiskGauge.Proofs.Probe.Root
import DiskGauge.Proofs.Preferences.Breakdown
import DiskGauge.Proofs.Gauge.Severity
import DiskGauge.Proofs.Usage.Label
import DiskGauge.Proofs.Http.Repeated
import DiskGauge.Proofs.Usage.Accuracy
import DiskGauge.Proofs.Usage.Layout
import DiskGauge.Proofs.Bench.Account
