import RecentLaunches.Arguments
import RecentLaunches.Calendar
import RecentLaunches.Configuration
import RecentLaunches.Connection
import RecentLaunches.Database
import RecentLaunches.Database.Fault
import RecentLaunches.Database.Image
import RecentLaunches.Database.Modes
import RecentLaunches.Database.Schema
import RecentLaunches.Database.Table
import RecentLaunches.DatabaseFile
import RecentLaunches.DatabaseFile.Address
import RecentLaunches.DatabaseFile.Companion
import RecentLaunches.DatabaseFile.Uri
import RecentLaunches.Disk
import RecentLaunches.Disk.Fault
import RecentLaunches.Disk.Path
import RecentLaunches.Disk.Stored
import RecentLaunches.Document.Fault
import RecentLaunches.Document.Printer
import RecentLaunches.Document.Reader
import RecentLaunches.Fault
import RecentLaunches.History
import RecentLaunches.HistoryFile
import RecentLaunches.Invocation
import RecentLaunches.Json
import RecentLaunches.Json.Forms
import RecentLaunches.Json.Literal
import RecentLaunches.Launch
import RecentLaunches.Main
import RecentLaunches.Markup.Attribute
import RecentLaunches.Markup.Entity
import RecentLaunches.Markup.Scan
import RecentLaunches.Markup.Token
import RecentLaunches.Mode
import RecentLaunches.Program
import RecentLaunches.Recent
import RecentLaunches.Refusal
import RecentLaunches.Request
import RecentLaunches.Service
import RecentLaunches.Session
import RecentLaunches.Settings
import RecentLaunches.Store
import RecentLaunches.Store.Shelf
import RecentLaunches.Text.Blank
import RecentLaunches.Text.Combining
import RecentLaunches.Text.Cut
import RecentLaunches.Text.Octets
import RecentLaunches.Text.Quoted
import RecentLaunches.Text.Unprintable
import RecentLaunches.Timestamp
import RecentLaunches.Timestamp.Counted
import RecentLaunches.Timestamp.Printer
import RecentLaunches.Timestamp.Reader
import RecentLaunches.Toml
import RecentLaunches.Toml.Literal
import RecentLaunches.Toml.Number
import RecentLaunches.Toml.Table
import RecentLaunches.Toml.Value
import RecentLaunches.Usage
import RecentLaunches.Violation
import RecentLaunches.Proofs.Document.Element
import RecentLaunches.Proofs.History.Launches
import RecentLaunches.Proofs.Document.RoundTrip
import RecentLaunches.Proofs.Database.Lookup
import RecentLaunches.Proofs.Store.Keyed
import RecentLaunches.Proofs.History.Book
import RecentLaunches.Proofs.Disk.Saving
import RecentLaunches.Proofs.History.Keeping
import RecentLaunches.Proofs.Service.Restart
import RecentLaunches.Proofs.Recent.Contents
import RecentLaunches.Proofs.History.Series
import RecentLaunches.Proofs.History.Contents
import RecentLaunches.Proofs.History.Restored
import RecentLaunches.Proofs.Recent.Ranking
import RecentLaunches.Proofs.History.Ranking
import RecentLaunches.Proofs.History.Deletion
import RecentLaunches.Proofs.History.Departure
import RecentLaunches.Proofs.Service.Queue
import RecentLaunches.Proofs.Service.Confirmation
import RecentLaunches.Proofs.Database.Registry
import RecentLaunches.Proofs.Disk.Kinds
import RecentLaunches.Proofs.History.Agreement
import RecentLaunches.Proofs.Database.Connected
import RecentLaunches.Proofs.Program.Work
import RecentLaunches.Proofs.Program.Site
import RecentLaunches.Proofs.Program.Ledger
import RecentLaunches.Proofs.Program.Commands
import RecentLaunches.Proofs.Program.Runs
import RecentLaunches.Proofs.Database.Listing
import RecentLaunches.Proofs.Database.Repository
import RecentLaunches.Proofs.Database.Schema
import RecentLaunches.Proofs.Database.Migrating
import RecentLaunches.Proofs.Database.Opening
import RecentLaunches.Proofs.History.Latest
import RecentLaunches.Proofs.Document.Meaning
import RecentLaunches.Proofs.Disk.Lineage
import RecentLaunches.Proofs.Disk.Away
import RecentLaunches.Proofs.Database.Resting
import RecentLaunches.Proofs.History.Resaving
import RecentLaunches.Proofs.Program.Queries
import RecentLaunches.Proofs.History.Sparing
import RecentLaunches.Proofs.History.Requests
import RecentLaunches.Proofs.History.Eligibility
import RecentLaunches.Proofs.Document.Records
import RecentLaunches.Proofs.Document.Grammar
import RecentLaunches.Proofs.Text.Order
import RecentLaunches.Proofs.Timestamp.Days
import RecentLaunches.Proofs.Timestamp.Clocks
import RecentLaunches.Proofs.Timestamp.Stored
import RecentLaunches.Proofs.Timestamp.Chronology
import RecentLaunches.Proofs.Database.OldestFirst
import RecentLaunches.Proofs.Database.Reading
import RecentLaunches.Proofs.Database.Retention
import RecentLaunches.Proofs.History.Removal
import RecentLaunches.Proofs.History.Repetition
import RecentLaunches.Proofs.Recent.Conservation
import RecentLaunches.Proofs.Recent.Faults
