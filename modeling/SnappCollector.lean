import SnappCollector.CLib.Float
import SnappCollector.CLib.Integer
import SnappCollector.CLib.Process
import SnappCollector.CLib.Text
import SnappCollector.CLib.Tokens
import SnappCollector.Collection.CleanValue
import SnappCollector.Collection.GetCollect
import SnappCollector.Collection.Proofs.Alignment
import SnappCollector.Collection.Proofs.Clock
import SnappCollector.Collection.Proofs.InitialClock
import SnappCollector.Collection.Proofs.Pushes
import SnappCollector.Collection.Proofs.Reboots
import SnappCollector.Collection.Proofs.RoundTrip
import SnappCollector.Collection.Proofs.SafePointer
import SnappCollector.Collection.Proofs.Snmp
import SnappCollector.Collection.Proofs.Times
import SnappCollector.Collection.Proofs.UnknownValues
import SnappCollector.Collection.Proofs.Uptime
import SnappCollector.Collection.Rounds
import SnappCollector.Collection.Snmp
import SnappCollector.Collection.Types
import SnappCollector.CollectionClass.Machine
import SnappCollector.CollectionClass.Proofs.Cancellation
import SnappCollector.CollectionClass.Proofs.Completion
import SnappCollector.CollectionClass.Proofs.Exclusion
import SnappCollector.CollectionClass.Proofs.Ledger
import SnappCollector.CollectionClass.Proofs.Locks
import SnappCollector.CollectionClass.Proofs.Rounds
import SnappCollector.CollectionClass.Proofs.Shutdown
import SnappCollector.CollectionClass.Steps
import SnappCollector.Config.Database
import SnappCollector.Config.Grammar
import SnappCollector.Config.IdTables
import SnappCollector.Config.InitConfig
import SnappCollector.Config.LoadClasses
import SnappCollector.Config.LoadConfig
import SnappCollector.Config.LoadTables
import SnappCollector.Config.Pages
import SnappCollector.Config.Proofs.Chains
import SnappCollector.Config.Proofs.Closed
import SnappCollector.Config.Proofs.Consistent
import SnappCollector.Config.Proofs.Definitions
import SnappCollector.Config.Proofs.Directories
import SnappCollector.Config.Proofs.Disk
import SnappCollector.Config.Proofs.Grammar
import SnappCollector.Config.Proofs.IdTables
import SnappCollector.Config.Proofs.InitConfig
import SnappCollector.Config.Proofs.LoadConfig
import SnappCollector.Config.Proofs.LoadedMapping
import SnappCollector.Config.Proofs.LoadedRows
import SnappCollector.Config.Proofs.LoadedTables
import SnappCollector.Config.Proofs.Pages
import SnappCollector.Config.Proofs.Paging
import SnappCollector.Config.Proofs.RowSteps
import SnappCollector.Config.Proofs.Rows
import SnappCollector.Config.Proofs.RrdFiles
import SnappCollector.Config.Proofs.Suffixes
import SnappCollector.Config.Proofs.Ties
import SnappCollector.Config.Proofs.Xml
import SnappCollector.Config.RrdFiles
import SnappCollector.Config.Suffixes
import SnappCollector.Config.Tables
import SnappCollector.Config.Xml
import SnappCollector.Control.Commands
import SnappCollector.Control.Machine
import SnappCollector.Control.Proofs.Accepts
import SnappCollector.Control.Proofs.Login
import SnappCollector.Control.Proofs.Passwords
import SnappCollector.Control.Proofs.Segments
import SnappCollector.Control.Proofs.Transcript
import SnappCollector.Control.Steps
import SnappCollector.Control.Transcript
import SnappCollector.Daemon.Machine
import SnappCollector.Daemon.Proofs.Answers
import SnappCollector.Daemon.Proofs.Objects
import SnappCollector.Daemon.Proofs.Ownership
import SnappCollector.Daemon.Proofs.Reload
import SnappCollector.Daemon.Proofs.Requests
import SnappCollector.Daemon.Proofs.Termination
import SnappCollector.Daemon.Reload
import SnappCollector.Daemon.Steps
import SnappCollector.Data.Checked
import SnappCollector.Data.Course
import SnappCollector.Data.Grouping
import SnappCollector.Data.IndexMap
import SnappCollector.Data.Lexicographic
import SnappCollector.Data.Lines
import SnappCollector.Data.Loops
import SnappCollector.Data.Relations
import SnappCollector.Data.Smoothing
import SnappCollector.Data.SortedPages
import SnappCollector.Hosts.OidTable
import SnappCollector.Hosts.Proofs.Complete
import SnappCollector.Hosts.Proofs.Instances
import SnappCollector.Hosts.Proofs.OidTable
import SnappCollector.Hosts.Proofs.Progress
import SnappCollector.Hosts.Proofs.Snmp
import SnappCollector.Hosts.Proofs.Walks
import SnappCollector.Hosts.Snmp
import SnappCollector.Log.Machine
import SnappCollector.Log.Proofs.Levels
import SnappCollector.Log.Proofs.Progress
import SnappCollector.Log.Proofs.Regexp
import SnappCollector.Log.Steps
import SnappCollector.Machine.Heap
import SnappCollector.Machine.Mutex
import SnappCollector.Machine.Pool
import SnappCollector.Machine.Progress
import SnappCollector.Machine.Routing
import SnappCollector.Machine.Runs
import SnappCollector.Machine.RwLock
import SnappCollector.Sessions.Machine
import SnappCollector.Sessions.Proofs.Progress
import SnappCollector.Sessions.Proofs.Slots
import SnappCollector.Writer.Datum
import SnappCollector.Writer.Flush
import SnappCollector.Writer.Load
import SnappCollector.Writer.Machine
import SnappCollector.Writer.Proofs.Completion
import SnappCollector.Writer.Proofs.Delivery
import SnappCollector.Writer.Proofs.Flush
import SnappCollector.Writer.Proofs.Load
import SnappCollector.Writer.Proofs.LoadBounds
import SnappCollector.Writer.Proofs.Locks
import SnappCollector.Writer.Proofs.Names
import SnappCollector.Writer.Proofs.Order
import SnappCollector.Writer.Proofs.Progress
import SnappCollector.Writer.Proofs.Reported
import SnappCollector.Writer.Proofs.Samples
import SnappCollector.Writer.Proofs.Values
import SnappCollector.Writer.Proofs.Wakeups
import SnappCollector.Writer.Statistics
import SnappCollector.Writer.StatisticsSteps
import SnappCollector.Writer.Steps
import SnappCollector.Writer.Tables
