import Provio.External
import Provio.Independence
import Provio.Callbacks
import Provio.Steps
import Provio.Records
import Provio.Names
import Provio.Holders
import Provio.HolderRuns
import Provio.Leaks
import Provio.Identity
import Provio.Lines
import Provio.Config
import Provio.Settings
import Provio.ConfigFile
import Provio.ConfigStops
import Provio.ConfigValues
import Provio.ConfigComments
import Provio.InfoStr
import Provio.Slots
import Provio.Persist
import Provio.Frame
import Provio.FileCalls
import Provio.Ranks
import Provio.Blocks
import Provio.InfoBuffers
import Provio.InfoCmp
import Provio.Naming
import Provio.Legacy
import Provio.Refresh
import Provio.Totals
import Provio.Outward
import Provio.Forwarding
import Provio.Requests
import Provio.Queries
import Provio.QueryRuns
import Provio.GenHash
import Provio.Activities
import Provio.Capacities
import Provio.Dict
import Provio.Json
import Provio.Extensible
import Provio.Subclasses
import Provio.Provenance
import Provio.Calls
import Provio.Metrics
import Provio.MetricNames
import Provio.Snapshots
import Provio.Periodic
import Provio.Closure
import Provio.Balance
import Provio.StatFreed
import Provio.Progress
import Provio.Schedules
import Provio.Ownership
import Provio.Programs
import Provio.Workflow
