import BusScope.Fixture
import BusScope.Main
import BusScope.Console.Program
import BusScope.Proofs.Feed.Plumbing
import BusScope.Proofs.Feed.ServiceTopics
import BusScope.Proofs.Instances.Capacity
import BusScope.Proofs.Instances.RecordKeys
import BusScope.Proofs.Network.Departure
import BusScope.Proofs.Report.VerboseTopics
import BusScope.Proofs.Streaming.Exactness
import BusScope.Proofs.Wire.Reencoding
import BusScope.Proofs.Wire.Truncation
import BusScope.Proofs.Feed.Accounting
import BusScope.Proofs.Streaming.Armed
import BusScope.Proofs.Glob.Backtracking
import BusScope.Proofs.Wire.Bounds
import BusScope.Proofs.DataType.Aliases
import BusScope.Proofs.Keys.Json
import BusScope.Proofs.Wire.ReadBack
import BusScope.Proofs.Console.Answers
import BusScope.Proofs.Instances.ListedKeys
import BusScope.Proofs.Timestamp
import BusScope.Proofs.Demangling
import BusScope.Proofs.Wire.Buffer
import BusScope.Proofs.Console.Printing
