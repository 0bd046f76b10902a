import BusScope.Calendar
import BusScope.Demangling
import BusScope.Introspection
import BusScope.Text.Split
import BusScope.Topic
import BusScope.Yaml.Printer

/-!
Reports on single samples: the decoded data, and in a verbose report where the sample came from and
when.
-/

namespace BusScope.Report

/-- A document without the end of its last line. -/
def document (j : Json) : String := String.ofList (Text.trimEnd (Yaml.print j).toList)

structure SampleOrigin where
  topic : TopicId
  writer : Guid
  timestamp : Timestamp
deriving DecidableEq

def SampleOrigin.toJson (o : SampleOrigin) : Json :=
  .object [("topic", .text o.topic.text), ("writer", .text o.writer.text),
    ("timestamp", o.timestamp.toJson)]

structure SampleReport where
  origin : Option SampleOrigin
  data : Json

namespace SampleReport

def of (verbose demangled : Bool) (id : TopicId) (t : DataType) (s : Sample) :
    Except InspectionFault SampleReport :=
  let origin : SampleOrigin := ⟨⟨id.name, typeLabel demangled id.typeName⟩, s.writer, s.timestamp⟩
  (s.json t).map fun data => ⟨if verbose then some origin else none, data⟩

def text (r : SampleReport) : String :=
  document (match r.origin with
    | none => r.data
    | some o => .object [("topic", .text o.topic.text), ("writer", .text o.writer.text),
        ("timestamp", .text (Calendar.format o.timestamp)), ("data", r.data)])

end SampleReport

end BusScope.Report
