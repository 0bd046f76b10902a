import BusScope.Network
import BusScope.Verbosity
import BusScope.Yaml.Printer
import BusScope.Yaml.Reading

/-!
What the program can be told by a settings file and on the command line. A setting that is left out
has its default, the command line has the last word, and the result is checked as a whole.
-/

namespace BusScope

open Number

/-- The gathering time is in milliseconds, and a rate of zero means no limit. -/
structure Settings where
  domain : UInt32 := 0
  rule : TopicRule := {}
  demangleTypes : Bool := false
  threads : UInt32 := 12
  gatheringTime : UInt64 := 1000
  historyDepth : UInt32 := History.defaultDepth
  maxSendRate : Binary64 := .zero
  maxReceiveRate : Binary64 := .zero
  maxInstances : UInt64 := 1000
  verbosity : Verbosity := .warning
  logFilter : String := "ddsspy"

/-- `list` is the name of a list of topic filters. -/
inductive InvalidSetting where
  | domain (domain : UInt32)
  | noThreads
  | noInstances
  | noHistory
  | negativeRate
  | emptyPattern (list : String) (index : Nat)
  | emptyLogFilter
  | verbosity (text : String)
deriving DecidableEq, Repr

def maxDomain : UInt32 := 255

namespace InvalidSetting

def reason : InvalidSetting → String
  | .domain n => "Domain ID must be between 0 and " ++ toString maxDomain.toNat ++ " (got " ++
      toString n.toNat ++ ")"
  | .noThreads => "threads must be greater than 0"
  | .noInstances => "max-instances-per-topic must be greater than 0"
  | .noHistory => "history-depth must be greater than 0"
  | .negativeRate => "rates must not be negative"
  | .emptyPattern list index => list ++ " entry " ++ toString index ++ " has an empty pattern"
  | .emptyLogFilter => "Log filter must not be empty"
  | .verbosity text => "Unknown verbosity '" ++ Verbosity.normalized text ++
      "', expected error, warning, info or debug"

def message (e : InvalidSetting) : String := "Invalid configuration: " ++ e.reason

end InvalidSetting

inductive SettingsFault where
  | unreadable
  | malformed
  | invalid (e : InvalidSetting)
deriving DecidableEq, Repr

def SettingsFault.message : SettingsFault → String
  | .unreadable => "I/O error"
  | .malformed => "YAML parse error"
  | .invalid e => e.message

def TopicFilter.isMeaningful (f : TopicFilter) : Bool :=
  (f.name.isSome || f.typeName.isSome) && f.name != some "" && f.typeName != some ""

namespace Settings

def emptyPattern? (list : String) (filters : List TopicFilter) : Option InvalidSetting :=
  (filters.findIdx? (!·.isMeaningful)).map (.emptyPattern list)

def problem? (s : Settings) : Option InvalidSetting :=
  if maxDomain < s.domain then some (.domain s.domain)
  else if s.threads = 0 then some .noThreads
  else if s.maxInstances = 0 then some .noInstances
  else if s.historyDepth = 0 then some .noHistory
  else if s.maxSendRate.isBelowZero || s.maxReceiveRate.isBelowZero then some .negativeRate
  else (emptyPattern? "allowlist" s.rule.allow).or (emptyPattern? "blocklist" s.rule.block)

def checked (s : Settings) : Except SettingsFault Settings :=
  match s.problem? with
  | some e => .error (.invalid e)
  | none => .ok s

/-- Requests and replies of services, which are never let through. -/
def serviceTopics : List TopicFilter := [.ofName "rq/*", .ofName "rr/*"]

def allowedTopics (s : Settings) : TopicRule := { s.rule with block := s.rule.block ++ serviceTopics }

def network (s : Settings) : NetworkSettings where
  demangleTypes := s.demangleTypes
  maxInstances := s.maxInstances.toNat
  historyDepth := s.historyDepth

def gatheringNanoseconds (s : Settings) : Nat := s.gatheringTime.toNat * 1000000

def toJson (s : Settings) : Json :=
  .object [
    ("dds", .object [("domain", .nat s.domain.toNat),
      ("allowlist", .list (s.rule.allow.map (·.toJson))),
      ("blocklist", .list (s.rule.block.map (·.toJson))),
      ("ros2-types", .bool s.demangleTypes)]),
    ("specs", .object [("threads", .nat s.threads.toNat),
      ("gathering-time", .nat s.gatheringTime.toNat),
      ("qos", .object [("history-depth", .nat s.historyDepth.toNat),
        ("max-tx-rate", .float s.maxSendRate), ("max-rx-rate", .float s.maxReceiveRate)]),
      ("max-instances-per-topic", .nat s.maxInstances.toNat),
      ("logging", .object [("verbosity", .text s.verbosity.text), ("filter", .text s.logFilter)])])]

/-! The settings file. -/

def readFilter (d : Yaml.Document) (n : Yaml.Node) : Option TopicFilter := do
  let ms ← d.members? ["name", "type"] true n
  return { name := ← Yaml.memberOr ms "name" none d.nullable?
           typeName := ← Yaml.memberOr ms "type" none d.nullable? }

def readWord (d : Yaml.Document) (n : Yaml.Node) : Option UInt32 :=
  (d.natural? 0x100000000 n).map (·.toUInt32)

def readLongWord (d : Yaml.Document) (n : Yaml.Node) : Option UInt64 :=
  (d.natural? 0x10000000000000000 n).map (·.toUInt64)

def readTarget (d : Yaml.Document) (s : Settings) (n : Yaml.Node) : Option Settings := do
  let ms ← d.members? ["domain", "allowlist", "blocklist", "ros2-types"] false n
  return { s with
    domain := ← Yaml.memberOr ms "domain" s.domain (readWord d)
    rule := {
      allow := ← Yaml.memberOr ms "allowlist" s.rule.allow (d.listOf? (readFilter d))
      block := ← Yaml.memberOr ms "blocklist" s.rule.block (d.listOf? (readFilter d)) }
    demangleTypes := ← Yaml.memberOr ms "ros2-types" s.demangleTypes d.bool? }

def readQos (d : Yaml.Document) (s : Settings) (n : Yaml.Node) : Option Settings := do
  let ms ← d.members? ["history-depth", "max-tx-rate", "max-rx-rate"] false n
  return { s with
    historyDepth := ← Yaml.memberOr ms "history-depth" s.historyDepth (readWord d)
    maxSendRate := ← Yaml.memberOr ms "max-tx-rate" s.maxSendRate d.float?
    maxReceiveRate := ← Yaml.memberOr ms "max-rx-rate" s.maxReceiveRate d.float? }

def readLogging (d : Yaml.Document) (s : Settings) (n : Yaml.Node) : Option Settings := do
  let ms ← d.members? ["verbosity", "filter"] false n
  return { s with
    verbosity := ← Yaml.memberOr ms "verbosity" s.verbosity fun n => (d.name? n).bind Verbosity.ofText?
    logFilter := ← Yaml.memberOr ms "filter" s.logFilter d.text? }

def readOperation (d : Yaml.Document) (s : Settings) (n : Yaml.Node) : Option Settings := do
  let ms ← d.members?
    ["threads", "gathering-time", "qos", "max-instances-per-topic", "logging"] false n
  let s ← Yaml.memberOr ms "qos" s (readQos d s)
  let s ← Yaml.memberOr ms "logging" s (readLogging d s)
  return { s with
    threads := ← Yaml.memberOr ms "threads" s.threads (readWord d)
    gatheringTime := ← Yaml.memberOr ms "gathering-time" s.gatheringTime (readLongWord d)
    maxInstances := ← Yaml.memberOr ms "max-instances-per-topic" s.maxInstances (readLongWord d) }

/-- A text without any document leaves everything at its default. -/
def ofDocument? (d : Yaml.Document) : Option Settings :=
  match d.root with
  | none => some {}
  | some root => do
    let ms ← d.members? ["dds", "specs"] false root
    let s ← Yaml.memberOr ms "dds" {} (readTarget d {})
    Yaml.memberOr ms "specs" s (readOperation d s)

def parse (text : String) : Except SettingsFault Settings :=
  if text.toList.all Text.isBlank then checked {}
  else
    match (Yaml.Document.read text).bind ofDocument? with
    | none => .error .malformed
    | some s => s.checked

end Settings

inductive SettingsFile where
  | unreadable
  | content (bytes : List UInt8)

def SettingsFile.settings : SettingsFile → Except SettingsFault Settings
  | .unreadable => .error .unreadable
  | .content bytes =>
    match Text.Utf8.decode bytes with
    | .ok text => Settings.parse (String.ofList text)
    | .error _ => .error .unreadable

/-- What is said at the start about the settings. `file` is the file that was named, and the period
of reading it again is in milliseconds. -/
structure LaunchOptions where
  file : Option SettingsFile := none
  domain : Option UInt32 := none
  verbosity : Option Verbosity := none
  logFilter : Option String := none
  reloadPeriod : Nat := 0

namespace LaunchOptions

def problem? (o : LaunchOptions) : Option InvalidSetting :=
  match o.domain.filter (maxDomain < ·) with
  | some n => some (.domain n)
  | none => if o.logFilter = some "" then some .emptyLogFilter else none

def reloads (o : LaunchOptions) : Bool := o.file.isSome && o.reloadPeriod != 0

def override (o : LaunchOptions) (s : Settings) : Settings :=
  { s with
    domain := o.domain.getD s.domain
    verbosity := o.verbosity.getD s.verbosity
    logFilter := o.logFilter.getD s.logFilter }

end LaunchOptions

/-- Settings from the named file, or else from the usual one if there is one, or else the defaults;
the options come on top. What a file gives is checked before they do. -/
def Settings.load (o : LaunchOptions) (usual : Option SettingsFile) :
    Except SettingsFault Settings := do
  if let some e := o.problem? then throw (.invalid e)
  let s ← match o.file.or usual with
    | some file => file.settings
    | none => .ok {}
  (o.override s).checked

end BusScope
