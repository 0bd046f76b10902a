import BusScope.Console.Help
import BusScope.Number.Reading
import BusScope.Settings

/-!
The words of the command line. Options come first, in a short form that can be bundled or a long
one, with their value attached or in the next word. The first word that is neither option nor value
begins a command, to which all later words belong, and so does the word after two dashes. The first
fault, or the first request for the help or the version, decides.
-/

namespace BusScope

structure Arguments where
  settingsPath : Option String := none
  domain : Option UInt32 := none
  reloadTime : Option UInt64 := none
  logFilter : Option String := none
  logVerbosity : Option Verbosity := none
  debug : Bool := false
  noColor : Bool := false
  command : List String := []
deriving DecidableEq, Repr

inductive ValueOption where
  | settingsPath
  | domain
  | reloadTime
  | logFilter
  | logVerbosity
deriving DecidableEq, Repr

inductive Flag where
  | debug
  | noColor
  | help
  | version
deriving DecidableEq, Repr

/-- What an option is known by is kept with the fault as it was written. -/
inductive ArgumentFault where
  | unknown (word : String)
  | repeated (option : String)
  | missingValue (option : String)
  | unwantedValue (option value : String)
  | invalidValue (option value : String)
deriving DecidableEq, Repr

def ArgumentFault.message : ArgumentFault → String
  | .unknown word => "unexpected argument '" ++ word ++ "' found"
  | .repeated option => "the argument '" ++ option ++ "' cannot be used multiple times"
  | .missingValue option => "a value is required for '" ++ option ++ "' but none was supplied"
  | .unwantedValue option value =>
    "unexpected value '" ++ value ++ "' for '" ++ option ++ "' found; no more were expected"
  | .invalidValue option value => "invalid value '" ++ value ++ "' for '" ++ option ++ "'"

inductive ArgumentStop where
  | fault (e : ArgumentFault)
  | help
  | version
deriving DecidableEq, Repr

namespace ValueOption

def short? : ValueOption → Option Char
  | .settingsPath => some 'c'
  | .domain => some 'd'
  | .reloadTime => some 'r'
  | _ => none

def long : ValueOption → String
  | .settingsPath => "config-path"
  | .domain => "domain"
  | .reloadTime => "reload-time"
  | .logFilter => "log-filter"
  | .logVerbosity => "log-verbosity"

def all : List ValueOption := [.settingsPath, .domain, .reloadTime, .logFilter, .logVerbosity]

def ofShort? (c : Char) : Option ValueOption := all.find? fun o => o.short? == some c

def ofLong? (s : String) : Option ValueOption := all.find? fun o => o.long == s

end ValueOption

namespace Flag

def short? : Flag → Option Char
  | .debug => none
  | .noColor => some 'n'
  | .help => some 'h'
  | .version => some 'V'

def long : Flag → String
  | .debug => "debug"
  | .noColor => "no-color"
  | .help => "help"
  | .version => "version"

def all : List Flag := [.debug, .noColor, .help, .version]

def ofShort? (c : Char) : Option Flag := all.find? fun f => f.short? == some c

def ofLong? (s : String) : Option Flag := all.find? fun f => f.long == s

end Flag

namespace Arguments

abbrev Result (α : Type) := Except ArgumentStop α

def refuse {α : Type} (e : ArgumentFault) : Result α := .error (.fault e)

def unsigned? (limit : Nat) (s : List Char) : Option Nat :=
  let digits := match s with
    | '+' :: rest => rest
    | rest => rest
  (Number.decimal? digits).filter (· < limit)

/-- A number that may also be a negative zero. -/
def domain? (s : List Char) : Option UInt32 :=
  match s with
  | '-' :: digits => if Number.decimal? digits = some 0 then some 0 else none
  | s => (unsigned? 0x100000000 s).map (·.toUInt32)

def has (a : Arguments) : ValueOption → Bool
  | .settingsPath => a.settingsPath.isSome
  | .domain => a.domain.isSome
  | .reloadTime => a.reloadTime.isSome
  | .logFilter => a.logFilter.isSome
  | .logVerbosity => a.logVerbosity.isSome

def set? (a : Arguments) (o : ValueOption) (value : String) : Option Arguments :=
  match o with
  | .settingsPath => if value.isEmpty then none else some { a with settingsPath := some value }
  | .domain => (domain? value.toList).map fun n => { a with domain := some n }
  | .reloadTime =>
    (unsigned? 0x10000000000000000 value.toList).map fun n => { a with reloadTime := some n.toUInt64 }
  | .logFilter => some { a with logFilter := some value }
  | .logVerbosity => (Verbosity.parse? value).map fun v => { a with logVerbosity := some v }

def set (a : Arguments) (o : ValueOption) (value : String) : Result Arguments :=
  if a.has o then refuse (.repeated ("--" ++ o.long))
  else
    match a.set? o value with
    | some a => .ok a
    | none => refuse (.invalidValue ("--" ++ o.long) value)

def raise (a : Arguments) : Flag → Result Arguments
  | .help => .error .help
  | .version => .error .version
  | .debug => if a.debug then refuse (.repeated "--debug") else .ok { a with debug := true }
  | .noColor =>
    if a.noColor then refuse (.repeated "--no-color") else .ok { a with noColor := true }

/-- Reads bundled short options. The last may be one that wants its value in the next word. -/
def readShort (a : Arguments) : List Char → Result (Arguments × Option ValueOption)
  | [] => .ok (a, none)
  | c :: rest =>
    match Flag.ofShort? c with
    | some f =>
      match a.raise f with
      | .ok a => readShort a rest
      | .error e => .error e
    | none =>
      match ValueOption.ofShort? c, rest with
      | none, _ => refuse (.unknown (String.ofList ['-', c]))
      | some o, [] => .ok (a, some o)
      | some o, '=' :: value => (a.set o (String.ofList value)).map (·, none)
      | some o, value => (a.set o (String.ofList value)).map (·, none)

def readLong (a : Arguments) (s : List Char) : Result (Arguments × Option ValueOption) :=
  let (name, value?) := match Text.splitFirst? '=' s with
    | some (name, value) => (String.ofList name, some (String.ofList value))
    | none => (String.ofList s, none)
  match ValueOption.ofLong? name, Flag.ofLong? name, value? with
  | some o, _, some value => (a.set o value).map (·, none)
  | some o, _, none => .ok (a, some o)
  | none, some f, none => (a.raise f).map (·, none)
  | none, some _, some value => refuse (.unwantedValue ("--" ++ name) value)
  | none, none, _ => refuse (.unknown ("--" ++ name))

/-- The option that still wants a value gets none. -/
def settle (a : Arguments) : Option ValueOption → Result Arguments
  | none => .ok a
  | some o => refuse (.missingValue ("--" ++ o.long))

def read (a : Arguments) (waiting : Option ValueOption) : List String → Result Arguments
  | [] => a.settle waiting
  | word :: rest =>
    match word.toList with
    | ['-', '-'] => (a.settle waiting).map fun a => { a with command := rest }
    | '-' :: c :: option =>
      let step := (a.settle waiting).bind fun a =>
        if c = '-' then readLong a option else readShort a (c :: option)
      match step with
      | .error stop => .error stop
      | .ok (a, waiting) => read a waiting rest
    | _ =>
      match waiting with
      | none => .ok { a with command := word :: rest }
      | some o =>
        match a.set o word with
        | .error stop => .error stop
        | .ok a => read a none rest

def parse (words : List String) : Result Arguments := read {} none words

/-- What the command line says about the settings, with the file that it names. -/
def launch (a : Arguments) (file : Option SettingsFile) : LaunchOptions where
  file := file
  domain := a.domain
  verbosity := if a.debug then some .debug else a.logVerbosity
  logFilter := a.logFilter
  reloadPeriod := (a.reloadTime.getD 0).toNat * 1000

end Arguments

end BusScope
