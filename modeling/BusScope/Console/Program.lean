import BusScope.Console.Arguments
import BusScope.Console.Session

/-!
A run of the program from its arguments and its input to what it prints. Without a command on the
command line it holds a dialogue; with one it carries that out and ends.
-/

namespace BusScope

/-- The exit code, what goes to the output and what is complained about. -/
structure Outcome where
  code : UInt32
  printed : String
  complaint : Option String
deriving DecidableEq, Repr

def ArgumentStop.outcome : ArgumentStop → Outcome
  | .help => ⟨0, usageText ++ "\n", none⟩
  | .version => ⟨0, programName ++ " " ++ programVersion ++ "\n", none⟩
  | .fault e => ⟨2, "", some ("error: " ++ e.message)⟩

def SettingsFault.outcome (e : SettingsFault) : Outcome := ⟨1, "", some ("Error: " ++ e.message)⟩

namespace Program

def usualFile : String := "DDSSPY_CONFIGURATION.yaml"

def run (words : List String) (file : String → SettingsFile) (usual : Option SettingsFile)
    (input : String) : Outcome :=
  match Arguments.parse words with
  | .error stop => stop.outcome
  | .ok a =>
    match Settings.load (a.launch (a.settingsPath.map file)) usual with
    | .error e => e.outcome
    | .ok s =>
      let c := Console.start s false
      if a.command.isEmpty then ⟨0, (c.run input).2, none⟩
      else ⟨0, (c.execute ⟨a.command⟩).2.2, none⟩

end Program

end BusScope
