import BusScope.Console.Program

/-!
The program itself: it reads the settings file, holds the dialogue line by line, and prints.
-/

namespace BusScope

def readSettings (path : String) : IO SettingsFile := do
  try
    return .content (← IO.FS.readBinFile path).toList
  catch _ => return .unreadable

def usualSettings : IO (Option SettingsFile) := do
  try
    return some (.content (← IO.FS.readBinFile Program.usualFile).toList)
  catch _ => return none

def say (text : String) : IO Unit := do
  let output ← IO.getStdout
  output.putStr text
  output.flush

def conclude (o : Outcome) : IO UInt32 := do
  say o.printed
  if let some complaint := o.complaint then (← IO.getStderr).putStrLn complaint
  return o.code

partial def converse (s : Session) (input : IO.FS.Stream) : IO Unit := do
  if s.phase = .over then return
  let line ← input.getLine
  if line.isEmpty then return
  let (s, shown) := s.line line
  say shown
  converse s input

end BusScope

open BusScope

def main (words : List String) : IO UInt32 := do
  match Arguments.parse words with
  | .error stop => conclude stop.outcome
  | .ok a =>
    match Settings.load (a.launch (← a.settingsPath.mapM readSettings)) (← usualSettings) with
    | .error e => conclude e.outcome
    | .ok s =>
      let painted := !a.noColor && (← (← IO.getStdout).isTty)
      let c := Console.start s painted
      let input ← IO.getStdin
      if a.command.isEmpty then
        let (session, invitation) := Session.start c
        say invitation
        converse session input
      else
        IO.sleep (min s.gatheringTime.toNat 0xFFFFFFFF).toUInt32
        let (_, phase, shown) := c.execute ⟨a.command⟩
        say shown
        if phase = .stream then discard input.getLine
      return 0
