import BusScope.Console.Answer
import BusScope.Feed
import BusScope.Settings

/-!
The console and its dialogue. Commands that ask for samples open a stream, which the next line
closes; while it is open, each sample is shown as it arrives. The dialogue ends with an exit command
or with its input.

On a terminal, text is painted. A painted text begins with its style and ends with a reset; after a
reset inside the text the style begins again.
-/

namespace BusScope

namespace Terminal

structure Style where
  codes : List Char

def alarm : Style := ⟨['1', ';', '3', '1']⟩

def invitation : Style := ⟨['1', ';', '3', '6']⟩

def reset : List Char := ['\x1b', '[', '0', 'm']

def Style.start (s : Style) : List Char := '\x1b' :: '[' :: s.codes ++ ['m']

/-- Puts `start` after each reset. -/
def resume (start : List Char) : List Char → List Char
  | '\x1b' :: '[' :: '0' :: 'm' :: rest => reset ++ start ++ resume start rest
  | c :: rest => c :: resume start rest
  | [] => []

def Style.paint (s : Style) (text : String) : String :=
  String.ofList (s.start ++ resume s.start text.toList ++ reset)

end Terminal

/-- How samples are shown: with or without where they came from. -/
structure SampleView where
  verbose : Bool
deriving DecidableEq, Repr

structure Console where
  feed : Feed SampleView
  painted : Bool

namespace Console

def start (s : Settings) (painted : Bool) : Console where
  feed := { network := .empty s.network .dynamic, rule := s.allowedTopics }
  painted := painted

def paint (c : Console) (style : Terminal.Style) (text : String) : String :=
  if c.painted then style.paint text else text

def errorLine (c : Console) (text : String) : String := c.paint Terminal.alarm text ++ "\n"

def prompt (c : Console) : String :=
  "\n" ++ c.paint Terminal.invitation "Insert a command for ddsspy:\n>> "

def showDelivery (c : Console) (d : Delivery SampleView) : String :=
  match Report.SampleReport.of d.observer.verbose c.feed.network.settings.demangleTypes d.topic.id d.type
      d.sample with
  | .ok r => "---\n" ++ r.text ++ "\n\n"
  | .error e =>
    c.errorLine ("Cannot decode sample of topic " ++ d.topic.name ++ ": " ++ e.message)

def observe (c : Console) (e : FeedEvent) : Console × String :=
  let (feed, dispatch) := c.feed.step e
  ({ c with feed := feed }, (dispatch.delivery?.map c.showDelivery).getD "")

def withNetwork (c : Console) (n : Network SampleView) : Console :=
  { c with feed := { c.feed with network := n } }

def isStreaming (c : Console) : Bool := c.feed.network.stream.isActive

def closeStream (c : Console) : Console := c.withNetwork c.feed.network.deactivate

def reload (c : Console) (s : Settings) : Console :=
  { c with feed := c.feed.reload s.allowedTopics }

/-- Opens the stream that a command asks for. A refusal changes nothing. -/
def openStream (c : Console) (command : Command) : Except Refusal Console :=
  match command.argument? 1 with
  | none => .error (.missingArgument command.word)
  | some target =>
    let n := c.feed.network
    let view : SampleView := ⟨(command.argument? 2).any isVerbose⟩
    if target = "all" then .ok (c.withNetwork (n.activateAll view))
    else if (TopicFilter.ofName target).isPattern then
      match n.activatePattern? (.ofName target) view with
      | some n => .ok (c.withNetwork n)
      | none => .error (.noMatchingTopic target)
    else
      match n.topic? target with
      | none => .error (.noSuchTopic target)
      | some topic =>
        match n.activate? topic.id view with
        | some n => .ok (c.withNetwork n)
        | none => .error .undiscoveredType

def showAnswer (c : Console) : Option (Except Refusal Answer) → String
  | none => ""
  | some (.ok a) => a.text ++ "\n"
  | some (.error e) => c.errorLine e.message

end Console

/-- What the dialogue is waiting for: a command, or the line that closes the stream. -/
inductive Phase where
  | command
  | stream
  | over
deriving DecidableEq, Repr

def Console.execute (c : Console) (command : Command) : Console × Phase × String :=
  match command.kind with
  | .exit => (c, .over, "")
  | .print =>
    match c.openStream command with
    | .ok c => (c, .stream, "")
    | .error e => (c, .command, c.errorLine e.message)
  | _ => (c, .command, c.showAnswer (c.feed.network.answer? command))

structure Session where
  console : Console
  phase : Phase

namespace Session

def start (c : Console) : Session × String := (⟨c, .command⟩, c.prompt)

def invite (s : Session) : String := if s.phase = .command then s.console.prompt else ""

def line (s : Session) (text : String) : Session × String :=
  match s.phase with
  | .over => (s, "")
  | .stream =>
    let s : Session := ⟨s.console.closeStream, .command⟩
    (s, s.invite)
  | .command =>
    let (c, phase, shown) := s.console.execute (Command.parse text)
    let s : Session := ⟨c, phase⟩
    (s, shown ++ s.invite)

def finish (s : Session) : Console :=
  if s.phase = .stream then s.console.closeStream else s.console

def lines (s : Session) : List String → Session × String
  | [] => (s, "")
  | text :: rest =>
    let (s, shown) := s.line text
    let (s, more) := s.lines rest
    (s, shown ++ more)

end Session

def Console.run (c : Console) (input : String) : Console × String :=
  let (s, invitation) := Session.start c
  let (s, shown) := s.lines ((Text.lines input.toList).map String.ofList)
  (s.finish, invitation ++ shown)

end BusScope
