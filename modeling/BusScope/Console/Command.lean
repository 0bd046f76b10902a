import BusScope.Text.Split

/-!
Commands of the console. A command is a list of words; the first tells what is asked for, in one of
several ways, and the others are its arguments.
-/

namespace BusScope

inductive CommandKind where
  | empty
  | help
  | exit
  | version
  | participants
  | writers
  | readers
  | topics
  | print
  | unknown
deriving DecidableEq, Repr

namespace CommandKind

def aliases : CommandKind → List String
  | .empty | .unknown => []
  | .help => ["h", "help", "H", "man"]
  | .exit => ["q", "x", "quit", "quit()", "exit", "exit()"]
  | .version => ["version", "v", "V"]
  | .participants => ["participant", "participants", "p", "P"]
  | .writers => ["datawriter", "datawriters", "writer", "writers", "publication", "publications",
      "w", "W"]
  | .readers => ["datareader", "datareaders", "reader", "readers", "subscription", "subscriptions",
      "r", "R"]
  | .topics => ["topic", "topics", "t", "T"]
  | .print => ["print", "show", "s", "S"]

def named : List CommandKind :=
  [.help, .exit, .version, .participants, .writers, .readers, .topics, .print]

def ofWord (word : String) : CommandKind :=
  (named.find? fun k => k.aliases.contains word).getD .unknown

end CommandKind

structure Command where
  words : List String
deriving DecidableEq, Repr

namespace Command

def parse (line : String) : Command := ⟨(Text.words line.toList).map String.ofList⟩

def kind (c : Command) : CommandKind :=
  match c.words with
  | [] => .empty
  | word :: _ => .ofWord word

def word (c : Command) : String := c.words.headD ""

/-- The word at a place, the first being at zero. -/
def argument? (c : Command) (n : Nat) : Option String := c.words[n]?

end Command

def isVerbose (word : String) : Bool := ["verbose", "v", "-v", "--v", "V"].contains word

end BusScope
