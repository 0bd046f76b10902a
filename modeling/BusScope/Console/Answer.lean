import BusScope.Console.Command
import BusScope.Console.Help
import BusScope.Report.Listing
import BusScope.Report.SampleReport

/-!
What the console answers to a command: a listing or one record of the state of the network, or the
reason why there is none.
-/

namespace BusScope

open Report

inductive Answer where
  | help
  | version
  | participants (entries : List ParticipantEntry)
  | participantDetails (details : List ParticipantDetail)
  | participant (detail : ParticipantDetail)
  | endpoints (entries : List EndpointEntry)
  | endpointDetails (details : List EndpointDetail)
  | endpoint (detail : EndpointDetail)
  | topics (entries : List TopicEntry)
  | topicDetails (details : List TopicDetail)
  | topic (detail : TopicDetail)

namespace Answer

def listing {α : Type} (toJson : α → Json) (items : List α) : String :=
  if items.isEmpty then "" else document (.list (items.map toJson))

def text : Answer → String
  | .help => helpText
  | .version => programName ++ " v" ++ programVersion
  | .participants es => listing ParticipantEntry.toJson es
  | .participantDetails ds => listing ParticipantDetail.toJson ds
  | .participant d => document d.toJson
  | .endpoints es => listing EndpointEntry.toJson es
  | .endpointDetails ds => listing EndpointDetail.toJson ds
  | .endpoint d => document d.toJson
  | .topics es => listing TopicEntry.toJson es
  | .topicDetails ds => listing TopicDetail.toJson ds
  | .topic d => document d.toJson

end Answer

/-- Why a command has no answer. `what` is the kind of thing that was looked for. -/
inductive Refusal where
  | unknownCommand (word : String)
  | invalidGuid (text : String)
  | notFound (what text : String)
  | missingArgument (word : String)
  | noSuchTopic (name : String)
  | noMatchingTopic (pattern : String)
  | undiscoveredType
deriving DecidableEq, Repr

def Refusal.message : Refusal → String
  | .unknownCommand word => "<" ++ word ++
      "> is not a known command. Use <help> command to see valid commands and arguments."
  | .invalidGuid text => text ++ " is not a valid GUID. Use format " ++
      "<xx.xx.xx.xx.xx.xx.xx.xx.xx.xx.xx.xx|xx.xx.xx.xx>"
  | .notFound what text => text ++ " does not match with any known " ++ what ++ "."
  | .missingArgument word => "Command <" ++ word ++ "> requires at least one argument."
  | .noSuchTopic name => "Topic " ++ name ++ " does not exist."
  | .noMatchingTopic pattern => "No topic matching " ++ pattern ++ " with a discovered type."
  | .undiscoveredType =>
    "Topic type has not been discovered, and thus cannot print its data."

namespace Network

universe u

variable {ο : Type u}

/-- The record that `find?` has under an identifier, which must not be the zero one. -/
def lookup {α : Type} (what text : String) (find? : Guid → Option α) : Except Refusal α :=
  match (Guid.parse text).toOption.filter (·.isValid) with
  | none => .error (.invalidGuid text)
  | some g =>
    match find? g with
    | none => .error (.notFound what text)
    | some record => .ok record

def answerParticipants (n : Network ο) : Option String → Except Refusal Answer
  | none => .ok (.participants n.participantEntries)
  | some word =>
    if isVerbose word then .ok (.participantDetails n.participantDetails)
    else (lookup "participant" word n.participant?).map .participant

def answerEndpoints (n : Network ο) (kind : EndpointKind) : Option String → Except Refusal Answer
  | none => .ok (.endpoints (n.endpointEntries kind))
  | some word =>
    if isVerbose word then .ok (.endpointDetails (n.endpointDetails kind))
    else (lookup kind.text word (n.endpoint? kind)).map .endpoint

def answerTopics (n : Network ο) : Option String → Except Refusal Answer
  | none => .ok (.topics n.topicEntries)
  | some word =>
    if isVerbose word then .ok (.topicDetails n.topicDetails)
    else if (TopicFilter.ofName word).isPattern then
      match n.topicDetails.filter fun t => Glob.isMatch word t.name with
      | [] => .error (.notFound "topic" word)
      | found => .ok (.topicDetails found)
    else
      match n.topicDetail? word with
      | none => .error (.notFound "topic" word)
      | some detail => .ok (.topic detail)

def answer? (n : Network ο) (c : Command) : Option (Except Refusal Answer) :=
  match c.kind with
  | .empty | .exit | .print => none
  | .help => some (.ok .help)
  | .version => some (.ok .version)
  | .participants => some (n.answerParticipants (c.argument? 1))
  | .writers => some (n.answerEndpoints .writer (c.argument? 1))
  | .readers => some (n.answerEndpoints .reader (c.argument? 1))
  | .topics => some (n.answerTopics (c.argument? 1))
  | .unknown => some (.error (.unknownCommand c.word))

end Network

end BusScope
