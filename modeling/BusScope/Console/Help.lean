/-!
What the program says about itself.
-/

namespace BusScope

def programName : String := "ddsspy"

def programVersion : String := "1.0.10"

def helpLines : List String := [
  "ddsspy is an interactive CLI that allows to introspect DDS networks.",
  "Each command shows data related with the network in Yaml format.",
  "Commands available and the information they show:",
  "\thelp                      : this help.",
  "\tversion                   : tool version.",
  "\tquit                      : exit interactive CLI and close program.",
  "\tparticipants              : DomainParticipants discovered in the network.",
  "\tparticipants verbose      : verbose information about DomainParticipants discovered in the network.",
  "\tparticipants <Guid>       : verbose information related with a specific DomainParticipant.",
  "\twriters                   : DataWriters discovered in the network.",
  "\twriters verbose           : verbose information about DataWriters discovered in the network.",
  "\twriters <Guid>            : verbose information related with a specific DataWriter.",
  "\treaders                   : DataReaders discovered in the network.",
  "\treaders verbose           : verbose information about DataReaders discovered in the network.",
  "\treaders <Guid>            : verbose information related with a specific DataReader.",
  "\ttopics                    : Topics discovered in the network.",
  "\ttopics verbose            : verbose information about Topics discovered in the network.",
  "\ttopics <name>             : verbose information related with a specific Topic (wildcards allowed).",
  "\tprint <name>              : data of a specific Topic (Data Type must be discovered).",
  "\tprint <name> verbose      : data with additional source info of a specific Topic.",
  "\tprint <wildcard_name>     : data of every Topic matching the name.",
  "\tprint all                 : data of all Topics (only the ones with Data Type discovered).",
  "",
  "\tTo exit from data printing, press enter.",
  "\tEach command accepts the following aliases:",
  "\t  participants: participant, p, P",
  "\t  writers: datawriter, datawriters, writer, publication, publications, w, W",
  "\t  readers: datareader, datareaders, reader, subscription, subscriptions, r, R",
  "\t  topics: topic, t, T",
  "\t  print: show, s, S",
  "\t  verbose: v, -v, --v, V"]

def helpText : String := "\n".intercalate helpLines

def usageLines : List String := [
  "Spy a DDS network: participants, endpoints, topics and live data",
  "",
  "Usage: ddsspy [OPTIONS] [COMMAND]...",
  "",
  "Arguments:",
  "  [COMMAND]...  Run a single command and exit",
  "",
  "Options:",
  "  -c, --config-path <CONFIG_PATH>      YAML configuration file",
  "  -d, --domain <DOMAIN>                DDS domain ID (overrides the configuration file)",
  "  -r, --reload-time <RELOAD_TIME>      Re-read the configuration file every N seconds (0 = only on change) [default: 0]",
  "      --log-filter <LOG_FILTER>        Only log records whose target starts with this",
  "      --log-verbosity <LOG_VERBOSITY>  Log verbosity: error, warning, info, debug",
  "      --debug                          Shortcut for --log-verbosity debug",
  "  -n, --no-color                       Disable colored output",
  "  -h, --help                           Print help",
  "  -V, --version                        Print version"]

def usageText : String := "\n".intercalate usageLines

end BusScope
