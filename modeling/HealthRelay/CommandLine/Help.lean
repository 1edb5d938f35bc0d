import HealthRelay.CommandLine

/-!
# Help

The help texts of the program and its commands. Flags of the agent command have their descriptions
on lines of their own.
-/

namespace HealthRelay

def Flag.help : Flag → String
  | .logFormat => "Log output format [default: text] [possible values: text, json]"
  | .config => "Path to a beacon.toml file; flags override its values"
  | .name => "Display name attached to every report"
  | .localAddr => "llama.cpp address to probe (host:port)"
  | .externalAddr => "Address advertised to the management plane. Defaults to --local-addr"
  | .apiKey => "Bearer token for the llama.cpp server"
  | .managementAddr => "Management plane address (host:port)"
  | .reportingInterval => "Probe cadence and per-call deadline, e.g. \"5s\" or \"500ms\""

namespace HelpTopic

def aboutProgram : String := "Beacon health-relay daemon"

def aboutAgent : String :=
  "Monitor a llama.cpp server and report its health to the management plane"

def aboutHelp : String := "Print this message or the help of the given subcommand(s)"

def text : HelpTopic → String
  | .program =>
    aboutProgram ++ "\n\nUsage: " ++ programName ++
      " [OPTIONS] <COMMAND>\n\nCommands:\n  agent  " ++ aboutAgent ++ "\n  help   " ++ aboutHelp ++
      "\n\nOptions:\n      " ++ Flag.logFormat.shown ++ "  " ++ Flag.logFormat.help ++
      "\n  -h, --help                     Print help\n"
  | .agent =>
    aboutAgent ++ "\n\nUsage: " ++ programName ++ " agent [OPTIONS]\n\nOptions:\n" ++
      String.join (Flag.ofAgent.map fun flag =>
        "      " ++ flag.shown ++ "\n          " ++ flag.help ++ "\n") ++
      "  -h, --help\n          Print help\n"
  | .help =>
    aboutHelp ++ "\n\nUsage: " ++ programName ++ " help [COMMAND]...\n\nArguments:\n" ++
      "  [COMMAND]...  Print help for the subcommand(s)\n"

end HelpTopic

namespace CommandLineStop

def stdout : CommandLineStop → String
  | .help topic => topic.text
  | _ => ""

def stderr : CommandLineStop → String
  | .help _ => ""
  | .nothingGiven => HelpTopic.program.text
  | .wrong error => "error: " ++ error.message ++ "\n\nFor more information, try '--help'.\n"

def exitCode : CommandLineStop → Nat
  | .help _ => 0
  | _ => 2

end CommandLineStop

end HealthRelay
