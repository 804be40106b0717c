import Saboteur.CommandLine

/-!
# Texts about the command line

What the program tells of itself when it is asked for help or for its version, and what it says
about a command line that it cannot read.
-/

namespace Saboteur

namespace Flag

/-- What stands for the value of a flag. -/
def valueName : Flag → String
  | configFile | strategyFile => "FILE"
  | debugLevel => "LEVEL"
  | logFormat => "FORMAT"
  | httpAddress => "ADDRESS"
  | httpPort => "PORT"
  | httpAllowOrigin => "ORIGIN"
  | beaconNode | executionNode => "NETWORK_ADDRESS"
  | maxValidatorIndex => "INDEX"
  | cacheRetentionEpochs => "EPOCHS"
  | feedbackInterval => "SECONDS"

/-- What a flag is for. -/
def purpose : Flag → String
  | configFile =>
    "A TOML file providing any of the options below. Flags given on the command line take " ++
      "precedence over the file. [aliases: --config]"
  | debugLevel =>
    "Specifies the verbosity level used when emitting logs to the terminal. [default: info] " ++
      "[possible values: " ++ ", ".intercalate (Log.Level.all.map Log.Level.flag) ++ "]"
  | logFormat =>
    "Specifies the log format used when emitting logs to the terminal. [possible values: JSON]"
  | httpAddress => "Set the address for the HTTP server. [default: 127.0.0.1]"
  | httpPort => "Set the listen TCP port for the HTTP server. [default: 10000]"
  | httpAllowOrigin =>
    "Set the value of the Access-Control-Allow-Origin response HTTP header. Use * to allow any " ++
      "origin (not recommended in production). If no value is supplied, the CORS allowed origin " ++
      "is set to the listen address of this server."
  | beaconNode =>
    "HTTP API endpoint of the beacon node used for genesis, chain timings, proposer and " ++
      "attester duties and block roots. [default: http://localhost:5052]"
  | executionNode =>
    "JSON-RPC endpoint of an execution node. Only required by the attestation modification " ++
      "endpoint."
  | strategyFile => "A JSON strategy document to install before the HTTP server starts."
  | maxValidatorIndex =>
    "Attester duties are polled for validators 0 up to and including this index. [default: 63]"
  | cacheRetentionEpochs =>
    "Prune cached blocks, attestations, duties and pooled attestations older than this many " ++
      "epochs. By default nothing is pruned."
  | feedbackInterval => "Seconds between checks for completed strategies. [default: 10]"

/-- The lines about a flag. -/
def helpLines (f : Flag) : List String :=
  ["      --" ++ f.name ++ " <" ++ f.valueName ++ ">", "          " ++ f.purpose]

end Flag

namespace CommandLine

/-- The name under which the program runs. -/
def programName : String := "attacker"

/-- What the program tells about its command line. -/
def help : String :=
  "\n".intercalate <|
    ["Serves attack strategies to instrumented validator clients. Each client calls a hook " ++
        "before and after signing or broadcasting and is told whether to continue, delay, drop " ++
        "or rewrite the message.", "", "Usage: " ++ programName ++ " [OPTIONS]", "", "Options:"] ++
      Flag.all.flatMap Flag.helpLines ++
      ["  -h, --help", "          Print help", "  -V, --version", "          Print version"]

/-- The name of the program and its version. -/
def version : String := programName ++ " 0.1.0"

/-- What is said at a stop. -/
def Stop.text : Stop → String
  | help => CommandLine.help
  | version => CommandLine.version
  | unknownArgument => "error: unexpected argument found"
  | invalidValue => "error: a flag has no value, or one that it does not take"
  | repeatedFlag => "error: a flag cannot be used multiple times"
  | needlessValue => "error: unexpected value for a flag"

end CommandLine

end Saboteur
