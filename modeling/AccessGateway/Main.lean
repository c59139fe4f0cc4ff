import AccessGateway.Command.Line

/-!
# The program

Reads the command line, the configuration file and the environment, prints the log, and ends with
the exit code.  Sockets are not this program's business: no address counts as free, so that it goes
as far as a gateway can go without one.
-/

set_option autoImplicit false

namespace AccessGateway

/-- The content of a file, if it can be read. -/
def readContent (file : String) : IO (Option Bytes) :=
  try
    return some (← IO.FS.readBinFile file).toList
  catch _ =>
    return none

/-- The variables that the placeholders of a content name. -/
def readVariables (content : Option Bytes) : IO (String → Option String) := do
  let names := (content.bind Bytes.text?).elim [] fun text => Placeholder.names text.toList
  let pairs ← names.filterMapM fun name => return (← IO.getEnv name).map (name, ·)
  return fun name => (pairs.find? (·.1 = name)).map (·.2)

/-- A line of the log as it is printed. -/
def LogLine.text (line : LogLine) : String :=
  line.level.text ++ " " ++ LogLine.target ++ ": " ++ line.message

/-- What the options are. -/
def usage : String :=
  "Authorizing reverse-proxy gateway\n\nUsage: waf-gateway [OPTIONS]\n\nOptions:\n" ++
  "  -c, --config <CONFIG>  Path to the TOML configuration file [default: gateway.toml]\n" ++
  "      --validate-config  Validate the configuration and exit\n" ++
  "  -h, --help             Print help"

end AccessGateway

open AccessGateway

/-- Runs the program. -/
def main (args : List String) : IO UInt32 := do
  let invocation := Invocation.parse args
  let content ← match invocation with
    | .run file _ => readContent file
    | .help | .misuse => IO.println usage *> pure none
  let lookup ← readVariables content
  let report := RunReport.ofInvocation ⟨fun _ => content, lookup, fun _ => false⟩ invocation
  for line in report.log do
    IO.println line.text
  return UInt32.ofNat report.exitCode
