import AccessGateway.Command.Log
import AccessGateway.Net.SocketAddress
import AccessGateway.Settings.Load

/-!
# The command line

`--config FILE` (or `-c FILE`) names the configuration file, `--validate-config` stops after it was
checked, `--help` explains this.  A run ends with an exit code: 0 if all went well, 1 if the
settings or an address are at fault, 2 if the command line is.
-/

set_option autoImplicit false

namespace AccessGateway

/-- What a command line asks for. -/
inductive Invocation where
  | run (file : String) (validateOnly : Bool)
  | help
  | misuse
deriving DecidableEq, Repr

namespace Invocation

/-- The configuration file if none is named. -/
def usualFile : String := "gateway.toml"

/-- What was asked for so far. -/
structure Progress where
  file : Option String
  validateOnly : Bool
deriving DecidableEq, Repr

/-- Notes the configuration file; it is named once, and not by an empty text. -/
def Progress.withFile? (p : Progress) (file : String) : Option Progress :=
  if p.file.isSome ∨ file = "" then none else some { p with file := some file }

/-- The value of an option that is written together with it. -/
def joined? (mark arg : String) : Option String :=
  (mark.toList.isPrefixOf? arg.toList).map String.ofList

/-- Whether a text can be the value of the option before it. -/
def isValue (arg : String) : Bool := arg.toList.head? ≠ some '-' || arg = "-"

/-- Reads the arguments that are left. -/
def read (p : Progress) : List String → Invocation
  | [] => .run (p.file.getD usualFile) p.validateOnly
  | arg :: rest =>
    if arg = "--help" ∨ joined? "-h" arg ≠ none then .help
    else if arg = "--validate-config" then
      if p.validateOnly then .misuse else read { p with validateOnly := true } rest
    else if arg = "--" then
      if rest = [] then read p [] else .misuse
    else if arg = "--config" ∨ arg = "-c" then
      match rest with
      | file :: rest =>
        if !isValue file then .misuse
        else match p.withFile? file with
          | some p => read p rest
          | none => .misuse
      | [] => .misuse
    else
      match joined? "--config=" arg <|> joined? "-c=" arg <|> joined? "-c" arg with
      | some file =>
        match p.withFile? file with
        | some p => read p rest
        | none => .misuse
      | none => .misuse

/-- Reads a command line. -/
def parse (args : List String) : Invocation := read ⟨none, false⟩ args

end Invocation

/-- How a run ended, with its log. -/
structure RunReport where
  exitCode : Nat
  log : List LogLine
deriving DecidableEq, Repr

/-- What a run finds outside. -/
structure RunEnvironment where
  /-- The content of a file, if there is one. -/
  file : String → Option Bytes
  /-- The value of a variable, if it is set. -/
  lookup : String → Option String
  /-- Whether an address can be listened at. -/
  canListen : SocketAddress → Bool

namespace RunReport

/-- The line about settings that cannot be used. -/
def settingsFault (e : LoadError) : LogLine :=
  ⟨.error, "Invalid configuration: " ++ match e with
    | .notFound => "file not found"
    | .notText => "file is not text"
    | .unreadable => "file cannot be read as settings"
    | .invalid faults => LoadError.faultsText faults⟩

/-- The lines about the metrics listener. -/
def metricsLines (env : RunEnvironment) (s : ObservabilitySettings) : List LogLine :=
  if s.metricsEnabled then
    match SocketAddress.parse? s.metricsAddress with
    | some address =>
      if env.canListen address then [⟨.info, "Metrics endpoint listening"⟩]
      else [⟨.error, "Failed to install the metrics endpoint"⟩]
    | none => [⟨.error, "Failed to parse metrics address"⟩]
  else []

/-- A run up to the point where it listens for requests. -/
def ofInvocation (env : RunEnvironment) : Invocation → RunReport
  | .help => ⟨0, []⟩
  | .misuse => ⟨2, []⟩
  | .run file validateOnly =>
    match Settings.load (env.file file) env.lookup with
    | .error e => ⟨1, [settingsFault e]⟩
    | .ok s =>
      let started : LogLine := ⟨.info, "waf-gateway starting"⟩
      let shown := LogLine.shown s.observability.logLevel
      if validateOnly then ⟨0, shown [started, ⟨.info, "Configuration is valid"⟩]⟩
      else
        let lines := started :: metricsLines env s.observability
        match SocketAddress.parse? s.listener.bindAddress with
        | some address =>
          if env.canListen address then
            ⟨0, shown (lines ++ [⟨.info, "Gateway listening"⟩, ⟨.info, "Gateway stopped"⟩,
              ⟨.info, "Shutdown complete"⟩])⟩
          else ⟨1, shown lines⟩
        | none => ⟨1, shown lines⟩

end RunReport
end AccessGateway
