import AccessGateway.Document.Toml
import AccessGateway.Settings.Placeholder
import AccessGateway.Settings.Record
import AccessGateway.Settings.Validation
import AccessGateway.Text.Utf8

/-!
# Loading settings

Settings come from a configuration text: its placeholders are filled from the environment, then it
is read, then validated.  The text may come from a file.
-/

set_option autoImplicit false

namespace AccessGateway

/-- Why there are no settings. -/
inductive LoadError where
  /-- There is no such file. -/
  | notFound
  /-- The file holds no text. -/
  | notText
  /-- The text is no configuration, or a value in it has the wrong type. -/
  | unreadable
  /-- The settings have faults. -/
  | invalid (faults : List SettingsFault)
deriving DecidableEq, Repr

/-- The line that reports the faults of settings. -/
def LoadError.faultsText (faults : List SettingsFault) : String :=
  "Validation failed: " ++ Text.join ", " (faults.map SettingsFault.text)

namespace Settings

/-- The settings in a configuration text (`parse_config`). -/
def parse (content : String) (environment : String → Option String) : Except LoadError Settings :=
  match (Toml.parse? (Placeholder.substitute content environment)).bind ofDocument? with
  | none => .error .unreadable
  | some s =>
    match Validation.faults s with
    | [] => .ok s
    | faults => .error (.invalid faults)

/-- The settings in a file with the given content, if there is such a file (`load_config`). -/
def load (content : Option Bytes) (environment : String → Option String) :
    Except LoadError Settings :=
  match content with
  | none => .error .notFound
  | some bytes =>
    match Bytes.text? bytes with
    | none => .error .notText
    | some text => parse text environment

end Settings
end AccessGateway
