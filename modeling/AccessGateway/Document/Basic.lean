/-!
# Documents

The values that settings are read from: what a table of a configuration file or an object of a
data message holds, whatever its notation was.
-/

set_option autoImplicit false

namespace AccessGateway

/-- A value of a document.  Fractional numbers and calendar moments are kept as written. -/
inductive Document where
  | null
  | bool (b : Bool)
  | integer (n : Int)
  | real (digits : String)
  | moment (text : String)
  | text (s : String)
  | list (items : List Document)
  | table (entries : List (String × Document))
deriving Repr, Inhabited

namespace Document

/-- The entry of a table under a key; nothing for other values. -/
def get? (d : Document) (key : String) : Option Document :=
  match d with
  | .table entries => (entries.find? (·.1 = key)).map (·.2)
  | _ => none

end Document
end AccessGateway
