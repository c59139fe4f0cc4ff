import AccessGateway.Text.Split

/-!
# Placeholders

`${NAME}` in a text stands for the value of a variable, put in as it is.  A name without a value
and a placeholder without its brace stay as they are.
-/

set_option autoImplicit false

namespace AccessGateway.Placeholder

/-- Where a placeholder starts. -/
def opening : List Char := ['$', '\x7b']

/-- Where a placeholder ends. -/
def closing : Char := '\x7d'

/-- The text from a placeholder's name on: the name's value, or the placeholder as it was written,
with what comes after it; nothing if the brace is missing. -/
def fill? (lookup : String → Option String) (after : List Char) :
    Option (List Char × { rest : List Char // rest.length < after.length }) :=
  match h : after.dropWhile (· ≠ closing) with
  | [] => none
  | _ :: rest =>
    let name := after.takeWhile (· ≠ closing)
    let text := match lookup (String.ofList name) with
      | some value => value.toList
      | none => opening ++ name ++ [closing]
    some (text, ⟨rest, by
      have := congrArg List.length h
      have := (List.dropWhile_suffix (· ≠ closing) (l := after)).length_le
      simp only [List.length_cons] at *
      omega⟩)

/-- Fills the placeholders of a text from left to right. -/
def fill (lookup : String → Option String) : List Char → List Char
  | [] => []
  | '$' :: '\x7b' :: after =>
    match fill? lookup after with
    | none => opening ++ after
    | some (text, ⟨rest, _⟩) => text ++ fill lookup rest
  | c :: rest => c :: fill lookup rest
termination_by cs => cs.length
decreasing_by
  · simp only [List.length_cons]; omega
  · simp

/-- The names in the placeholders of a text, in order. -/
def names : List Char → List String
  | [] => []
  | '$' :: '\x7b' :: after =>
    match h : Text.cut? closing after with
    | none => []
    | some (name, rest) =>
      have := Text.length_cut? h
      String.ofList name :: names rest
  | _ :: rest => names rest
termination_by cs => cs.length
decreasing_by
  · simp only [List.length_cons]; omega
  · simp

/-- Fills the placeholders of a string (`substitute_env`). -/
def substitute (content : String) (lookup : String → Option String) : String :=
  String.ofList (fill lookup content.toList)

end AccessGateway.Placeholder
