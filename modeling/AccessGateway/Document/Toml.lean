import AccessGateway.Document.Basic
import AccessGateway.Text.Ascii
import AccessGateway.Text.Number
import AccessGateway.Text.Split
import AccessGateway.Time.Calendar

/-!
# Configuration text

The notation of configuration files, read in two steps.  First the text becomes a list of
statements: headers of tables, headers of array elements, and assignments.  Then the statements
build a tree, which knows for every table how it came about, because a table may be opened by only
one header and may be extended by dotted keys only if dotted keys made it.
-/

set_option autoImplicit false

namespace AccessGateway.Toml

/-- How a table came about: on the way to a deeper header, from dotted keys, or by its header. -/
inductive Origin where
  | implicit
  | dotted
  | header
deriving DecidableEq, Repr

/-- The tree that statements build. -/
inductive Node where
  | value (d : Document)
  | table (origin : Origin) (entries : List (String × Node))
  | tables (elements : List (List (String × Node)))
deriving Inhabited

/-- The entries of a table. -/
abbrev Entries := List (String × Node)

/-- A line of the file. -/
inductive Statement where
  | header (path : List String)
  | element (path : List String)
  | assign (path : List String) (value : Document)
deriving Inhabited

/-! ## Building the tree -/

mutual

/-- The document that a node stands for. -/
def Node.document : Node → Document
  | .value d => d
  | .table _ entries => .table (documents entries)
  | .tables elements => .list (elementDocuments elements)

/-- The documents of the entries of a table. -/
def documents : List (String × Node) → List (String × Document)
  | [] => []
  | (key, node) :: rest => (key, node.document) :: documents rest

/-- The documents of the elements of an array of tables. -/
def elementDocuments : List (List (String × Node)) → List Document
  | [] => []
  | entries :: rest => .table (documents entries) :: elementDocuments rest

end

/-- The node under a key. -/
def find? (key : String) (es : Entries) : Option Node := (es.find? (·.1 = key)).map (·.2)

/-- The entries with a node put under a key. -/
def put (key : String) (node : Node) : Entries → Entries
  | [] => [(key, node)]
  | (k, n) :: rest => if k = key then (k, node) :: rest else (k, n) :: put key node rest

/-- Goes down a path from a table and applies `act` to the entries of the table at its end, making
tables of kind `made` on the way.  `through` says which existing tables may be passed. -/
def descend (made : Origin) (through : Origin → Bool)
    (act : Origin → Entries → Option Entries) : List String → Origin → Entries → Option Entries
  | [], origin, es => act origin es
  | key :: path, _, es =>
    match find? key es with
    | none =>
      (descend made through act path made []).map fun inner => put key (.table made inner) es
    | some (.table origin inner) =>
      if through origin then
        (descend made through act path origin inner).map fun inner =>
          put key (.table origin inner) es
      else none
    | some (.tables elements) =>
      match elements.getLast? with
      | some last =>
        (descend made through act path .header last).map fun last =>
          put key (.tables (elements.dropLast ++ [last])) es
      | none => none
    | some (.value _) => none

/-- Opens a table by its header: it is new, or was only made on the way to a deeper one. -/
def openTable (path : List String) (es : Entries) : Option Entries :=
  match path.getLast? with
  | none => none
  | some key =>
    descend .implicit (fun _ => true) (fun _ es =>
      match find? key es with
      | none => some (put key (.table .header []) es)
      | some (.table .implicit inner) => some (put key (.table .header inner) es)
      | some _ => none) path.dropLast .header es

/-- Adds an element to an array of tables. -/
def openElement (path : List String) (es : Entries) : Option Entries :=
  match path.getLast? with
  | none => none
  | some key =>
    descend .implicit (fun _ => true) (fun _ es =>
      match find? key es with
      | none => some (put key (.tables [[]]) es)
      | some (.tables elements) => some (put key (.tables (elements ++ [[]])) es)
      | some _ => none) path.dropLast .header es

/-- Puts a value under a possibly dotted key, seen from a table. -/
def assignIn (path : List String) (value : Document) (origin : Origin) (es : Entries) :
    Option Entries :=
  match path.getLast? with
  | none => none
  | some key =>
    let dotted := path.length > 1
    descend .dotted (· ≠ .header) (fun last es =>
      if dotted && last ≠ .dotted then none
      else if (find? key es).isSome then none
      else some (put key (.value value) es)) path.dropLast origin es

/-- The tree built so far, and the table that assignments go to. -/
structure Build where
  root : Entries
  current : List String
deriving Inhabited

/-- The effect of one statement. -/
def Build.step (b : Build) : Statement → Option Build
  | .header path => (openTable path b.root).map fun root => ⟨root, path⟩
  | .element path => (openElement path b.root).map fun root => ⟨root, path⟩
  | .assign path value =>
    (descend .implicit (fun _ => true) (fun origin es => assignIn path value origin es)
      b.current .header b.root).map fun root => { b with root }

/-- The document that a list of statements describes. -/
def assemble? (statements : List Statement) : Option Document :=
  (statements.foldlM Build.step ⟨[], []⟩).map fun b => .table (documents b.root)

/-! ## Reading statements -/

/-- A blank inside a line. -/
def isSpace (c : Char) : Bool := c == ' ' || c == '\t'

/-- The text after the blanks at its front. -/
def skipSpaces (cs : List Char) : List Char := cs.dropWhile isSpace

/-- A character that comments and literal strings may hold. -/
def isPlain (c : Char) : Bool := c == '\t' || (0x20 ≤ c.toNat && c.toNat ≠ 0x7F)

/-- A character of an unquoted key. -/
def isKeyChar (c : Char) : Bool := c.isAlphanum || c == '-' || c == '_'

/-- The text after a line break. -/
def newline? : List Char → Option (List Char)
  | '\n' :: rest => some rest
  | '\r' :: '\n' :: rest => some rest
  | _ => none

/-- The text after a comment, if one starts here. -/
def skipComment : List Char → List Char
  | '#' :: rest => rest.dropWhile isPlain
  | cs => cs

/-- The text after blanks, comments and line breaks. -/
def skipLines (fuel : Nat) (cs : List Char) : List Char :=
  match fuel with
  | 0 => cs
  | fuel + 1 =>
    let cs := skipComment (skipSpaces cs)
    match newline? cs with
    | some rest => skipLines fuel rest
    | none => cs

/-- The character of a number of hexadecimal digits. -/
def codePoint? (cs : List Char) : Option Char := do
  let values ← cs.mapM Text.hexValue?
  let n := values.foldl (fun n v => 16 * n + v) 0
  if n < 0xD800 ∨ (0xDFFF < n ∧ n < 0x110000) then some (Char.ofNat n) else none

/-- The character that an escape means, with the text after it; the backslash is already read. -/
def escape? : List Char → Option (Char × List Char)
  | 'b' :: rest => some ('\x08', rest)
  | 't' :: rest => some ('\t', rest)
  | 'n' :: rest => some ('\n', rest)
  | 'f' :: rest => some ('\x0c', rest)
  | 'r' :: rest => some ('\r', rest)
  | '"' :: rest => some ('"', rest)
  | '\\' :: rest => some ('\\', rest)
  | 'u' :: rest =>
    if (rest.take 4).length = 4 then (codePoint? (rest.take 4)).map (·, rest.drop 4) else none
  | 'U' :: rest =>
    if (rest.take 8).length = 8 then (codePoint? (rest.take 8)).map (·, rest.drop 8) else none
  | _ => none

/-- The inside of a string in double quotes on one line, and the text after it. -/
def basicString? (fuel : Nat) (cs : List Char) : Option (List Char × List Char) :=
  match fuel with
  | 0 => none
  | fuel + 1 =>
    match cs with
    | '"' :: rest => some ([], rest)
    | '\\' :: rest => do
      let (c, rest) ← escape? rest
      let (text, after) ← basicString? fuel rest
      some (c :: text, after)
    | c :: rest =>
      if isPlain c then (basicString? fuel rest).map fun (text, after) => (c :: text, after)
      else none
    | [] => none

/-- The inside of a string in single quotes on one line, and the text after it. -/
def literalString? (cs : List Char) : Option (List Char × List Char) :=
  let inside := cs.takeWhile fun c => isPlain c && c ≠ '\''
  match cs.drop inside.length with
  | '\'' :: rest => some (inside, rest)
  | _ => none

/-- Up to two quotes at the end of a text in three quotes belong to the text. -/
def closing? (quote : Char) : List Char → Option (List Char × List Char)
  | a :: b :: c :: d :: e :: rest =>
    if a = quote ∧ b = quote ∧ c = quote then
      if d = quote ∧ e = quote then some ([quote, quote], rest)
      else if d = quote then some ([quote], e :: rest)
      else some ([], d :: e :: rest)
    else none
  | a :: b :: c :: d :: rest =>
    if a = quote ∧ b = quote ∧ c = quote then
      if d = quote then some ([quote], rest) else some ([], d :: rest)
    else none
  | a :: b :: c :: rest =>
    if a = quote ∧ b = quote ∧ c = quote then some ([], rest) else none
  | _ => none

/-- A backslash at the end of a line swallows the blanks and line breaks up to the next text. -/
def skipFolded (fuel : Nat) (cs : List Char) : List Char :=
  match fuel with
  | 0 => cs
  | fuel + 1 =>
    match newline? (skipSpaces cs) with
    | some rest => skipFolded fuel rest
    | none => skipSpaces cs

/-- The inside of a text in three double quotes, and the text after it. -/
def longBasic? (fuel : Nat) (cs : List Char) : Option (List Char × List Char) :=
  match fuel with
  | 0 => none
  | fuel + 1 =>
    match closing? '"' cs with
    | some (quotes, rest) => some (quotes, rest)
    | none =>
      match newline? cs with
      | some rest => (longBasic? fuel rest).map fun (text, after) => ('\n' :: text, after)
      | none =>
        match cs with
        | '\\' :: rest =>
          match newline? (skipSpaces rest) with
          | some more => longBasic? fuel (skipFolded fuel more)
          | none => do
            let (c, rest) ← escape? rest
            let (text, after) ← longBasic? fuel rest
            some (c :: text, after)
        | c :: rest =>
          if isPlain c then (longBasic? fuel rest).map fun (text, after) => (c :: text, after)
          else none
        | [] => none

/-- The inside of a text in three single quotes, and the text after it. -/
def longLiteral? (fuel : Nat) (cs : List Char) : Option (List Char × List Char) :=
  match fuel with
  | 0 => none
  | fuel + 1 =>
    match closing? '\'' cs with
    | some (quotes, rest) => some (quotes, rest)
    | none =>
      match newline? cs with
      | some rest => (longLiteral? fuel rest).map fun (text, after) => ('\n' :: text, after)
      | none =>
        match cs with
        | c :: rest =>
          if isPlain c then (longLiteral? fuel rest).map fun (text, after) => (c :: text, after)
          else none
        | [] => none

/-- A string on one line in either kind of quotes. -/
def quoted? (cs : List Char) : Option (String × List Char) :=
  match cs with
  | '"' :: rest =>
    (basicString? (rest.length + 1) rest).map fun (t, after) => (String.ofList t, after)
  | '\'' :: rest => (literalString? rest).map fun (t, after) => (String.ofList t, after)
  | _ => none

/-- A string in any of the four notations. -/
def string? (cs : List Char) : Option (String × List Char) :=
  match cs with
  | '"' :: '"' :: '"' :: rest =>
    let rest := (newline? rest).getD rest
    (longBasic? (rest.length + 1) rest).map fun (t, after) => (String.ofList t, after)
  | '\'' :: '\'' :: '\'' :: rest =>
    let rest := (newline? rest).getD rest
    (longLiteral? (rest.length + 1) rest).map fun (t, after) => (String.ofList t, after)
  | _ => quoted? cs

/-- One part of a key. -/
def keyPart? (cs : List Char) : Option (String × List Char) :=
  match cs.takeWhile isKeyChar with
  | [] => quoted? cs
  | key => some (String.ofList key, cs.dropWhile isKeyChar)

/-- A key with its dots, and the text after it and its blanks. -/
def key? (fuel : Nat) (cs : List Char) : Option (List String × List Char) :=
  match fuel with
  | 0 => none
  | fuel + 1 => do
    let (part, rest) ← keyPart? (skipSpaces cs)
    match skipSpaces rest with
    | '.' :: more => (key? fuel more).map fun (parts, after) => (part :: parts, after)
    | after => some ([part], after)

/-- How deeply values and keys may be nested. -/
def nestingLimit : Nat := 79

/-- Digits with single underscores between them. -/
def isGrouped (isDigit : Char → Bool) (cs : List Char) : Bool :=
  let groups := Text.fields '_' cs
  groups.all fun g => g ≠ [] && g.all isDigit

/-- The number that digits in a base stand for, underscores left out. -/
def baseValue (base : Nat) (cs : List Char) : Nat :=
  (cs.filter (· ≠ '_')).foldl (fun n c => base * n + (Text.hexValue? c).getD 0) 0

/-- An integer of 64 bits in decimal, hexadecimal, octal or binary notation. -/
def integer? (cs : List Char) : Option Int :=
  let bounded (n : Int) : Option Int :=
    if Int64.minValue.toInt ≤ n ∧ n ≤ Int64.maxValue.toInt then some n else none
  match cs with
  | '0' :: 'x' :: ds =>
    if isGrouped (Text.hexValue? · |>.isSome) ds then bounded (baseValue 16 ds) else none
  | '0' :: 'o' :: ds =>
    if isGrouped (fun c => '0' ≤ c && c ≤ '7') ds then bounded (baseValue 8 ds) else none
  | '0' :: 'b' :: ds =>
    if isGrouped (fun c => c == '0' || c == '1') ds then bounded (baseValue 2 ds) else none
  | _ =>
    let (negative, ds) := match cs with
      | '-' :: ds => (true, ds)
      | '+' :: ds => (false, ds)
      | _ => (false, cs)
    if isGrouped Char.isDigit ds && (ds.length == 1 || ds.head? != some '0') then
      bounded (if negative then -(baseValue 10 ds : Int) else baseValue 10 ds)
    else none

/-- The least number that is rounded to infinity: half a unit above the greatest one of 64 bits. -/
def leastInfinite : Nat := Nat.pow 2 1024 - Nat.pow 2 970

/-- Whether `digits`, read with the point `places` digits before their end, times a power of ten is
rounded to infinity.  Only a number of 309 digits has to be compared exactly. -/
def isInfinite (digits : List Char) (places : Nat) (exponent : Int) : Bool :=
  let digits := digits.dropWhile (· = '0')
  let shift := exponent - places
  let magnitude := digits.length + shift
  if digits = [] ∨ magnitude < 309 then false
  else if 309 < magnitude then true
  else baseValue 10 digits * Nat.pow 10 shift.toNat ≥ leastInfinite * Nat.pow 10 (-shift).toNat

/-- Whether a text is a fractional number.  One that is too large is none, if it is above zero. -/
def isReal (cs : List Char) : Bool :=
  let (negative, ds) := match cs with
    | '-' :: ds => (true, ds)
    | '+' :: ds => (false, ds)
    | _ => (false, cs)
  if ds == "inf".toList || ds == "nan".toList then true
  else
    let (mantissa, exponent) := match ds.dropWhile fun c => c ≠ 'e' && c ≠ 'E' with
      | _ :: e => (ds.takeWhile fun c => c ≠ 'e' && c ≠ 'E', some e)
      | [] => (ds, none)
    let (down, power) := match exponent with
      | none => (false, ['0'])
      | some ('-' :: e) => (true, e)
      | some ('+' :: e) => (false, e)
      | some e => (false, e)
    let (whole, fraction) := match Text.cut? '.' mantissa with
      | some (w, f) => (w, some f)
      | none => (mantissa, none)
    let tail := (fraction.getD []).filter (· ≠ '_')
    let size : Int := baseValue 10 power
    let size := if down then -size else size
    isGrouped Char.isDigit whole && (whole.length == 1 || whole.head? != some '0') &&
      fraction.all (isGrouped Char.isDigit) && (fraction.isSome || exponent.isSome) &&
      isGrouped Char.isDigit power &&
      (negative || !isInfinite (whole.filter (· ≠ '_') ++ tail) tail.length size)

/-- A run of exactly `n` digits as a number. -/
def fixed? (n : Nat) (cs : List Char) : Option (Nat × List Char) :=
  if (cs.take n).length = n then (Text.digits? (cs.take n)).map (·, cs.drop n) else none

/-- The text after a calendar date. -/
def date? (cs : List Char) : Option (List Char) := do
  let (year, cs) ← fixed? 4 cs
  let cs ← ['-'].isPrefixOf? cs
  let (month, cs) ← fixed? 2 cs
  let cs ← ['-'].isPrefixOf? cs
  let (day, cs) ← fixed? 2 cs
  if (Calendar.Date.mk year month day).isValid then some cs else none

/-- The text after a time of day. -/
def clock? (cs : List Char) : Option (List Char) := do
  let (hour, cs) ← fixed? 2 cs
  let cs ← [':'].isPrefixOf? cs
  let (minute, cs) ← fixed? 2 cs
  let cs ← [':'].isPrefixOf? cs
  let (second, cs) ← fixed? 2 cs
  if hour < 24 ∧ minute < 60 ∧ second ≤ 60 then
    match cs with
    | '.' :: rest =>
      if rest.takeWhile Char.isDigit = [] then none else some (rest.dropWhile Char.isDigit)
    | _ => some cs
  else none

/-- The text after an offset from UTC, which may be missing. -/
def offset? (cs : List Char) : Option (List Char) :=
  let numeric (rest : List Char) : Option (List Char) := do
    let (hour, rest) ← fixed? 2 rest
    let rest ← [':'].isPrefixOf? rest
    let (minute, rest) ← fixed? 2 rest
    if hour < 24 ∧ minute < 60 then some rest else none
  match cs with
  | 'Z' :: rest => some rest
  | 'z' :: rest => some rest
  | '+' :: rest => numeric rest
  | '-' :: rest => numeric rest
  | _ => some cs

/-- The text after a moment: a date, a time of day, or both with or without an offset. -/
def moment? (cs : List Char) : Option (List Char) :=
  match date? cs with
  | some (sep :: rest) =>
    if sep = 'T' ∨ sep = 't' ∨ sep = ' ' then
      match clock? rest with
      | some after => offset? after
      | none => some (sep :: rest)
    else some (sep :: rest)
  | some [] => some []
  | none => clock? cs

/-- A value that is no string and has no parts. -/
def scalar? (cs : List Char) : Option (Document × List Char) :=
  match moment? cs with
  | some rest =>
    some (.moment (String.ofList (cs.take (cs.length - rest.length))), rest)
  | none =>
    let run := cs.takeWhile fun c => c.isAlphanum || "+-._".toList.contains c
    let rest := cs.drop run.length
    if run = "true".toList then some (.bool true, rest)
    else if run = "false".toList then some (.bool false, rest)
    else match integer? run with
      | some n => some (.integer n, rest)
      | none => if isReal run then some (.real (String.ofList run), rest) else none

/-- The table of an inline list of assignments. -/
def inlineTable? (pairs : List (List String × Document)) : Option Document :=
  (pairs.foldlM (fun es (path, value) => assignIn path value .header es) ([] : Entries)).map
    fun es => .table (documents es)

mutual

/-- Reads a value; `fuel` bounds the number of steps and `depth` the nesting. -/
def value? (fuel depth : Nat) (cs : List Char) : Option (Document × List Char) :=
  match fuel with
  | 0 => none
  | fuel + 1 =>
    match cs with
    | '"' :: _ => (string? cs).map fun (s, rest) => (.text s, rest)
    | '\'' :: _ => (string? cs).map fun (s, rest) => (.text s, rest)
    | '[' :: rest =>
      if depth = 0 then none
      else (items? fuel (depth - 1) rest).map fun (items, after) => (.list items, after)
    | '{' :: rest =>
      if depth = 0 then none
      else match skipSpaces rest with
        | '}' :: after => some (.table [], after)
        | _ => do
          let (pairs, after) ← pairs? fuel (depth - 1) rest
          let table ← inlineTable? pairs
          some (table, after)
    | _ => scalar? cs

/-- Reads the items of an array up to its closing bracket. -/
def items? (fuel depth : Nat) (cs : List Char) : Option (List Document × List Char) :=
  match fuel with
  | 0 => none
  | fuel + 1 =>
    match skipLines cs.length cs with
    | ']' :: after => some ([], after)
    | start => do
      let (item, rest) ← value? fuel depth start
      match skipLines rest.length rest with
      | ']' :: after => some ([item], after)
      | ',' :: more => (items? fuel depth more).map fun (items, after) => (item :: items, after)
      | _ => none

/-- Reads the assignments of an inline table up to its closing brace. -/
def pairs? (fuel depth : Nat) (cs : List Char) :
    Option (List (List String × Document) × List Char) :=
  match fuel with
  | 0 => none
  | fuel + 1 => do
    let (path, rest) ← key? nestingLimit cs
    let rest ← ['='].isPrefixOf? rest
    let (item, rest) ← value? fuel depth (skipSpaces rest)
    match skipSpaces rest with
    | '}' :: after => some ([(path, item)], after)
    | ',' :: more =>
      (pairs? fuel depth more).map fun (pairs, after) => ((path, item) :: pairs, after)
    | _ => none

end

/-- Reads the statement at the front of a line that holds one, and the text after it. -/
def statement? (cs : List Char) : Option (Statement × List Char) :=
  match cs with
  | '[' :: '[' :: rest => do
    let (path, rest) ← key? nestingLimit rest
    let after ← "]]".toList.isPrefixOf? rest
    some (.element path, after)
  | '[' :: rest => do
    let (path, rest) ← key? nestingLimit rest
    let after ← [']'].isPrefixOf? rest
    some (.header path, after)
  | _ => do
    let (path, rest) ← key? nestingLimit cs
    let rest ← ['='].isPrefixOf? rest
    let (item, after) ← value? (2 * rest.length + 2) nestingLimit (skipSpaces rest)
    some (.assign path item, after)

/-- Reads the statements of a text; `fuel` bounds the number of lines. -/
def statements? (fuel : Nat) (cs : List Char) : Option (List Statement) :=
  match fuel with
  | 0 => none
  | fuel + 1 =>
    match skipLines cs.length cs with
    | [] => some []
    | start => do
      let (statement, rest) ← statement? start
      match skipComment (skipSpaces rest) with
      | [] => some [statement]
      | more => do
        let next ← newline? more
        (statements? fuel next).map (statement :: ·)

/-- The document of a configuration text.  A byte order mark at its start is passed over. -/
def parse? (content : String) : Option Document :=
  let cs := content.toList
  let cs := match cs with
    | c :: rest => if c.toNat = 0xFEFF then rest else cs
    | [] => []
  (statements? (cs.length + 1) cs).bind assemble?

end AccessGateway.Toml
