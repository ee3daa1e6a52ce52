import TableGateway.Fault
import TableGateway.Json.Basic
import TableGateway.Toml.Scalar

/-!
# TOML documents

TOML 1.0, read into a JSON document. A table may be defined once: by its own header, or by dotted
keys, or by the header of a table within it and later its own. `Node` keeps track of that. Arrays
and inline tables are nested at most `maxDepth` deep, and keys have at most so many parts.
-/
namespace TableGateway.Toml

/-- How a table came to be. -/
inductive Origin where
  /-- By its own header. -/
  | header
  /-- By the header of a table within it. -/
  | path
  /-- By a dotted key. -/
  | dotted
  deriving DecidableEq, Repr

/-- What stands under a key. -/
inductive Node where
  | value (v : Json)
  | table (origin : Origin) (members : List (String × Node))
  /-- The tables of an array, the last one first. -/
  | tables (items : List (List (String × Node)))

abbrev Members := List (String × Node)

def put (key : String) (node : Node) : Members → Members
  | [] => [(key, node)]
  | (k, n) :: rest => if k = key then (key, node) :: rest else (k, n) :: put key node rest

/-- Change the table at a path of headers; tables on the way are made as needed. -/
def within (change : Members → Option Members) : List String → Members → Option Members
  | [], members => change members
  | key :: path, members =>
    match members.lookup key with
    | none => (within change path []).map fun inner => put key (.table .path inner) members
    | some (.table origin inner) =>
      (within change path inner).map fun inner => put key (.table origin inner) members
    | some (.tables (last :: before)) =>
      (within change path last).map fun last => put key (.tables (last :: before)) members
    | some _ => none

def define (key : String) (members : Members) : Option Members :=
  match members.lookup key with
  | none => some (put key (.table .header []) members)
  | some (.table .path inner) => some (put key (.table .header inner) members)
  | some _ => none

/-- Begin a further table of an array. -/
def extend (key : String) (members : Members) : Option Members :=
  match members.lookup key with
  | none => some (put key (.tables [[]]) members)
  | some (.tables items) => some (put key (.tables ([] :: items)) members)
  | some _ => none

/-- Set a value under a dotted key. The key may lead on from the last table of an array, but may not
end in it. -/
def assign (last : String) (v : Json) : List String → Members → Option Members
  | [], members => if (members.lookup last).isSome then none else some (put last (.value v) members)
  | key :: keys, members =>
    match members.lookup key with
    | none => (assign last v keys []).map fun inner => put key (.table .dotted inner) members
    | some (.table .dotted inner) =>
      (assign last v keys inner).map fun inner => put key (.table .dotted inner) members
    | some (.table .path inner) =>
      if keys.isEmpty then none
      else (assign last v keys inner).map fun inner => put key (.table .path inner) members
    | some (.tables (item :: before)) =>
      if keys.isEmpty then none
      else (assign last v keys item).map fun item => put key (.tables (item :: before)) members
    | some _ => none

mutual

def Node.json : Node → Json
  | .value v => v
  | .table _ members => .object (membersJson members)
  | .tables items => .arr (tablesJson items).reverse

def membersJson : List (String × Node) → List (String × Json)
  | [] => []
  | (key, node) :: rest => (key, node.json) :: membersJson rest

def tablesJson : List (List (String × Node)) → List Json
  | [] => []
  | members :: rest => .object (membersJson members) :: tablesJson rest

end

/-! ## Reading -/

/-- How deep arrays and inline tables may be nested, and how many parts a key may have. -/
def maxDepth : Nat := 79

def skipBlank (cs : List Char) : List Char := cs.dropWhile fun c => c == ' ' || c == '\t'

def isBare (c : Char) : Bool := c.isAlphanum || c == '_' || c == '-'

/-- One part of a key, bare or in quotes. -/
def keyPart? (cs : List Char) : Option (String × List Char) :=
  match cs with
  | '"' :: rest => (lineString? '"' (rest.length + 1) rest).map fun (s, rest) => (String.ofList s, rest)
  | '\'' :: rest => (lineString? '\'' (rest.length + 1) rest).map fun (s, rest) => (String.ofList s, rest)
  | _ =>
    let name := cs.takeWhile isBare
    if name.isEmpty then none else some (String.ofList name, cs.drop name.length)

/-- A key of at most so many parts with points between them. The blanks behind it are skipped. -/
def keyWithin? : Nat → List Char → Option (List String × List Char)
  | 0, _ => none
  | most + 1, cs =>
    (keyPart? cs).bind fun (part, rest) =>
      match skipBlank rest with
      | '.' :: rest =>
        (keyWithin? most (skipBlank rest)).map fun (parts, rest) => (part :: parts, rest)
      | rest => some ([part], rest)

def key? (cs : List Char) : Option (List String × List Char) := keyWithin? maxDepth cs

/-- The text after a comment, up to the end of its line. -/
def skipComment? (cs : List Char) : Option (List Char) :=
  match cs with
  | '#' :: rest =>
    let rest := rest.dropWhile isPlain
    match rest with
    | [] => some []
    | '\n' :: _ => some rest
    | '\r' :: '\n' :: _ => some rest
    | _ => none
  | _ => some cs

/-- The text after blanks, comments and line ends. -/
def skipAll? : Nat → List Char → Option (List Char)
  | 0, _ => none
  | fuel + 1, cs =>
    match skipBlank cs with
    | '\n' :: rest => skipAll? fuel rest
    | '\r' :: '\n' :: rest => skipAll? fuel rest
    | '#' :: rest => (skipComment? ('#' :: rest)).bind (skipAll? fuel)
    | rest => some rest

/-- The text after the end of a line, where nothing but a comment may stand. -/
def endLine? (cs : List Char) : Option (List Char) :=
  (skipComment? (skipBlank cs)).bind fun
    | [] => some []
    | '\n' :: rest => some rest
    | '\r' :: '\n' :: rest => some rest
    | _ => none

/-- The characters of a scalar that is no string. A day may have a time after a blank. -/
def scalarText (cs : List Char) : List Char :=
  let isPart (c : Char) : Bool := isBare c || c == '+' || c == '.' || c == ':'
  let first := cs.takeWhile isPart
  match cs.drop first.length with
  | ' ' :: more =>
    if isDay first && more.head?.any Number.isDigit then first ++ ' ' :: more.takeWhile isPart
    else first
  | _ => first

mutual

/-- A value in which arrays and inline tables are nested at most `depth` deep. -/
def value? : Nat → Nat → List Char → Option (Json × List Char)
  | 0, _, _ => none
  | fuel + 1, depth, cs =>
    match cs, depth with
    | '"' :: _, _ | '\'' :: _, _ =>
      (string? cs).map fun (s, rest) => (.str (String.ofList s), rest)
    | '[' :: _, 0 | '\x7b' :: _, 0 => none
    | '[' :: rest, depth + 1 => (items? fuel depth rest).map fun (items, rest) => (.arr items, rest)
    | '\x7b' :: rest, depth + 1 =>
      match skipBlank rest with
      | '\x7d' :: rest => some (.obj [], rest)
      | rest =>
        (inline? fuel depth [] rest).map fun (members, rest) => (.object (membersJson members), rest)
    | _, _ =>
      let text := scalarText cs
      (scalar? text).map fun v => (v, cs.drop text.length)

/-- The items of an array up to its closing bracket; a comma may stand behind the last. -/
def items? : Nat → Nat → List Char → Option (List Json × List Char)
  | 0, _, _ => none
  | fuel + 1, depth, cs =>
    (skipAll? (cs.length + 1) cs).bind fun
      | ']' :: rest => some ([], rest)
      | cs =>
        (value? fuel depth cs).bind fun (v, rest) =>
          (skipAll? (rest.length + 1) rest).bind fun
            | ',' :: rest => (items? fuel depth rest).map fun (items, rest) => (v :: items, rest)
            | ']' :: rest => some ([v], rest)
            | _ => none

/-- The members of an inline table up to its closing brace, added to those before. -/
def inline? : Nat → Nat → Members → List Char → Option (Members × List Char)
  | 0, _, _, _ => none
  | fuel + 1, depth, members, cs =>
    (key? (skipBlank cs)).bind fun (keys, rest) =>
      match rest with
      | '=' :: rest =>
        (value? fuel depth (skipBlank rest)).bind fun (v, rest) =>
          (assign (keys.getLastD "") v keys.dropLast members).bind fun members =>
            match skipBlank rest with
            | ',' :: rest => inline? fuel depth members rest
            | '\x7d' :: rest => some (members, rest)
            | _ => none
      | _ => none

end

/-- A header after its opening brackets: its key, and the text after its closing ones. -/
def header? (closing : List Char) (cs : List Char) : Option (List String × List Char) :=
  (key? (skipBlank cs)).bind fun (keys, rest) =>
    ((Text.dropLead? closing rest).bind endLine?).map (keys, ·)

/-- The lines of a document. Values are set in the table of the last header. -/
def lines? : Nat → List String → Members → List Char → Option Members
  | 0, _, _, _ => none
  | fuel + 1, current, root, cs =>
    (skipAll? (cs.length + 1) cs).bind fun
      | [] => some root
      | '[' :: '[' :: rest =>
        (header? [']', ']'] rest).bind fun (keys, rest) =>
          (within (extend (keys.getLastD "")) keys.dropLast root).bind fun root =>
            lines? fuel keys root rest
      | '[' :: rest =>
        (header? [']'] rest).bind fun (keys, rest) =>
          (within (define (keys.getLastD "")) keys.dropLast root).bind fun root =>
            lines? fuel keys root rest
      | cs =>
        (key? cs).bind fun (keys, rest) =>
          match rest with
          | '=' :: rest =>
            (value? (2 * rest.length + 2) maxDepth (skipBlank rest)).bind fun (v, rest) =>
              (endLine? rest).bind fun rest =>
                (within (assign (keys.getLastD "") v keys.dropLast) current root).bind fun root =>
                  lines? fuel current root rest
          | _ => none

def read? (s : String) : Option Json :=
  let cs := (Text.dropLead? ['\uFEFF'] s.toList).getD s.toList
  (lines? (cs.length + 1) [] [] cs).map fun root => .object (membersJson root)

/-- The document that a text writes, or the fault of one that is no TOML. -/
def read (s : String) : Except Fault Json :=
  match read? s with
  | some v => .ok v
  | none => .error (.config "the document is no TOML")

end TableGateway.Toml
