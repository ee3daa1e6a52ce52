import TableGateway.Http.Handler
import TableGateway.Recorder
import TableGateway.Schema.Cache
import TableGateway.Toml.File

/-!
# The command line

Answers requests from the standard input over a schema file, without a database: statements are
written to the standard error and have no rows. A request is a line with a method, a target and
perhaps a document.

In the service, the files are read by `PgRestConfig.load` and `FileSchemaLoader.load`.
-/
namespace TableGateway.Main

/-- The files to work with. -/
structure Options where
  config : String := "gateway.toml"
  schema : String := "schema.toml"
  deriving Repr

def usage : String := "usage: tablegateway [--config FILE] [--schema FILE]"

def Options.parse? (o : Options) : List String → Option Options
  | [] => some o
  | flag :: file :: rest =>
    if flag = "-c" || flag = "--config" then Options.parse? { o with config := file } rest
    else if flag = "-s" || flag = "--schema" then Options.parse? { o with schema := file } rest
    else none
  | [_] => none

/-- The settings in the text of a file; without a file they are the defaults. -/
def configOf : Option String → Except Fault Config
  | some text => Toml.config text
  | none => .ok {}

/-- The snapshot in the text of a file, which must be there. -/
def schemaOf : Option String → Except Fault Snapshot
  | some text => Toml.snapshot text
  | none => .error (.io "the schema file cannot be read")

def requestOf? (line : String) : Option Http.Request := do
  let cs := Text.trim line.toList
  let (method, rest) ← Text.cut? ' ' cs
  let (target, body) := (Text.cut? ' ' (Text.trimStart rest)).getD (rest, [])
  return {
    method := String.ofList method, target := String.ofList target
    contentType := if body.isEmpty then none else some "application/json"
    body := String.ofList body }

def textOf? (file : String) : IO (Option String) := do
  try return some (← IO.FS.readFile file)
  catch _ => return none

partial def serve (g : Gateway Cache Recorder) (s : Session Cache Recorder) : IO Unit := do
  let line ← (← IO.getStdin).getLine
  if line.isEmpty then return
  match requestOf? line with
  | none => serve g s
  | some request =>
    let (response, s) := (Http.handle g request).run s
    for e in s.database.log do IO.eprintln (describe e.sql e.params)
    IO.println (toString response.status ++ (response.body.map fun v => " " ++ v.text).getD "")
    serve g { s with database := s.database.clear, sent := [] }

end TableGateway.Main

open TableGateway in
def main (args : List String) : IO UInt32 := do
  match Main.Options.parse? {} args with
  | none => IO.eprintln Main.usage; return 2
  | some options =>
    match Main.configOf (← Main.textOf? options.config) with
    | .error f => IO.eprintln f.message; return 1
    | .ok config =>
      let loader := Loader.ofList [Main.schemaOf (← Main.textOf? options.schema)]
      let lifetime := Lifetime.ofSeconds config.database.schemaTtlSecs
      Main.serve { config, source := Cache.source loader lifetime, db := Recorder.database }
        { schema := {}, database := {} }
      return 0
