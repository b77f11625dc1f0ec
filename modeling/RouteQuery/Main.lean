import RouteQuery.CommandLine

/-! The program behind the command line. -/
open RouteQuery

def Command.source? : Command → Option String
  | .encode _ | .decode _ => none
  | .descriptors query | .schema _ query | .check _ query => some query

/-- The working directory with the file that a command names. What cannot be read as a file counts as
a directory with something in it. -/
def workspaceFor (command : Command) : IO Workspace := do
  let location := (← IO.currentDir).toString
  match Command.source? command with
  | none => return .ofFiles location []
  | some path =>
    try
      return .ofFiles location [(path, (← IO.FS.readBinFile path).toList)]
    catch
      | .noFileOrDirectory .. => return .ofFiles location []
      | _ => return .ofFiles location [(path ++ "/*", [])]

/-- What is said of options and regular expressions that cannot be read. -/
def wording : Wording where
  options target _ :=
    match target with
    | .staticFiles => "no options for static files"
    | .bodyParser => "no options for a body parser"
  pattern pattern := "no regular expression: " ++ pattern

def main (args : List String) : IO UInt32 := do
  match Command.parse? args with
  | none =>
    IO.eprintln "usage: encode TEXT | decode TEXT | descriptors QUERY | schema [-t TASK] QUERY | check [-t TASK] QUERY"
    return 2
  | some command =>
    match command.run (← workspaceFor command) with
    | .ok output =>
      IO.print output
      return 0
    | .error fault =>
      IO.eprint (Command.errorLine wording fault)
      return 1
