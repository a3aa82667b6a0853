import ParamCheck.Command

/-!
# The program

Reads the files that the arguments name, and prints the outcome of the request that they make.
-/

namespace ParamCheck

/-- The files at a path: a file itself, and of a directory those that are part of a profile. -/
partial def filesAt (path : String) : IO (List (String × Option String)) := do
  let here := (← IO.currentDir) / path
  if ← here.isDir then
    let names := (← here.readDir).toList.map (·.fileName)
    let inside ← (names.filter Profile.isPart).mapM fun name => filesAt (path ++ "/" ++ name)
    return (path, none) :: inside.flatten
  else if ← here.pathExists then
    return [(path, some (← IO.FS.readFile here))]
  else return []

/-- What the program prints about arguments that make no request. -/
def usage : String :=
  "usage: [-v] profile check [--ignore-unknown] PATH\n" ++
  "       [-v] params validate [--ignore-unknown] [--report-unknown] PROFILE PARAMS [--] [FIELD...]"

end ParamCheck

open ParamCheck in
/-- Answer the arguments. -/
def main (arguments : List String) : IO UInt32 := do
  let files ← (arguments.filter (· ≠ "")).mapM filesAt
  let tree := FileTree.ofList files.flatten
  match Request.ofArguments? tree arguments with
  | none =>
    IO.eprintln usage
    return 2
  | some request =>
    let outcome := request.run .plain tree
    outcome.err.forM IO.eprintln
    outcome.out.forM IO.println
    if outcome.uncaught.isSome then
      IO.eprintln "A value does not suit the check or the filter that it was given to."
    return outcome.exit.toUInt32
