import PathWitness.CommandLine

/-!
# Main

The command with the files and the streams of the system.
-/

namespace PathWitness

/-- Why a file cannot be used, in words. -/
def fileError (name : String) (e : IO.Error) : String :=
  let (verb, reason) := match e with
    | .noFileOrDirectory .. => ("open ", "no such file or directory")
    | .permissionDenied .. => ("open ", "permission denied")
    | .inappropriateType _ _ "Is a directory" => ("read ", "is a directory")
    | .inappropriateType .. => ("open ", "not a directory")
    | e => ("open ", toString e)
  verb ++ name ++ ": " ++ reason

/-- The result of a computation that may fail on a file. -/
def guarded {α : Type} (name : String) (io : IO α) : IO (Except String α) := do
  try
    return .ok (← io)
  catch e => return .error (fileError name e)

/-- The console of the system. -/
def systemConsole : Console IO where
  read name := guarded name (IO.FS.readFile name)
  write name text := guarded name (IO.FS.writeFile name text)
  print text := do (← IO.getStdout).putStr text
  log line := do (← IO.getStderr).putStrLn line

end PathWitness

/-- Runs the command on the arguments of the process. -/
def main (args : List String) : IO UInt32 :=
  PathWitness.Command.run PathWitness.systemConsole args
