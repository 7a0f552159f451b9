/-
# The command line program

Runs the command on the files of the machine. What is reported and what is wrong
with the arguments goes to the standard error.

Key definitions: `machineFiles`, `main`.
-/
import ShadeNet.Command.Run

namespace ShadeNet

/-- Whether an action ends without an error. -/
def goesWell (action : IO Unit) : IO Bool := do
  try
    action
    return true
  catch _ => return false

/-- The files of the machine. -/
def machineFiles : FileSystem IO where
  read? path := do
    try
      return some (← IO.FS.readFile path)
    catch _ => return none
  entries paths := do
    let found ← paths.filterM fun path : String => goesWell (discard (IO.FS.realPath path))
    return found.contains
  write path text := goesWell (IO.FS.writeFile path text)

end ShadeNet

/-- Runs the command and gives its exit code. -/
def main (arguments : List String) : IO UInt32 := do
  let outcome ← ShadeNet.machineFiles.runCommand arguments
  for line in outcome.log do
    IO.eprintln (line.level.name ++ " " ++ line.message)
  if let .refused cause := outcome.result then IO.eprintln cause.message
  return outcome.result.exitCode.toUInt32
