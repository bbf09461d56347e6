import ResourceWatch.CommandLine

/-!
# The program

Reads the environment and the file that it names. The program speaks to no
cluster, so discovery fails and a pipeline waits in vain.
-/

namespace ResourceWatch.CommandLine

def readFiles (lookup : Config.Lookup) : IO Files := do
  let some path := lookup "INPUT_RESOURCES_FILE" | return Files.empty
  try
    return Files.empty.withFile path (← IO.FS.readFile path)
  catch _ => return Files.empty

/-- Start the controller with the settings of the environment. The answer is the
exit code. -/
def start : IO UInt32 := do
  let given ← Config.names.mapM fun name => return (name, ← IO.getEnv name)
  let lookup : Config.Lookup := fun name => (given.lookup name).join
  let files ← readFiles lookup
  let (log, prepared) := prepare lookup files (.error .cluster)
  for e in log do
    IO.println e.line
  if let .ok controller := prepared then
    IO.sleep controller.engine.limit.millisUp.toUInt32
  let ending := run lookup files (.error .cluster)
  unless ending.complaint.isEmpty do
    IO.eprintln ending.complaint
  return ending.code.toUInt32

end ResourceWatch.CommandLine

def main : IO UInt32 := ResourceWatch.CommandLine.start
