import ResourceWatch.Collectors
import ResourceWatch.Controller
import ResourceWatch.Outline

/-!
# The command line

Started as a program the controller takes its settings, then its log level, then
registers its collectors, and only then looks at the input set. The first thing
that fails ends the program with an error.
-/

namespace ResourceWatch.CommandLine

structure Ending where
  /-- The exit code. -/
  code : Nat
  /-- What it prints at last. -/
  complaint : String
deriving DecidableEq, Repr

def failed (e : ControllerError) : Ending := ⟨1, "Error: " ++ e.outline⟩

/-- Ending because a part of the program cannot be built at all. -/
def broken : Ending := ⟨101, ""⟩

def finished : Ending := ⟨0, ""⟩

/-- Everything up to a controller that can run. The first part is what is logged
meanwhile, from the configured level on. -/
def prepare (lookup : Config.Lookup) (files : Files) (discovered : Except WatchError Catalog) :
    List LogEvent × Except Ending Controller :=
  match Config.read lookup with
  | .error fault => ([], .error (failed (.invalidConfig fault)))
  | .ok config =>
    match LogLevel.read config.level with
    | .error fault => ([], .error (failed (.invalidConfig fault)))
    | .ok level =>
      match (Registry.register {} controllerCollectors).2 with
      | .error e => ([], .error (failed e))
      | .ok () =>
        let (log, made) := Controller.make config files discovered
        let shown := log.filter fun e => level.severity ≤ e.level.severity
        match made with
        | .ok c => (shown, .ok c)
        | .error (.refused e) => (shown, .error (failed e))
        | .error .channelTooLarge => (shown, .error broken)

/-- How the program ends when the cluster answers nothing but what
`discovered` says. Nobody interrupts it, so it does not end well. -/
def run (lookup : Config.Lookup) (files : Files) (discovered : Except WatchError Catalog) :
    Ending :=
  match (prepare lookup files discovered).2 with
  | .error ending => ending
  | .ok c =>
    match c.runUnanswered with
    | some (.error e) => failed e
    | some (.ok ()) | none => finished

end ResourceWatch.CommandLine
