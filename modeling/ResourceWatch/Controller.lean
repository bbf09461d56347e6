import ResourceWatch.Config
import ResourceWatch.Engine.Run
import ResourceWatch.Inputs.Document
import ResourceWatch.Kind.Catalog

/-!
# The controller

The controller reads the input set, finds the kinds, makes an engine and runs
its pipeline. What it tells before any kind is looked for is the input set that
it goes by, owner by owner.
-/

namespace ResourceWatch

inductive StartFault where
  /-- Something that it was given cannot be used. -/
  | refused (error : ControllerError)
  /-- No channel can hold so many changes. -/
  | channelTooLarge
deriving DecidableEq, Repr

structure Controller where
  /-- What it was made from. -/
  config : Config
  /-- What it runs. -/
  engine : Engine

def InputSet.announcement (set : InputSet) : List LogEvent :=
  set.declarations.flatMap fun d =>
    .declaredOwner d.owner :: d.selectors.map .declaredSelector

namespace Config

/-- The input set that the settings name, and what the log says of where it
comes from. -/
def inputSet (config : Config) (files : Files) : LogEvent × Except InputError InputSet :=
  match config.inputs with
  | some path => (.loadingInputs path, InputSet.ofFile files path)
  | none => (.builtinInputs, .ok .builtin)

/-- The resolver that the settings name, given what discovery comes to. -/
def resolverGiven (config : Config) (discovered : Except WatchError Catalog) :
    Except WatchError Resolver :=
  match config.resolver with
  | .discovery => discovered.map Catalog.resolve
  | .builtin => .ok KindTable.builtin.resolve

/-- What the settings say about the engine. -/
def engineOptions (config : Config) : EngineOptions where
  capacity := config.capacity
  limit := .ofSeconds config.syncSeconds
  backoff := config.backoff

end Config

namespace Controller

def ofInputSet (config : Config) (discovered : Except WatchError Catalog) (set : InputSet) :
    Except StartFault Controller :=
  match config.resolverGiven discovered with
  | .error e => .error (.refused (.watch e))
  | .ok resolve =>
    match Engine.make config.engineOptions resolve set with
    | .error (.refused e) => .error (.refused (.watch e))
    | .error .channelTooLarge => .error .channelTooLarge
    | .ok engine => .ok { config, engine }

/-- Make a controller. The first part is what it tells meanwhile about its input
set. -/
def make (config : Config) (files : Files) (discovered : Except WatchError Catalog) :
    List LogEvent × Except StartFault Controller :=
  match config.inputSet files with
  | (source, .error e) =>
    ([.controllerStarting, source], .error (.refused (.inputResources e)))
  | (source, .ok set) =>
    ([.controllerStarting, source] ++ set.announcement, ofInputSet config discovered set)

/-- Run a controller whose cluster never tells it anything, until its time limit
has passed. -/
def runUnanswered (c : Controller) : Option PipelineResult :=
  let (w, _) := c.engine.perform .run
  let (w, _) := w.perform (.pass c.engine.limit.millisUp)
  w.answers.head?.join.bind fun
    | .ran result => some result
    | _ => none

end Controller

end ResourceWatch
