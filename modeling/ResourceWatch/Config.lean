import ResourceWatch.Backoff
import ResourceWatch.Log
import ResourceWatch.Text.Blank
import ResourceWatch.Text.Numeral

/-!
# Settings

The controller is set up by named texts, each with a default. A text that holds
nothing but blanks counts as not given. A number may have blanks around it; a
word may not, except for the log level. Words are compared without regard to the
case of ASCII letters.

Settings are read in one fixed order, and the first fault is the one reported.
-/

namespace ResourceWatch

inductive ResolverMode where
  /-- The cluster is asked what it serves. -/
  | discovery
  /-- From the table that is built in. -/
  | builtin
deriving DecidableEq, Repr, Inhabited

def ResolverMode.read (word : String) : Except ConfigFault ResolverMode :=
  match Text.lower word with
  | "discovery" => .ok .discovery
  | "static" => .ok .builtin
  | other => .error (.unknownResolver other)

inductive LogFormat where
  /-- One JSON object a line. -/
  | json
  /-- For people to read. -/
  | console
deriving DecidableEq, Repr, Inhabited

def LogFormat.read (word : String) : Except ConfigFault LogFormat :=
  match Text.lower word with
  | "json" => .ok .json
  | "console" => .ok .console
  | other => .error (.unknownFormat other)

namespace LogLevel

/-- The level that a number stands for: the smaller the number the more is
told, from -9 up to 5. -/
def ofInt? (n : Int) : Option LogLevel :=
  if n < -9 ∨ 5 < n then none
  else if n ≤ -2 then some .trace
  else if n = -1 then some .debug
  else if n = 0 then some .info
  else if n = 1 then some .warn
  else some .error

def ofWord? : String → Option LogLevel
  | "trace" => some .trace
  | "debug" => some .debug
  | "info" => some .info
  | "warn" | "warning" => some .warn
  | "error" | "dpanic" | "panic" | "fatal" => some .error
  | _ => none

/-- The largest number that a level is looked for under. What is out of this
range is taken for a word. -/
def numberRange : Nat := 127

def read (text : String) : Except ConfigFault LogLevel :=
  let text := Text.trim text
  match Text.readInt? numberRange text with
  | some n =>
    match ofInt? n with
    | some level => .ok level
    | none => .error (.levelOutOfRange n)
  | none =>
    match ofWord? (Text.lower text) with
    | some level => .ok level
    | none => .error (.unknownLevel (Text.lower text))

end LogLevel

structure Config where
  /-- Where the input set is read from; the one built in if nowhere. -/
  inputs : Option String := none
  /-- How kinds are found. -/
  resolver : ResolverMode := .discovery
  /-- How many changes the event channel holds. -/
  capacity : Nat := 1024
  /-- How long startup waits for the first lists, in seconds. -/
  syncSeconds : Nat := 120
  /-- The text of the log level. -/
  level : String := "info"
  /-- How lines of the log are written. -/
  format : LogFormat := .json
  /-- The port that the probes are answered on; they are not if there is none. -/
  port : Option Nat := some 8080
  /-- The bounds of retry delays. -/
  backoff : Backoff := ⟨1, 60⟩
deriving DecidableEq, Repr, Inhabited

namespace Config

/-- The texts that settings are read from, by name. -/
abbrev Lookup := String → Option String

def names : List String :=
  ["INPUT_RESOURCES_FILE", "KIND_RESOLVER", "EVENT_CHANNEL_CAPACITY", "CACHE_SYNC_TIMEOUT_SECS",
    "LOG_LEVEL", "LOG_FORMAT", "METRICS_PORT", "BACKOFF_MIN_SECS", "BACKOFF_MAX_SECS"]

def text? (lookup : Lookup) (name : String) : Option String :=
  (lookup name).filter fun v => !Text.isAllBlank v

/-- A setting that is a number no larger than `max`. -/
def number (lookup : Lookup) (name : String) (max default : Nat) : Except ConfigFault Nat :=
  match text? lookup name with
  | none => .ok default
  | some v =>
    match Text.readNat? max (Text.trim v) with
    | some n => .ok n
    | none => .error (.notANumber name v)

def word {α : Type} (lookup : Lookup) (name : String) (read : String → Except ConfigFault α)
    (default : α) : Except ConfigFault α :=
  match text? lookup name with
  | none => .ok default
  | some v => read v

/-- The largest number that has room in so many bits. -/
def maxOfBits (bits : Nat) : Nat := Nat.pow 2 bits - 1

def read (lookup : Lookup) : Except ConfigFault Config := do
  let base : Config := {}
  let capacity ← number lookup "EVENT_CHANNEL_CAPACITY" (maxOfBits 64) base.capacity
  if capacity = 0 then throw .zeroCapacity
  let syncSeconds ← number lookup "CACHE_SYNC_TIMEOUT_SECS" (maxOfBits 64) base.syncSeconds
  let port ← number lookup "METRICS_PORT" (maxOfBits 16) (base.port.getD 0)
  let least ← number lookup "BACKOFF_MIN_SECS" (maxOfBits 64) base.backoff.least
  let most ← number lookup "BACKOFF_MAX_SECS" (maxOfBits 64) base.backoff.most
  if least = 0 ∨ most < least then throw (.backoffBounds least most)
  let resolver ← word lookup "KIND_RESOLVER" ResolverMode.read base.resolver
  let format ← word lookup "LOG_FORMAT" LogFormat.read base.format
  return {
    inputs := text? lookup "INPUT_RESOURCES_FILE"
    resolver, capacity, syncSeconds, format
    level := (text? lookup "LOG_LEVEL").getD base.level
    port := if port = 0 then none else some port
    backoff := ⟨least, most⟩ }

end Config

end ResourceWatch
