import ResourceWatch.CommandLine
import ResourceWatch.Proofs.Backoff
import ResourceWatch.Proofs.Engine.Making
import ResourceWatch.Proofs.Settings

/-!
# What is started with accepted settings

Settings that are accepted bound the numbers that startup goes by. The channel is to hold a
change, times have room in whole seconds, and the bounds of the retry delays are in order. So
nothing is cut to size later on: an engine that is made has the channel, the time limit and the
delays that the settings ask for, and every delay is exact.

Only the size of the channel is not bounded far enough. It may be any number of 64 bits, and a
channel holds fewer changes than that. With a larger size no engine can be made, and the program
breaks off, although the settings were accepted.
-/

namespace ResourceWatch

open Nat (fib)

theorem Duration.seconds_ofSeconds (n : Nat) : (Duration.ofSeconds n).seconds = n :=
  Nat.mul_div_cancel n (by decide)

namespace Config

variable {lookup : Lookup} {name : String} {config : Config}

/-- A number that a setting comes to has the room that its default has. -/
theorem Setting.lt {bits default n : Nat} (set : Setting lookup name (IsNumber bits) default n)
    (room : default < Nat.pow 2 bits) : n < Nat.pow 2 bits := by
  obtain ⟨-, -, room⟩ | - := set
  · exact room
  · exact room

/-- What is known of the numbers in settings that were accepted. -/
structure Bounded (config : Config) : Prop where
  capacity : 1 ≤ config.capacity
  syncSeconds : config.syncSeconds ≤ maxSeconds
  least : 1 ≤ config.backoff.least
  ordered : config.backoff.least ≤ config.backoff.most
  most : config.backoff.most ≤ maxSeconds

theorem bounded_of_read (accepted : read lookup = .ok config) : config.Bounded := by
  have set := read_eq_ok_iff.1 accepted
  have seconds : maxSeconds = Nat.pow 2 64 - 1 := rfl
  have sync := set.syncSeconds.lt (by decide)
  have most := set.most.lt (by decide)
  exact {
    capacity := Nat.pos_of_ne_zero set.holds
    syncSeconds := by omega
    least := set.bounds.1
    ordered := set.bounds.2
    most := by omega }

def delays (config : Config) : Backoff :=
  .ofDurations (.ofSeconds config.backoff.least) (.ofSeconds config.backoff.most)

/-- No first delay is raised to a second, and no cap to the first delay. -/
theorem Bounded.delays_eq (bounded : config.Bounded) : config.delays = config.backoff := by
  have least : Nat.max 1 config.backoff.least = config.backoff.least :=
    Nat.max_eq_right bounded.least
  have most : Nat.max config.backoff.least config.backoff.most = config.backoff.most :=
    Nat.max_eq_right bounded.ordered
  simp only [delays, Backoff.ofDurations, Duration.seconds_ofSeconds, least, most]

/-- Every delay is a multiple of a Fibonacci number, or the cap, and within its bounds. -/
theorem Bounded.delay_fib (bounded : config.Bounded) (failures : Nat) :
    config.delays.delay failures =
        .ofSeconds (min (config.backoff.least * fib (max 1 failures)) config.backoff.most) ∧
      config.backoff.least ≤ (config.delays.delay failures).seconds ∧
      (config.delays.delay failures).seconds ≤ config.backoff.most := by
  have pos : 0 < fib (max 1 failures) := Nat.fib_pos.2 (by omega)
  have exact : config.backoff.delaySeconds failures =
      min (config.backoff.least * fib (max 1 failures)) config.backoff.most :=
    Backoff.delaySeconds_fib bounded.ordered bounded.most failures
  rw [bounded.delays_eq, Backoff.seconds_delay, Backoff.delay, exact]
  exact ⟨rfl, Nat.le_min.2 ⟨Nat.le_mul_of_pos_right _ pos, bounded.ordered⟩,
    Nat.min_le_right _ _⟩

end Config

/-! ## The program as a whole -/

theorem Engine.makeOn_eq_channelTooLarge {provider : Provider} {options : EngineOptions}
    {resolve : Resolver} {set : InputSet}
    (large : (makeOn provider options resolve set).2 = .error .channelTooLarge) :
    Channel.maxCapacity < options.capacity := by
  by_contra small
  obtain usable | ⟨e, refused⟩ := usable_or_refused resolve set
  · obtain ⟨plan, -, -, made⟩ := makeOn_of_fits provider usable (Nat.not_lt.1 small)
    rw [made] at large
    cases large
  · rw [makeOn_of_refused provider options refused] at large
    cases large

namespace Controller

variable {config : Config} {files : Files} {discovered : Except WatchError Catalog}
  {set : InputSet}

theorem ofInputSet_eq_channelTooLarge
    (large : ofInputSet config discovered set = .error .channelTooLarge) :
    Channel.maxCapacity < config.capacity := by
  rw [ofInputSet] at large
  split at large
  · cases large
  · split at large
    · cases large
    next made => exact Engine.makeOn_eq_channelTooLarge made
    · cases large

theorem make_eq_channelTooLarge
    (large : (make config files discovered).2 = .error .channelTooLarge) :
    Channel.maxCapacity < config.capacity := by
  rw [make] at large
  split at large
  · cases large
  · exact ofInputSet_eq_channelTooLarge large

end Controller

namespace CommandLine

variable {lookup : Config.Lookup} {config : Config} {files : Files}
  {discovered : Except WatchError Catalog}

theorem failed_ne_broken (e : ControllerError) : failed e ≠ broken := by
  intro same
  cases congrArg Ending.code same

theorem finished_ne_broken : finished ≠ broken := by decide

theorem prepare_eq_broken (accepted : Config.read lookup = .ok config)
    (breaks : (prepare lookup files discovered).2 = .error broken) :
    Channel.maxCapacity < config.capacity := by
  simp only [prepare, accepted] at breaks
  split at breaks
  · exact absurd (Except.error.inj breaks) (failed_ne_broken _)
  split at breaks
  · exact absurd (Except.error.inj breaks) (failed_ne_broken _)
  split at breaks
  · cases breaks
  · exact absurd (Except.error.inj breaks) (failed_ne_broken _)
  next large => exact Controller.make_eq_channelTooLarge large

/-- The size of the channel is all that makes the program break off. -/
theorem run_eq_broken (accepted : Config.read lookup = .ok config)
    (breaks : run lookup files discovered = broken) : Channel.maxCapacity < config.capacity := by
  rw [run] at breaks
  split at breaks
  next prepared => exact prepare_eq_broken accepted (breaks ▸ prepared)
  · split at breaks
    · exact absurd breaks (failed_ne_broken _)
    · exact absurd breaks finished_ne_broken
    · exact absurd breaks finished_ne_broken

end CommandLine

namespace Engine

variable {lookup : Config.Lookup} {config : Config} {resolve : Resolver} {set : InputSet}

/-- With settings that were accepted and an input set that can be used, an engine is made
exactly if a channel can hold as many changes as the settings ask for; that none can is all that
can be the matter, and all that makes the program break off, whatever its input set and its
cluster. An engine that is made has the channel, the time limit and the retry delays of the
settings as they are. All numbers have room, and the delay after any number of failures is exact
and within its bounds. -/
theorem made_iff_of_accepted (accepted : Config.read lookup = .ok config)
    (usable : set.Usable resolve) (provider : Provider) :
    config.Bounded ∧
    ((∃ w, (makeOn provider config.engineOptions resolve set).2 = .ok w) ↔
      config.capacity ≤ Channel.maxCapacity) ∧
    ((makeOn provider config.engineOptions resolve set).2 = .error .channelTooLarge ↔
      Channel.maxCapacity < config.capacity) ∧
    (∀ files discovered, CommandLine.run lookup files discovered = CommandLine.broken →
      Channel.maxCapacity < config.capacity) ∧
    (∀ w, (makeOn provider config.engineOptions resolve set).2 = .ok w →
      w.channel = { capacity := config.capacity } ∧ w.limit = .ofSeconds config.syncSeconds ∧
        w.shop.ledger = { backoff := config.delays }) ∧
    ∀ failures, config.delays.delay failures =
        .ofSeconds (min (config.backoff.least * fib (max 1 failures)) config.backoff.most) ∧
      config.backoff.least ≤ (config.delays.delay failures).seconds ∧
      (config.delays.delay failures).seconds ≤ config.backoff.most := by
  have bounded := Config.bounded_of_read accepted
  have size : config.engineOptions.capacity = config.capacity := rfl
  refine ⟨bounded, ?_⟩
  rcases Nat.lt_or_ge Channel.maxCapacity config.capacity with large | fits
  · rw [makeOn_of_large provider usable (size ▸ large)]
    refine ⟨iff_of_false ?_ (Nat.not_le.2 large), iff_of_true rfl large,
      fun _ _ => CommandLine.run_eq_broken accepted, ?_, bounded.delay_fib⟩
    · rintro ⟨w, same⟩
      cases same
    · intro w same
      cases same
  · obtain ⟨plan, -, -, made⟩ := makeOn_of_fits provider usable (size ▸ fits)
    rw [made]
    refine ⟨iff_of_true ⟨_, rfl⟩ fits, iff_of_false ?_ (Nat.not_lt.2 fits),
      fun _ _ => CommandLine.run_eq_broken accepted, ?_, bounded.delay_fib⟩
    · intro same
      cases same
    · intro w same
      cases same
      refine ⟨?_, rfl, ?_⟩
      · exact congrArg (fun n => ({ capacity := n } : Channel)) (Nat.max_eq_right bounded.capacity)
      · rw [bounded.delays_eq]
        rfl

/-- Settings with the largest channel that there is and the longest times. -/
def widest : Config.Lookup
  | "KIND_RESOLVER" => some "static"
  | "EVENT_CHANNEL_CAPACITY" => some "2305843009213693951"
  | "CACHE_SYNC_TIMEOUT_SECS" | "BACKOFF_MAX_SECS" => some "18446744073709551615"
  | _ => none

theorem made_iff_of_widest :
    ∃ config, Config.read widest = .ok config ∧ InputSet.builtin.Usable KindTable.builtin.resolve ∧
      config.engineOptions.limit = .ofSeconds maxSeconds ∧
      (∃ w, (makeOn {} config.engineOptions KindTable.builtin.resolve .builtin).2 = .ok w ∧
        w.channel = { capacity := Channel.maxCapacity } ∧
        w.shop.ledger = { backoff := ⟨1, maxSeconds⟩ }) ∧
      ∀ failures, 94 ≤ failures → config.delays.delay failures = .ofSeconds maxSeconds := by
  have accepted : Config.read widest = .ok {
      capacity := Channel.maxCapacity, resolver := .builtin, syncSeconds := maxSeconds,
      backoff := ⟨1, maxSeconds⟩ } := by decide +kernel
  have usable : InputSet.builtin.Usable KindTable.builtin.resolve := by decide +kernel
  obtain ⟨bounded, made, -, -, good, delays⟩ := made_iff_of_accepted accepted usable {}
  obtain ⟨w, same⟩ := made.2 (Nat.le_refl _)
  obtain ⟨channel, -, ledger⟩ := good w same
  refine ⟨_, accepted, usable, rfl, ⟨w, same, channel, ?_⟩, ?_⟩
  · rw [ledger, bounded.delays_eq]
  · intro failures many
    have last : maxSeconds ≤ fib 94 := by decide +kernel
    have full : maxSeconds ≤ 1 * fib (max 1 failures) := by
      rw [Nat.one_mul]
      exact last.trans (Nat.fib_mono (by omega))
    exact (delays failures).1.trans (congrArg Duration.ofSeconds (Nat.min_eq_right full))

/-- Settings with a channel that is larger by one change than any there is. -/
def vast : Config.Lookup
  | "KIND_RESOLVER" => some "static"
  | "EVENT_CHANNEL_CAPACITY" => some "2305843009213693952"
  | _ => none

/-- They are accepted, and the program breaks off although its input set can be used. -/
theorem breaks_off_of_vast :
    ∃ config, Config.read vast = .ok config ∧ InputSet.builtin.Usable KindTable.builtin.resolve ∧
      (makeOn {} config.engineOptions KindTable.builtin.resolve .builtin).2 =
        .error .channelTooLarge ∧
      CommandLine.run vast Files.empty (.error .cluster) = CommandLine.broken := by
  have accepted : Config.read vast = .ok {
      capacity := 2305843009213693952, resolver := .builtin } := by decide +kernel
  have usable : InputSet.builtin.Usable KindTable.builtin.resolve := by decide +kernel
  have large : Channel.maxCapacity < 2305843009213693952 := by decide
  exact ⟨_, accepted, usable, congrArg Prod.snd (makeOn_of_large {} usable large),
    by decide +kernel⟩

end Engine

end ResourceWatch
