import ResourceWatch.CommandLine
import ResourceWatch.Proofs.Text.Numeral

/-!
# Which settings are accepted

A setting comes to its default if no text is given for it or the text is all blank, and
otherwise to what the text stands for: a number that there is room for, one of two words in
letters of any case, or the text itself. Settings are accepted if every text that is given
stands for something, the channel is to hold a change, and the bounds of the retry delays,
defaults included, are in order. Then every setting is what it comes to.

All other settings are refused, and the fault that is reported is there: it names a setting
and what is wrong with it.
-/

namespace ResourceWatch

def ResolverMode.word : ResolverMode → String
  | .discovery => "discovery"
  | .builtin => "static"

def LogFormat.word : LogFormat → String
  | .json => "json"
  | .console => "console"

namespace Config

variable {lookup : Lookup} {name text : String} {α β : Type} {means : String → α → Prop}
  {default x : α} {max n : Nat} {fault : ConfigFault}

/-- A text is given for a setting if it holds more than blanks. -/
def Gives (lookup : Lookup) (name text : String) : Prop :=
  lookup name = some text ∧ ∃ c ∈ text.toList, Text.isBlank c = false

/-- What a setting comes to: what the text stands for that is given for it, or a default if
none is. -/
inductive Setting (lookup : Lookup) (name : String) (means : String → α → Prop) (default : α) :
    α → Prop where
  | given {text : String} {x : α} (gives : Gives lookup name text) (stands : means text x) :
      Setting lookup name means default x
  | unset (none : ∀ text, ¬ Gives lookup name text) : Setting lookup name means default default

/-- A text stands for a number of so many bits. -/
def IsNumber (bits : Nat) (text : String) (n : Nat) : Prop :=
  Text.IsNumeral text n ∧ n < Nat.pow 2 bits

/-- What every setting comes to, if all of them are accepted. -/
structure SetBy (lookup : Lookup) (config : Config) : Prop where
  inputs : Setting lookup "INPUT_RESOURCES_FILE" (fun text path => path = some text) none
    config.inputs
  resolver : Setting lookup "KIND_RESOLVER" (fun text mode => text.toLower = mode.word) .discovery
    config.resolver
  capacity : Setting lookup "EVENT_CHANNEL_CAPACITY" (IsNumber 64) 1024 config.capacity
  /-- The channel is to hold a change. -/
  holds : config.capacity ≠ 0
  syncSeconds : Setting lookup "CACHE_SYNC_TIMEOUT_SECS" (IsNumber 64) 120 config.syncSeconds
  level : Setting lookup "LOG_LEVEL" (fun text level => level = text) "info" config.level
  format : Setting lookup "LOG_FORMAT" (fun text format => text.toLower = format.word) .json
    config.format
  /-- Zero stands for no port. -/
  port : Setting lookup "METRICS_PORT"
    (fun text port => ∃ n, IsNumber 16 text n ∧ port = if n = 0 then none else some n) (some 8080)
    config.port
  least : Setting lookup "BACKOFF_MIN_SECS" (IsNumber 64) 1 config.backoff.least
  most : Setting lookup "BACKOFF_MAX_SECS" (IsNumber 64) 60 config.backoff.most
  /-- The bounds of the retry delays are in order. -/
  bounds : 0 < config.backoff.least ∧ config.backoff.least ≤ config.backoff.most

/-- The settings that are numbers, with their bits. -/
def numbers : List (String × Nat) :=
  [("EVENT_CHANNEL_CAPACITY", 64), ("CACHE_SYNC_TIMEOUT_SECS", 64), ("METRICS_PORT", 16),
    ("BACKOFF_MIN_SECS", 64), ("BACKOFF_MAX_SECS", 64)]

/-- What the texts of the settings have to be like, for all of them to be accepted. -/
structure Acceptable (lookup : Lookup) : Prop where
  /-- A number is one that there is room for. -/
  number : ∀ setting ∈ numbers, ∀ text, Gives lookup setting.1 text →
    ∃ n, IsNumber setting.2 text n
  /-- A word is one of two. -/
  resolver : ∀ text, Gives lookup "KIND_RESOLVER" text →
    ∃ mode : ResolverMode, text.toLower = mode.word
  format : ∀ text, Gives lookup "LOG_FORMAT" text → ∃ format : LogFormat, text.toLower = format.word
  /-- The channel is to hold a change. -/
  holds : ¬ Setting lookup "EVENT_CHANNEL_CAPACITY" (IsNumber 64) 1024 0
  /-- The bounds of the retry delays are in order, also if one is given and one is not. -/
  bounds : ∀ least most, Setting lookup "BACKOFF_MIN_SECS" (IsNumber 64) 1 least →
    Setting lookup "BACKOFF_MAX_SECS" (IsNumber 64) 60 most → 0 < least ∧ least ≤ most

/-- What a fault of the settings says is so. -/
def Blames (lookup : Lookup) : ConfigFault → Prop
  | .notANumber name text =>
    Gives lookup name text ∧ ∃ bits, (name, bits) ∈ numbers ∧ ¬ ∃ n, IsNumber bits text n
  | .zeroCapacity => Setting lookup "EVENT_CHANNEL_CAPACITY" (IsNumber 64) 1024 0
  | .backoffBounds least most =>
    Setting lookup "BACKOFF_MIN_SECS" (IsNumber 64) 1 least ∧
      Setting lookup "BACKOFF_MAX_SECS" (IsNumber 64) 60 most ∧ (least = 0 ∨ most < least)
  | .unknownResolver word =>
    ∃ text, Gives lookup "KIND_RESOLVER" text ∧ word = text.toLower ∧
      ¬ ∃ mode : ResolverMode, word = mode.word
  | .unknownFormat word =>
    ∃ text, Gives lookup "LOG_FORMAT" text ∧ word = text.toLower ∧
      ¬ ∃ format : LogFormat, word = format.word
  | .levelOutOfRange _ | .unknownLevel _ | .injected => False

/-! ## One setting -/

theorem text?_eq_some_iff : text? lookup name = some text ↔ Gives lookup name text := by
  rw [text?, Option.filter_eq_some_iff, Gives, Bool.not_eq_true', ← Bool.not_eq_true,
    Text.isAllBlank_iff]
  simp

/-- A setting comes to its default without a text, and to what its text stands for with
one. -/
theorem setting_iff : Setting lookup name means default x ↔
    (text? lookup name = none ∧ x = default) ∨
      ∃ text, text? lookup name = some text ∧ means text x := by
  constructor
  · rintro (⟨gives, stands⟩ | none)
    · exact .inr ⟨_, text?_eq_some_iff.2 gives, stands⟩
    · exact .inl ⟨Option.eq_none_iff_forall_ne_some.2 fun text h =>
        none text (text?_eq_some_iff.1 h), rfl⟩
  · rintro (⟨none, rfl⟩ | ⟨text, given, stands⟩)
    · refine .unset fun text gives => ?_
      rw [text?_eq_some_iff.2 gives] at none
      cases none
    · exact .given (text?_eq_some_iff.1 given) stands

/-- What a setting comes to by way of something else. -/
theorem Setting.through (default : α) (g : α → β) {y : β} :
    Setting lookup name (fun text y => ∃ x, means text x ∧ y = g x) (g default) y ↔
      ∃ x, Setting lookup name means default x ∧ y = g x := by
  constructor
  · rintro (⟨gives, x, stands, rfl⟩ | none)
    · exact ⟨x, .given gives stands, rfl⟩
    · exact ⟨default, .unset none, rfl⟩
  · rintro ⟨x, ⟨gives, stands⟩ | none, rfl⟩
    · exact .given gives ⟨x, stands, rfl⟩
    · exact .unset none

/-- A text that is given stands for what its setting comes to. -/
theorem Setting.of_gives (set : Setting lookup name means default x)
    (gives : Gives lookup name text) : means text x := by
  obtain ⟨given, stands⟩ | none := set
  · cases Option.some.inj (given.1.symm.trans gives.1)
    exact stands
  · exact absurd gives (none text)

/-- A setting comes to one thing, if no text stands for two. -/
theorem Setting.unique {y : α} (one : ∀ text x y, means text x → means text y → x = y)
    (first : Setting lookup name means default x) (second : Setting lookup name means default y) :
    x = y := by
  obtain ⟨gives, stands⟩ | none := first
  · exact one _ _ _ stands (second.of_gives gives)
  · obtain ⟨gives, -⟩ | - := second
    · exact absurd gives (none _)
    · rfl

theorem IsNumber.unique {bits : Nat} (text : String) (n m : Nat) (first : IsNumber bits text n)
    (second : IsNumber bits text m) : n = m :=
  Text.IsNumeral.unique first.1 second.1

theorem le_maxOfBits_iff {bits : Nat} : n ≤ maxOfBits bits ↔ n < Nat.pow 2 bits := by
  have pos : 0 < Nat.pow 2 bits := Nat.two_pow_pos bits
  rw [maxOfBits]
  omega

theorem number_eq_ok_iff {bits default : Nat} :
    number lookup name (maxOfBits bits) default = .ok n ↔
      Setting lookup name (IsNumber bits) default n := by
  simp only [setting_iff, IsNumber, ← le_maxOfBits_iff, ← Text.readNat?_trim_eq_some_iff]
  rw [number]
  cases text? lookup name with
  | none => simp [eq_comm]
  | some text => cases read : Text.readNat? (maxOfBits bits) (Text.trim text) <;> simp [read]

theorem blames_of_number {bits default : Nat} (numeric : (name, bits) ∈ numbers)
    (refused : number lookup name (maxOfBits bits) default = .error fault) :
    Blames lookup fault := by
  rw [number] at refused
  split at refused
  · cases refused
  · rename_i text given
    split at refused
    · cases refused
    · rename_i unread
      cases refused
      refine ⟨text?_eq_some_iff.1 given, bits, numeric, ?_⟩
      rintro ⟨n, numeral, room⟩
      rw [Text.readNat?_trim_eq_some_iff.2 ⟨numeral, le_maxOfBits_iff.2 room⟩] at unread
      cases unread

theorem word_eq_ok_iff {read : String → Except ConfigFault α}
    (reads : ∀ text x, read text = .ok x ↔ means text x) :
    word lookup name read default = .ok x ↔ Setting lookup name means default x := by
  rw [setting_iff, word]
  cases text? lookup name with
  | none => simp [eq_comm]
  | some text => simp [reads]

theorem exists_of_word {read : String → Except ConfigFault α}
    (refused : word lookup name read default = .error fault) :
    ∃ text, Gives lookup name text ∧ read text = .error fault := by
  rw [word] at refused
  split at refused
  · cases refused
  · rename_i text given
    exact ⟨text, text?_eq_some_iff.1 given, refused⟩

theorem setting_path_iff {path : Option String} :
    Setting lookup name (fun text path => path = some text) none path ↔
      path = text? lookup name := by
  rw [setting_iff]
  cases text? lookup name <;> simp

/-- A level is the text that is given, whatever it says. -/
theorem setting_text_iff {default x : String} :
    Setting lookup name (fun text level => level = text) default x ↔
      x = (text? lookup name).getD default := by
  rw [setting_iff]
  cases text? lookup name <;> simp [eq_comm]

theorem readResolver_eq_ok_iff (text : String) (mode : ResolverMode) :
    ResolverMode.read text = .ok mode ↔ text.toLower = mode.word := by
  rw [ResolverMode.read, Text.lower_eq_toLower]
  split
  · cases mode <;> simp_all [ResolverMode.word]
  · cases mode <;> simp_all [ResolverMode.word]
  · cases mode <;> simp_all [ResolverMode.word]

theorem readFormat_eq_ok_iff (text : String) (format : LogFormat) :
    LogFormat.read text = .ok format ↔ text.toLower = format.word := by
  rw [LogFormat.read, Text.lower_eq_toLower]
  split
  · cases format <;> simp_all [LogFormat.word]
  · cases format <;> simp_all [LogFormat.word]
  · cases format <;> simp_all [LogFormat.word]

theorem unknown_of_readResolver (refused : ResolverMode.read text = .error fault) :
    fault = .unknownResolver text.toLower ∧ ¬ ∃ mode : ResolverMode, text.toLower = mode.word := by
  constructor
  · rw [ResolverMode.read, Text.lower_eq_toLower] at refused
    split at refused <;> cases refused
    rfl
  · rintro ⟨mode, word⟩
    rw [(readResolver_eq_ok_iff text mode).2 word] at refused
    cases refused

theorem unknown_of_readFormat (refused : LogFormat.read text = .error fault) :
    fault = .unknownFormat text.toLower ∧ ¬ ∃ format : LogFormat, text.toLower = format.word := by
  constructor
  · rw [LogFormat.read, Text.lower_eq_toLower] at refused
    split at refused <;> cases refused
    rfl
  · rintro ⟨format, word⟩
    rw [(readFormat_eq_ok_iff text format).2 word] at refused
    cases refused

/-! ## All settings -/

theorem bind_eq_ok_iff {m : Except ConfigFault α} {f : α → Except ConfigFault β} {y : β} :
    m >>= f = .ok y ↔ ∃ x, m = .ok x ∧ f x = .ok y := by
  cases m with
  | error fault => simp [bind, Except.bind]
  | ok x => simp [bind, Except.bind]

theorem bind_eq_error_iff {m : Except ConfigFault α} {f : α → Except ConfigFault β} :
    m >>= f = .error fault ↔ m = .error fault ∨ ∃ x, m = .ok x ∧ f x = .error fault := by
  cases m with
  | error fault => simp [bind, Except.bind]
  | ok x => simp [bind, Except.bind]

theorem guard_eq_ok_iff {wrong : Prop} [Decidable wrong] {f : Unit → Except ConfigFault β} {y : β} :
    (if wrong then throw fault >>= f else f ()) = .ok y ↔ ¬ wrong ∧ f () = .ok y := by
  by_cases h : wrong <;> simp [h, throw, throwThe, MonadExceptOf.throw, bind, Except.bind]

theorem guard_eq_error_iff {wrong : Prop} [Decidable wrong] {fault' : ConfigFault}
    {f : Unit → Except ConfigFault β} :
    (if wrong then throw fault' >>= f else f ()) = .error fault ↔
      (wrong ∧ fault = fault') ∨ (¬ wrong ∧ f () = .error fault) := by
  by_cases h : wrong <;>
    simp [h, throw, throwThe, MonadExceptOf.throw, bind, Except.bind, eq_comm]

/-- Settings are what their texts come to, exactly if they are read as such. -/
theorem read_eq_ok_iff {config : Config} : read lookup = .ok config ↔ SetBy lookup config := by
  simp only [read, bind_eq_ok_iff, guard_eq_ok_iff, pure, Except.pure, number_eq_ok_iff,
    word_eq_ok_iff readResolver_eq_ok_iff, word_eq_ok_iff readFormat_eq_ok_iff]
  constructor
  · rintro ⟨capacity, isCapacity, holds, syncSeconds, isSync, port, isPort, least, isLeast, most,
      isMost, bounds, resolver, isResolver, format, isFormat, same⟩
    cases same
    exact {
      inputs := setting_path_iff.2 rfl
      resolver := isResolver
      capacity := isCapacity
      holds := holds
      syncSeconds := isSync
      level := setting_text_iff.2 rfl
      format := isFormat
      port := (Setting.through 8080 _).2 ⟨port, isPort, rfl⟩
      least := isLeast
      most := isMost
      bounds := by simp only; omega }
  · intro set
    obtain ⟨port, isPort, isNone⟩ :=
      (Setting.through 8080 fun n => if n = 0 then none else some n).1 set.port
    have bounds := set.bounds
    refine ⟨_, set.capacity, set.holds, _, set.syncSeconds, port, isPort, _, set.least, _,
      set.most, by omega, _, set.resolver, _, set.format, ?_⟩
    rw [← setting_path_iff.1 set.inputs, ← setting_text_iff.1 set.level, ← isNone]

theorem blames_of_read (refused : read lookup = .error fault) : Blames lookup fault := by
  simp only [read, bind_eq_error_iff, guard_eq_error_iff, number_eq_ok_iff,
    word_eq_ok_iff readResolver_eq_ok_iff, word_eq_ok_iff readFormat_eq_ok_iff] at refused
  obtain refused | ⟨capacity, isCapacity, ⟨rfl, rfl⟩ | ⟨-, refused⟩⟩ := refused
  · exact blames_of_number (by decide) refused
  · exact isCapacity
  obtain refused | ⟨_, -, refused⟩ := refused
  · exact blames_of_number (by decide) refused
  obtain refused | ⟨_, -, refused⟩ := refused
  · exact blames_of_number (by decide) refused
  obtain refused | ⟨least, isLeast, refused⟩ := refused
  · exact blames_of_number (by decide) refused
  obtain refused | ⟨most, isMost, ⟨wrong, rfl⟩ | ⟨-, refused⟩⟩ := refused
  · exact blames_of_number (by decide) refused
  · exact ⟨isLeast, isMost, wrong⟩
  obtain refused | ⟨_, -, refused⟩ := refused
  · obtain ⟨text, gives, refused⟩ := exists_of_word refused
    obtain ⟨rfl, unknown⟩ := unknown_of_readResolver refused
    exact ⟨text, gives, rfl, unknown⟩
  obtain refused | ⟨_, -, refused⟩ := refused
  · obtain ⟨text, gives, refused⟩ := exists_of_word refused
    obtain ⟨rfl, unknown⟩ := unknown_of_readFormat refused
    exact ⟨text, gives, rfl, unknown⟩
  · cases refused

theorem not_acceptable_of_blames (blames : Blames lookup fault) : ¬ Acceptable lookup := by
  intro acceptable
  cases fault with
  | notANumber name text =>
      obtain ⟨gives, bits, numeric, none⟩ := blames
      exact none (acceptable.number _ numeric text gives)
  | zeroCapacity => exact acceptable.holds blames
  | backoffBounds least most =>
      obtain ⟨isLeast, isMost, wrong⟩ := blames
      have right := acceptable.bounds least most isLeast isMost
      omega
  | unknownResolver word =>
      obtain ⟨text, gives, rfl, unknown⟩ := blames
      exact unknown (acceptable.resolver text gives)
  | unknownFormat word =>
      obtain ⟨text, gives, rfl, unknown⟩ := blames
      exact unknown (acceptable.format text gives)
  | levelOutOfRange | unknownLevel | injected => exact blames

theorem acceptable_of_setBy {config : Config} (set : SetBy lookup config) : Acceptable lookup where
  number := by
    intro setting member text gives
    simp only [numbers, List.mem_cons, List.not_mem_nil, or_false] at member
    obtain rfl | rfl | rfl | rfl | rfl := member
    · exact ⟨_, set.capacity.of_gives gives⟩
    · exact ⟨_, set.syncSeconds.of_gives gives⟩
    · obtain ⟨n, number, -⟩ := set.port.of_gives gives
      exact ⟨n, number⟩
    · exact ⟨_, set.least.of_gives gives⟩
    · exact ⟨_, set.most.of_gives gives⟩
  resolver := fun _ gives => ⟨_, set.resolver.of_gives gives⟩
  format := fun _ gives => ⟨_, set.format.of_gives gives⟩
  holds := fun zero => set.holds (set.capacity.unique IsNumber.unique zero)
  bounds := by
    intro least most isLeast isMost
    rw [← set.least.unique IsNumber.unique isLeast, ← set.most.unique IsNumber.unique isMost]
    exact set.bounds

/-- Settings are accepted exactly if their texts are acceptable, whatever the texts are. Then
every setting is what its text comes to, and nothing else. If they are not acceptable, the
fault that is reported is there, and the program ends with it as an invalid configuration
before it has told or looked at anything. -/
theorem accepted_iff_acceptable (lookup : Lookup) :
    ((∃ config, read lookup = .ok config) ↔ Acceptable lookup) ∧
    (∀ config, read lookup = .ok config ↔ SetBy lookup config) ∧
    (¬ Acceptable lookup ↔ ∃ fault, read lookup = .error fault ∧ Blames lookup fault ∧
      ∀ files discovered, CommandLine.prepare lookup files discovered =
        ([], .error (CommandLine.failed (.invalidConfig fault)))) := by
  cases answer : read lookup with
  | ok config =>
      have acceptable := acceptable_of_setBy (read_eq_ok_iff.1 answer)
      refine ⟨iff_of_true ⟨config, rfl⟩ acceptable, fun other => ?_,
        iff_of_false (not_not_intro acceptable) ?_⟩
      · rw [← answer, read_eq_ok_iff]
      · rintro ⟨fault, refused, -⟩
        cases refused
  | error fault =>
      have blames := blames_of_read answer
      have unacceptable := not_acceptable_of_blames blames
      refine ⟨iff_of_false ?_ unacceptable, fun other => ?_,
        iff_of_true unacceptable ⟨fault, rfl, blames, fun files discovered => ?_⟩⟩
      · rintro ⟨config, accepted⟩
        cases accepted
      · rw [← answer, read_eq_ok_iff]
      · rw [CommandLine.prepare, answer]

/-- Blanks beyond ASCII, a sign, zeros, letters of both cases, and a bound without its
partner. -/
example : read (fun
      | "METRICS_PORT" => some "\u00a0+000\u3000"
      | "EVENT_CHANNEL_CAPACITY" => some "\t0018446744073709551615"
      | "KIND_RESOLVER" => some "sTATIC"
      | "BACKOFF_MAX_SECS" => some "1"
      | "LOG_LEVEL" => some "\u2003"
      | _ => none) =
    .ok { capacity := 18446744073709551615, resolver := .builtin, port := none,
          backoff := ⟨1, 1⟩ } := by
  decide +kernel

end Config

end ResourceWatch
