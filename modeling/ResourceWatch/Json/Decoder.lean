import ResourceWatch.Json.Reader

/-!
# Values of a known form

A value of which the form is known is read while the text goes by. The first
character that does not fit ends the reading, so of two faults in a text the one
further in front counts.

A record is an object whose members are read by their names. A member may come
more than once: each time its value has to have the right form, and the last one
counts, unless the record says otherwise. Members of other names are passed over.
-/

namespace ResourceWatch.Json.Decoder

open Reading (skipBlank peek expect refuse items colon)

/-- A value that is neither a list nor an object and stands for something. -/
def simple {α : Type} (read : Json → Option α) : Decoder α := fun _ => do
  skipBlank
  let some a := read (← Reading.simple) | throw .malformed
  return a

def text : Decoder String := simple Json.str?

def textWhere (p : String → Bool) : Decoder String := simple fun j => j.str?.filter p

def bool : Decoder Bool := simple Json.bool?

def intWithin (least most : Int) : Decoder Int :=
  simple fun j => j.int?.filter fun n => least ≤ n && n ≤ most

/-- A whole number that has room in 64 bits with a sign. -/
def int : Decoder Int := intWithin (-(Nat.pow 2 63 : Int)) (Nat.pow 2 63 - 1 : Nat)

/-- A whole number from zero on that has room in 16 bits. -/
def word : Decoder Nat := fun room => Int.toNat <$> intWithin 0 (Nat.pow 2 16 - 1 : Nat) room

/-- A value, or the word for nothing. -/
def optional {α : Type} (d : Decoder α) : Decoder (Option α) := fun room => do
  skipBlank
  if (← peek) == 'n' then
    Reading.expectAll Reading.nullWord
    return none
  else return some (← d room)

def list {α : Type} (d : Decoder α) : Decoder (List α)
  | 0 => do skipBlank; refuse
  | room + 1 => do
    skipBlank
    return (← items '[' ']' (fun known => return (← d room) :: known) []).reverse

/-- A list whose items are read by `body`, with their commas. -/
def listOf {α : Type} (body : Decoder α) : Decoder α
  | 0 => do skipBlank; refuse
  | room + 1 => do
    skipBlank
    if (← peek) != '[' then refuse
    expect '['
    let a ← body room
    skipBlank
    expect ']'
    return a

def comma : Reading Unit := do skipBlank; expect ','

/-- An object. For each member `take` says what reads its value into what is known
so far, or that such a member may not come. -/
def object {σ : Type} (take : String → σ → Option (Decoder σ)) (known : σ) : Decoder σ
  | 0 => do skipBlank; refuse
  | room + 1 => do
    skipBlank
    let member (known : σ) : Reading σ := do
      let some d := take (← Reading.text) known | throw .malformed
      colon
      d room
    items '\x7b' '\x7d' member known

/-- A value that is not kept. -/
def checked {α σ : Type} (d : Decoder α) (known : σ) : Decoder σ := fun room => do
  discard (d room)
  return known

def passed {σ : Type} (known : σ) : Decoder σ := checked (fun _ => Reading.pass) known

/-- A value that is read into what is known. -/
def into {α σ : Type} (d : Decoder α) (put : α → σ) : Decoder σ := fun room =>
  return put (← d room)

/-- A value that is not fit for use unless something was found in it. -/
def required {α : Type} (d : Decoder (Option α)) : Decoder α := fun room => do
  let some a ← d room | throw .malformed
  return a

/-- A member of a record: its name, and what reads its value into what is known
so far, unless it may not come. -/
abbrev RecordField (σ : Type) := String × (σ → Option (Decoder σ))

namespace RecordField

def kept {α σ : Type} (name : String) (d : Decoder α) (put : σ → α → σ) : RecordField σ :=
  (name, fun known => some (into d (put known)))

/-- A member that is kept, and may not come again if it was `seen` before. -/
def once {α σ : Type} (name : String) (seen : σ → Bool) (d : Decoder α) (put : σ → α → σ) :
    RecordField σ :=
  (name, fun known => if seen known then none else some (into d (put known)))

/-- A member that has to have a form, and is not kept. -/
def checked {α σ : Type} (d : Decoder α) (name : String) : RecordField σ :=
  (name, fun known => some (Decoder.checked d known))

end RecordField

/-- A record with these members, and others that are read by `other`. -/
def recordWith {σ : Type} (fields : List (RecordField σ)) (other : String → σ → Decoder σ)
    (known : σ) : Decoder σ :=
  let take (name : String) (known : σ) := match fields.lookup name with
    | some field => field known
    | none => some (other name known)
  object take known

/-- A record with these members. -/
def record {σ : Type} (fields : List (RecordField σ)) (known : σ) : Decoder σ :=
  recordWith fields (fun _ => passed) known

/-- A map from names to texts, in the order of the names. -/
def textMap : Decoder (List (String × String)) :=
  into (recordWith [] (fun name known => into text fun s => (name, s) :: known) [])
    fun entries => byName entries.reverse

end ResourceWatch.Json.Decoder
