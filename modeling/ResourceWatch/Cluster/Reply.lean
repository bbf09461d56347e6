import ResourceWatch.Json.Decoder

/-!
# Replies

A request is answered with a status and a body. The body may be read as one JSON
value, or line by line while it is still being sent.
-/

namespace ResourceWatch

structure Reply where
  /-- The number that says how the request went. -/
  status : Nat := 200
  /-- What has been sent so far. -/
  body : String
  /-- Whether that is all. -/
  complete : Bool := true
deriving DecidableEq, Repr

namespace Reply

/-- Whether the request failed by the word of the other side: the statuses from
400 up to 599 say so. -/
def refused (r : Reply) : Bool := 400 ≤ r.status && r.status ≤ 599

/-- What a reply holds. A refusal holds nothing. -/
def read? {α : Type} (r : Reply) (d : Json.Decoder α) : Option α :=
  if r.refused then none else (d.run r.body.toList).toOption

/-- A line without the carriage return at its end. -/
def withoutReturn (line : List Char) : List Char :=
  if line.getLast? = some '\r' then line.dropLast else line

/-- The lines that have been sent. What stands after the last line feed is a
line if nothing more comes. -/
def lines (r : Reply) : List String :=
  let pieces := r.body.toList.splitOn '\n'
  let sent := if r.complete then pieces else pieces.dropLast
  sent.map fun line => String.ofList (withoutReturn line)

end Reply

end ResourceWatch
