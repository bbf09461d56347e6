import ResourceWatch.Object.Document

/-!
# Pages

A list comes in pages. A page holds objects and says at which version of the
collection it was made and, if it is not the last one, how to ask for the next.
-/

namespace ResourceWatch

open Json (Decoder)
open Json.Decoder (text optional int list record recordWith checked into required)

/-- A part of a list. -/
structure Page where
  /-- The objects of the page. -/
  objects : List Object
  /-- The version of the collection. -/
  version : Option String
  /-- What the next page is asked for by, if there is one. -/
  token : Option String
deriving DecidableEq, Repr

namespace Page

/-- What stands at the head of a page. An empty text is as good as none. -/
structure Header where
  /-- The version of the collection. -/
  version : Option String := none
  /-- What the next page is asked for by. -/
  token : Option String := none
deriving DecidableEq, Repr

def header : Decoder Header :=
  record [
    .kept "resourceVersion" (optional text)
      fun h v => { h with version := v.filter (!·.isEmpty) },
    .kept "continue" (optional text) fun h v => { h with token := v.filter (!·.isEmpty) },
    .checked (optional text) "selfLink",
    .checked (optional int) "remainingItemCount"] {}

structure Parts where
  /-- Its header. -/
  header : Option Header := none
  /-- Its objects. -/
  objects : Option (List Object) := none

/-- The parts of a page. The header and the objects come once each; whatever else
there is has to be a value. -/
def parts : Decoder Parts :=
  recordWith [
    .once "metadata" (·.header.isSome) header fun p h => { p with header := some h },
    .once "items" (·.objects.isSome) (optional (list Object.decoder))
      fun p os => { p with objects := some (os.getD []) }]
    (fun _ => checked Json.Reading.value) {}

/-- The page that parts make up. The objects have to be there, the header need
not. -/
def ofParts? (p : Parts) : Option Page := do
  let header := p.header.getD {}
  return { objects := ← p.objects, version := header.version, token := header.token }

def decoder : Decoder Page := required (into parts ofParts?)

end Page

end ResourceWatch
