import ResourceWatch.Yaml.Tag

/-!
# YAML tokens

The tokens of a YAML text. Blocks, which the text marks by indentation alone,
have tokens for their beginnings and ends like the bracketed collections, and
each key has a token in front even where the text has no question mark.
-/

namespace ResourceWatch.Yaml

/-- A token. -/
inductive Token where
  /-- The directive that names a version of YAML. -/
  | version (major minor : Nat)
  /-- The directive that says what a tag handle stands for. -/
  | tagHandle (handle : String) (stem : List UInt8)
  | documentStart
  | documentEnd
  | blockSequence
  | blockMapping
  | blockEnd
  | flowSequence
  | flowSequenceEnd
  | flowMapping
  | flowMappingEnd
  /-- A dash in front of an item. -/
  | blockEntry
  /-- A comma. -/
  | flowEntry
  /-- A key comes next. -/
  | key
  /-- A value comes next. -/
  | value
  | alias (name : String)
  | anchor (name : String)
  /-- A tag; without a handle its suffix is all of it. -/
  | tag (handle : String) (suffix : List UInt8)
  /-- A scalar; `plain` if it is neither quoted nor a block. -/
  | scalar (text : String) (plain : Bool)
deriving DecidableEq, Repr, Inhabited

end ResourceWatch.Yaml
