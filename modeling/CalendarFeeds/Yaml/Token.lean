/-! # Tokens — the signs that a YAML text is made of

    Tokens are scalars, properties of nodes and signs of structure.  Indentation has become
    tokens too: a block collection has a start and an end like one in brackets. -/

namespace CalendarFeeds.Yaml

/-- A sign of a YAML text. -/
inductive Token where
  | versionDirective
  /-- A directive that gives a tag handle its meaning; other directives have no handle. -/
  | tagDirective (handle meaning : String)
  | documentStart
  | documentEnd
  | streamEnd
  | blockSequenceStart
  | blockMappingStart
  | blockEnd
  | flowSequenceStart
  | flowSequenceEnd
  | flowMappingStart
  | flowMappingEnd
  | blockEntry
  | flowEntry
  | key
  | value
  | alias (name : String)
  | anchor (name : String)
  | tag (handle suffix : String)
  /-- A scalar, plain or quoted in some way. -/
  | scalar (isPlain : Bool) (text : String)
  deriving DecidableEq, Repr

namespace Token

/-- Whether a token is a property of the node that follows. -/
def isProperty : Token → Bool
  | anchor _ => true
  | tag _ _ => true
  | _ => false

end Token

end CalendarFeeds.Yaml
