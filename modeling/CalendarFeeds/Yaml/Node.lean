import CalendarFeeds.Yaml.Datum
import CalendarFeeds.Yaml.Token

/-! # Nodes — from tokens to data

    A node is an alias, a scalar or a collection, perhaps with an anchor and a tag in front of it.
    An anchor may be used again later; the last node with a name counts.  Where a node is missing
    between signs of structure, it is null. -/

namespace CalendarFeeds.Yaml

/-- What is known between two nodes of a document. -/
structure Nodes where
  tokens : List Token
  /-- The numbers of the anchors by name, the latest first. -/
  names : List (String × Nat)
  /-- The data of the anchors that are complete, by number. -/
  data : List (Nat × Datum)
  /-- How many anchors there have been. -/
  count : Nat
  /-- The meanings of tag handles. -/
  meanings : List (String × String)

namespace Nodes

/-- The next token; past the end of the text there is nothing but its end. -/
def peek (s : Nodes) : Token := s.tokens.headD .streamEnd

def skip (s : Nodes) : Nodes := { s with tokens := s.tokens.drop 1 }

/-- Registers an anchor. -/
def register (s : Nodes) (name : String) : Nodes :=
  { s with names := (name, s.count) :: s.names, count := s.count + 1 }

/-- Keeps the datum of an anchored node. -/
def complete (s : Nodes) (anchor : Option Nat) (d : Datum) : Nodes :=
  match anchor with
  | none => s
  | some n => { s with data := (n, d) :: s.data }

/-- The type that a tag names.  A handle between two marks has to have a meaning. -/
def typeName? (s : Nodes) (handle suffix : String) : Option TypeName :=
  if handle = "!!" then some ⟨(s.meanings.lookup "!!").getD coreSpace, suffix⟩
  else if handle = "" ∧ suffix = "!" then some ⟨(s.meanings.lookup "").getD "", suffix⟩
  else
    match s.meanings.lookup handle with
    | some meaning => some ⟨meaning, suffix⟩
    | none =>
      if 2 ≤ handle.length ∧ handle.startsWith "!" ∧ handle.endsWith "!" then none
      else some ⟨handle, suffix⟩

/-- The properties in front of a node. -/
structure Properties where
  anchor : Option Nat
  tag : Option TypeName

/-- The properties in front of a node: an anchor and a tag, in either order. -/
def properties? (s : Nodes) : Option (Properties × Nodes) :=
  match s.peek with
  | .anchor name =>
    let number := s.count
    let s := (s.register name).skip
    match s.peek with
    | .tag handle suffix =>
      (s.typeName? handle suffix).map fun t => (⟨some number, some t⟩, s.skip)
    | _ => some (⟨some number, none⟩, s)
  | .tag handle suffix =>
    (s.typeName? handle suffix).map fun t =>
      let s := s.skip
      match s.peek with
      | .anchor name => (⟨some s.count, some t⟩, (s.register name).skip)
      | _ => (⟨none, some t⟩, s)
  | _ => some (⟨none, none⟩, s)

/-- A scalar with properties. -/
def scalar (s : Nodes) (p : Properties) (isPlain : Bool) (text : String) : Datum × Nodes :=
  let d := Datum.ofScalar isPlain p.tag text
  (d, s.complete p.anchor d)

/-- A collection with properties. -/
def collected (p : Properties) (d : Datum) (s : Nodes) : Datum × Nodes :=
  (d, s.complete p.anchor d)

/-- Whether a token ends an entry of a block mapping. -/
def endsEntry (t : Token) : Bool :=
  t == .key || t == .value || t == .blockEnd

mutual

/-- A node.  Block collections are allowed only where the context says so, and a sequence without
    indentation of its own only as a value of a block mapping. -/
def node? : Nat → Bool → Bool → Nodes → Option (Datum × Nodes)
  | 0, _, _, _ => none
  | fuel + 1, block, indentless, s =>
    match s.peek with
    | .alias name =>
      (s.names.lookup name).map fun number => ((s.data.lookup number).getD .bad, s.skip)
    | _ =>
      match s.properties? with
      | none => none
      | some (p, s) =>
        match s.peek with
        | .scalar isPlain text => some (s.skip.scalar p isPlain text)
        | .flowSequenceStart =>
          (flowItems? fuel true [] s.skip).map fun (items, s) =>
            collected p (.sequence items) s
        | .flowMappingStart =>
          (flowPairs? fuel true [] s.skip).bind fun (nodes, s) =>
            (Datum.ofNodes? nodes).map fun d => collected p d s
        | .blockEntry =>
          if indentless then
            (indentlessItems? fuel [] s).map fun (items, s) => collected p (.sequence items) s
          else if p.anchor.isSome || p.tag.isSome then some (s.scalar p true "")
          else none
        | .blockSequenceStart =>
          if block then
            (blockItems? fuel [] s.skip).map fun (items, s) => collected p (.sequence items) s
          else if p.anchor.isSome || p.tag.isSome then some (s.scalar p true "")
          else none
        | .blockMappingStart =>
          if block then
            (blockPairs? fuel [] s.skip).bind fun (nodes, s) =>
              (Datum.ofNodes? nodes).map fun d => collected p d s
          else if p.anchor.isSome || p.tag.isSome then some (s.scalar p true "")
          else none
        | _ =>
          if p.anchor.isSome || p.tag.isSome then some (s.scalar p true "") else none

/-- The items of a block sequence; those read so far are reversed. -/
def blockItems? : Nat → List Datum → Nodes → Option (List Datum × Nodes)
  | 0, _, _ => none
  | fuel + 1, items, s =>
    match s.peek with
    | .blockEnd => some (items.reverse, s.skip)
    | .blockEntry =>
      let s := s.skip
      if s.peek = .blockEntry ∨ s.peek = .blockEnd then
        blockItems? fuel (.null :: items) s
      else
        (node? fuel true false s).bind fun (d, s) => blockItems? fuel (d :: items) s
    | _ => none

/-- The items of a block sequence without indentation of its own. -/
def indentlessItems? : Nat → List Datum → Nodes → Option (List Datum × Nodes)
  | 0, _, _ => none
  | fuel + 1, items, s =>
    match s.peek with
    | .blockEntry =>
      let s := s.skip
      if s.peek = .blockEntry ∨ endsEntry s.peek then
        indentlessItems? fuel (.null :: items) s
      else
        (node? fuel true false s).bind fun (d, s) => indentlessItems? fuel (d :: items) s
    | _ => some (items.reverse, s)

/-- The keys and values of a block mapping in turn; those read so far are reversed. -/
def blockPairs? : Nat → List Datum → Nodes → Option (List Datum × Nodes)
  | 0, _, _ => none
  | fuel + 1, nodes, s =>
    match s.peek with
    | .blockEnd => some (nodes.reverse, s.skip)
    | .key =>
      let s := s.skip
      if endsEntry s.peek then blockValue? fuel (.null :: nodes) s
      else (node? fuel true true s).bind fun (d, s) => blockValue? fuel (d :: nodes) s
    | .value => blockValue? fuel (.null :: nodes) s
    | _ => none

/-- The value of a key in a block mapping, and what follows it. -/
def blockValue? : Nat → List Datum → Nodes → Option (List Datum × Nodes)
  | 0, _, _ => none
  | fuel + 1, nodes, s =>
    match s.peek with
    | .value =>
      let s := s.skip
      if endsEntry s.peek then blockPairs? fuel (.null :: nodes) s
      else (node? fuel true true s).bind fun (d, s) => blockPairs? fuel (d :: nodes) s
    | _ => blockPairs? fuel (.null :: nodes) s

def flowItems? : Nat → Bool → List Datum → Nodes → Option (List Datum × Nodes)
  | 0, _, _, _ => none
  | fuel + 1, isFirst, items, s =>
    if s.peek = .flowSequenceEnd then some (items.reverse, s.skip)
    else if !isFirst && s.peek != .flowEntry then none
    else
      let s := if isFirst then s else s.skip
      match s.peek with
      | .flowSequenceEnd => some (items.reverse, s.skip)
      | .key =>
        (pair? fuel s.skip).bind fun (d, s) => flowItems? fuel false (d :: items) s
      | _ => (node? fuel false false s).bind fun (d, s) => flowItems? fuel false (d :: items) s

/-- A mapping of one pair in a sequence in brackets. -/
def pair? : Nat → Nodes → Option (Datum × Nodes)
  | 0, _ => none
  | fuel + 1, s =>
    let key :=
      if s.peek = .value ∨ s.peek = .flowEntry ∨ s.peek = .flowSequenceEnd then
        some (.null, s.skip)
      else node? fuel false false s
    key.bind fun (k, s) =>
      let value :=
        if s.peek = .value then
          let s := s.skip
          if s.peek = .flowEntry ∨ s.peek = .flowSequenceEnd then some (.null, s)
          else node? fuel false false s
        else some (.null, s)
      value.bind fun (v, s) => (Datum.ofNodes? [k, v]).map fun d => (d, s)

/-- The keys and values in turn of a mapping in brackets. -/
def flowPairs? : Nat → Bool → List Datum → Nodes → Option (List Datum × Nodes)
  | 0, _, _, _ => none
  | fuel + 1, isFirst, nodes, s =>
    if s.peek = .flowMappingEnd then some (nodes.reverse, s.skip)
    else if !isFirst && s.peek != .flowEntry then none
    else
      let s := if isFirst then s else s.skip
      match s.peek with
      | .flowMappingEnd => some (nodes.reverse, s.skip)
      | .key =>
        let s := s.skip
        if s.peek = .value ∨ s.peek = .flowEntry ∨ s.peek = .flowMappingEnd then
          flowValue? fuel (.null :: nodes) s
        else (node? fuel false false s).bind fun (d, s) => flowValue? fuel (d :: nodes) s
      | .value => flowValue? fuel (.null :: nodes) s
      | _ =>
        (node? fuel false false s).bind fun (d, s) =>
          flowPairs? fuel false (.null :: d :: nodes) s

/-- The value of a key in a mapping in brackets, and what follows it. -/
def flowValue? : Nat → List Datum → Nodes → Option (List Datum × Nodes)
  | 0, _, _ => none
  | fuel + 1, nodes, s =>
    if s.peek = .value then
      let s := s.skip
      if s.peek = .flowEntry ∨ s.peek = .flowMappingEnd then
        flowPairs? fuel false (.null :: nodes) s
      else (node? fuel false false s).bind fun (d, s) => flowPairs? fuel false (d :: nodes) s
    else flowPairs? fuel false (.null :: nodes) s

end

-- ── Documents ────────────────────────────────────────────────────────────────────

/-- Past the directives of a document; a version may be asked for once. -/
def directives? : List Token → Bool → Nodes → Option Nodes
  | .versionDirective :: rest, seen, s => if seen then none else directives? rest true s.skip
  | .tagDirective handle meaning :: rest, seen, s =>
    directives? rest seen { s.skip with meanings := [(handle, meaning)] }
  | _, _, s => some s

/-- Whether a token begins or ends a document. -/
def isBoundary (t : Token) : Bool :=
  match t with
  | .versionDirective => true
  | .tagDirective _ _ => true
  | .documentStart => true
  | .documentEnd => true
  | .streamEnd => true
  | _ => false

/-- The rest of a document after its end: whether its end was marked. -/
def documentEnd? (s : Nodes) : Option (Bool × Nodes) :=
  let s := { s with meanings := [], names := [] }
  match s.peek with
  | .documentEnd => some (true, s.skip)
  | .versionDirective => none
  | .tagDirective _ _ => none
  | _ => some (false, s)

/-- The documents of a text, in so many steps at most.  A document without a mark at its start
    may stand only at the beginning and after a marked end. -/
def documents? : Nat → Bool → List Datum → Nodes → Option (List Datum)
  | 0, _, _, _ => none
  | fuel + 1, mayBeBare, found, s =>
    let s := { s with tokens := s.tokens.dropWhile (· == .documentEnd) }
    if s.peek = .streamEnd then some found.reverse
    else
      let nodeFuel := 4 * s.tokens.length + 16
      let body : Option (Datum × Nodes) :=
        if isBoundary s.peek || !mayBeBare then
          (directives? s.tokens false s).bind fun s =>
            if s.peek = .documentStart then
              let s := s.skip
              if isBoundary s.peek then some (.null, s) else node? nodeFuel true false s
            else none
        else node? nodeFuel true false s
      body.bind fun (d, s) =>
        s.documentEnd?.bind fun (isMarked, s) => documents? fuel isMarked (d :: found) s

def ofTokens? (tokens : List Token) : Option (List Datum) :=
  documents? (tokens.length + 2) true [] ⟨tokens, [], [], 0, []⟩

end Nodes

end CalendarFeeds.Yaml
