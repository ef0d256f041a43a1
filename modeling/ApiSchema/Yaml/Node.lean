/-
From tokens to the tree of nodes.

A node is a scalar, a sequence or a mapping with its tag.  Anchors and aliases
are gone: an alias is replaced by the node that its anchor names.

An alias inside the very node that it names makes a node without end, which no
tree is.  Such a node is written out to a depth that no reference of the document
goes beyond, and ends in places that say what stands around them.  So references
into it lead where they should, but whoever walks through all of it comes to an
end here and to none in the document.

Each reader below either takes a token or hands on to one that does, so a
multiple of the number of tokens bounds the depth of the calls.
-/
import ApiSchema.Yaml.Lexer
import ApiSchema.Yaml.Tag

namespace ApiSchema.Yaml

/-- A node of a document. -/
inductive Node where
  /-- A scalar, by its text.  Scalars that stand apart in the document have different origins. -/
  | scalar (tag : Tag) (text : String) (origin : Nat)
  /-- A sequence. -/
  | sequence (tag : Tag) (items : List Node)
  /-- A mapping, as pairs of key and value. -/
  | mapping (tag : Tag) (pairs : List (Node × Node))
  /-- A collection around this place, by its anchor. -/
  | enclosing (anchor : String) (isMapping : Bool)

namespace Node

/-- The tag of a node. -/
def tag : Node → Tag
  | scalar t _ _ | sequence t _ | mapping t _ => t
  | enclosing _ isMapping => if isMapping then .map else .seq

/-- The node with another tag. -/
def withTag (tag : Tag) : Node → Node
  | scalar _ text origin => scalar tag text origin
  | sequence _ items => sequence tag items
  | mapping _ pairs => mapping tag pairs
  | enclosing anchor isMapping => enclosing anchor isMapping

/-- The node of an empty place. -/
def empty : Node := scalar .null "" 0

/-! ### Reading -/

/-- What is left to read, and what has been declared. -/
structure Reader where
  /-- The tokens left. -/
  tokens : List Token
  /-- The nodes that anchors name.  While a node is read, its anchor names the place around. -/
  anchors : List (String × Node) := []
  /-- The aliases that stand inside the nodes they name. -/
  endless : List String := []
  /-- How many scalars have been read. -/
  scalars : Nat := 0
  /-- What the abbreviations of tags stand for. -/
  handles : List (String × String) := []

/-- Reading consumes tokens and may fail. -/
abbrev ReadM := StateT Reader (Except Malformed)

/-- The next token. -/
def peek : ReadM Token := do
  match (← get).tokens with
  | t :: _ => return t
  | [] => throw .endOfTokens

/-- Passes the next token. -/
def pass : ReadM Unit := modify fun s => { s with tokens := s.tokens.tail }

/-- Passes the next token if it is the given one. -/
def passIf (t : Token) : ReadM Bool := do
  if (← peek) = t then
    pass
    return true
  else return false

/-- Passes the next token, which has to be the given one. -/
def need (t : Token) (m : Malformed) : ReadM Unit := do
  unless ← passIf t do throw m

/-! ### Properties of a node -/

/-- The anchor and the tag in front of a node. -/
structure Properties where
  /-- The anchor. -/
  anchor : Option String := none
  /-- The tag, as a full name. -/
  tag : Option String := none

/-- The full name of a tag. -/
def tagName (t : TagText) : ReadM String := do
  match t.handle with
  | none => return t.suffix
  | some handle => match (← get).handles.lookup handle with
    | some expansion => return expansion ++ t.suffix
    | none => throw (.undeclaredHandle handle)

/-- The properties that stand here: an anchor and a tag, in either order. -/
def properties : ReadM Properties := do
  match ← peek with
  | .anchor name =>
    pass
    match ← peek with
    | .tag t =>
      pass
      return { anchor := name, tag := ← tagName t }
    | _ => return { anchor := name }
  | .tag t =>
    pass
    match ← peek with
    | .anchor name =>
      pass
      return { anchor := name, tag := ← tagName t }
    | _ => return { tag := ← tagName t }
  | _ => return {}

/-- The tag of a scalar.  A lone exclamation mark asks for the form of a plain scalar. -/
def scalarTag (p : Properties) (text : String) (plain : Bool) : Tag :=
  match p.tag with
  | some "!" => plainTag text
  | some uri => .ofUri uri
  | none => if plain then plainTag text else .str

/-- The tag of a collection. -/
def collectionTag (p : Properties) (default : Tag) : Tag :=
  match p.tag with
  | some "!" | none => default
  | some uri => .ofUri uri

/-- Reads a node by `read`, under the anchor if there is one. -/
def anchored (p : Properties) (read : ReadM Node) : ReadM Node := do
  match p.anchor with
  | none => read
  | some name =>
    let isMapping := [.blockMappingStart, .flowMappingStart].contains (← peek)
    if ((← get).anchors.lookup name).isSome then throw (.duplicateAnchor name)
    modify fun s => { s with anchors := (name, enclosing name isMapping) :: s.anchors }
    let node ← read
    modify fun s => { s with anchors := (name, node) :: s.anchors }
    return node

/-- Which nodes may stand at a place. -/
inductive Place where
  /-- Flow collections and scalars. -/
  | flow
  /-- Block collections as well. -/
  | block
  /-- Also a sequence whose entries are not indented. -/
  | blockOrEntries
deriving DecidableEq

/-! ### Nodes -/

/-- Reads a node, unless one of `ends` follows, in which case the place is empty. -/
def orEmpty (ends : List Token) (read : ReadM Node) : ReadM Node := do
  if ends.contains (← peek) then return empty else read

/-- A scalar with an origin of its own. -/
def newScalar (tag : Tag) (text : String) : ReadM Node := do
  modify fun s => { s with scalars := s.scalars + 1 }
  return .scalar tag text (← get).scalars

/-- A node without content, which has to have properties. -/
def emptyContent (p : Properties) : ReadM Node := do
  if p.anchor.isNone && p.tag.isNone then throw .expectedNode
  else newScalar (scalarTag p "" true) ""

/-- The node that an anchor names. -/
def aliased (name : String) : ReadM Node := do
  match (← get).anchors.lookup name with
  | none => throw (.unknownAlias name)
  | some (.enclosing anchor isMapping) =>
    modify fun s => { s with endless := anchor :: s.endless }
    return .enclosing anchor isMapping
  | some node => return node

mutual

/-- A node. -/
def read (place : Place) : Nat → ReadM Node
  | 0 => throw .endOfTokens
  | fuel + 1 => do
    match ← peek with
    | .alias name =>
      pass
      aliased name
    | _ =>
      let p ← properties
      anchored p (readContent place p fuel)

/-- A node behind its properties. -/
def readContent (place : Place) (p : Properties) : Nat → ReadM Node
  | 0 => throw .endOfTokens
  | fuel + 1 => do
    match ← peek with
    | .blockEntry =>
      if place = .blockOrEntries then
        return .sequence (collectionTag p .seq) (← readEntries fuel)
      else emptyContent p
    | .scalar text plain =>
      pass
      newScalar (scalarTag p text plain) text
    | .flowSequenceStart =>
      pass
      return .sequence (collectionTag p .seq) (← readFlowItems true fuel)
    | .flowMappingStart =>
      pass
      return .mapping (collectionTag p .map) (← readFlowPairs true fuel)
    | .blockSequenceStart =>
      if place = .flow then emptyContent p
      else do
        pass
        return .sequence (collectionTag p .seq) (← readBlockItems fuel)
    | .blockMappingStart =>
      if place = .flow then emptyContent p
      else do
        pass
        return .mapping (collectionTag p .map) (← readBlockPairs fuel)
    | _ => emptyContent p

/-- The entries of a block sequence, up to its end. -/
def readBlockItems : Nat → ReadM (List Node)
  | 0 => throw .endOfTokens
  | fuel + 1 => do
    if ← passIf .blockEntry then
      let item ← orEmpty [.blockEntry, .blockEnd] (read .block fuel)
      return item :: (← readBlockItems fuel)
    else
      need .blockEnd .expectedBlockEnd
      return []

/-- The entries of a sequence that is not indented.  Nothing marks its end. -/
def readEntries : Nat → ReadM (List Node)
  | 0 => throw .endOfTokens
  | fuel + 1 => do
    if ← passIf .blockEntry then
      let item ← orEmpty [.blockEntry, .key, .value, .blockEnd] (read .block fuel)
      return item :: (← readEntries fuel)
    else return []

/-- The pairs of a block mapping, up to its end. -/
def readBlockPairs : Nat → ReadM (List (Node × Node))
  | 0 => throw .endOfTokens
  | fuel + 1 => do
    if ← passIf .key then
      let key ← orEmpty [.key, .value, .blockEnd] (read .blockOrEntries fuel)
      let value ←
        if ← passIf .value then orEmpty [.key, .value, .blockEnd] (read .blockOrEntries fuel)
        else pure empty
      return (key, value) :: (← readBlockPairs fuel)
    else
      need .blockEnd .expectedBlockEnd
      return []

/-- The items of a flow sequence, up to its end.  A pair without braces is a mapping of one
entry. -/
def readFlowItems (first : Bool) : Nat → ReadM (List Node)
  | 0 => throw .endOfTokens
  | fuel + 1 => do
    if ← passIf .flowSequenceEnd then return []
    unless first do need .flowEntry .expectedComma
    if ← passIf .flowSequenceEnd then return []
    let item ←
      if ← passIf .key then do
        let ends := [Token.flowEntry, .flowSequenceEnd]
        let key ← orEmpty (.value :: ends) (read .flow fuel)
        let value ← if ← passIf .value then orEmpty ends (read .flow fuel) else pure empty
        pure (.mapping .map [(key, value)])
      else read .flow fuel
    return item :: (← readFlowItems false fuel)

/-- The pairs of a flow mapping, up to its end. -/
def readFlowPairs (first : Bool) : Nat → ReadM (List (Node × Node))
  | 0 => throw .endOfTokens
  | fuel + 1 => do
    if ← passIf .flowMappingEnd then return []
    unless first do need .flowEntry .expectedComma
    if ← passIf .flowMappingEnd then return []
    let ends := [Token.flowEntry, .flowMappingEnd]
    let pair ←
      if ← passIf .key then do
        let key ← orEmpty (.value :: ends) (read .flow fuel)
        let value ← if ← passIf .value then orEmpty ends (read .flow fuel) else pure empty
        pure (key, value)
      else do
        let key ← read .flow fuel
        pure (key, empty)
    return pair :: (← readFlowPairs false fuel)

end

/-! ### Documents -/

/-- The abbreviations that need no declaration. -/
def standardHandles : List (String × String) := [("!", "!"), ("!!", Tag.standard)]

/-- The directives in front of a document. -/
def readDirectives : Nat → Bool → List (String × String) → ReadM (List (String × String))
  | 0, _, handles => return handles
  | fuel + 1, versioned, handles => do
    match ← peek with
    | .directive d =>
      pass
      match d with
      | .version major _ =>
        if versioned then throw .duplicateDirective
        if major != 1 then throw .otherVersion
        readDirectives fuel true handles
      | .tag handle expansion =>
        if (handles.lookup handle).isSome then throw .duplicateDirective
        readDirectives fuel versioned ((handle, expansion) :: handles)
      | .reserved => readDirectives fuel versioned handles
    | _ => return handles

/-- Passes the marks that end a document. -/
def passEnds : Nat → ReadM Unit
  | 0 => return
  | fuel + 1 => do
    if ← passIf .documentEnd then passEnds fuel

/-- The root of a document with a start mark. -/
def readExplicit (fuel : Nat) : ReadM Node := do
  let handles ← readDirectives fuel false []
  need .documentStart .expectedDocumentStart
  modify fun s => { s with handles := handles ++ standardHandles }
  match ← peek with
  | .directive _ | .documentStart | .documentEnd | .streamEnd => return empty
  | _ => read .block fuel

/-- The root of a document without a start mark. -/
def readImplicit (fuel : Nat) : ReadM Node := do
  modify fun s => { s with handles := standardHandles }
  read .block fuel

/-- The root of the only document, if there is one. -/
def readStream (fuel : Nat) : ReadM (Option Node) := do
  match ← peek with
  | .streamEnd => return none
  | t =>
    let root ← match t with
      | .directive _ | .documentStart => readExplicit fuel
      | _ => readImplicit fuel
    passEnds fuel
    match ← peek with
    | .streamEnd => return root
    | _ =>
      discard (readDirectives fuel false [])
      need .documentStart .expectedDocumentStart
      throw .severalDocuments

/-! ### Nodes without end -/

mutual

/-- The node with each place of an enclosing collection filled. -/
def fill (content : String → Bool → Node) : Node → Node
  | scalar tag text origin => scalar tag text origin
  | sequence tag items => sequence tag (fillItems content items)
  | mapping tag pairs => mapping tag (fillPairs content pairs)
  | enclosing anchor isMapping => content anchor isMapping

/-- Items with each place of an enclosing collection filled. -/
def fillItems (content : String → Bool → Node) : List Node → List Node
  | [] => []
  | item :: items => fill content item :: fillItems content items

/-- Pairs with each place of an enclosing collection filled. -/
def fillPairs (content : String → Bool → Node) : List (Node × Node) → List (Node × Node)
  | [] => []
  | (key, value) :: pairs => (fill content key, fill content value) :: fillPairs content pairs

end

/-- The node with the collections around its places written out again, to a depth. -/
def writtenOut (anchors : List (String × Node)) : Nat → Node → Node
  | 0, node => node
  | depth + 1, node => node.fill fun anchor isMapping => match anchors.lookup anchor with
    | some around => writtenOut anchors depth around
    | none => .enclosing anchor isMapping

/-- The number of slashes of a token. -/
def slashes : Token → Nat
  | .scalar text _ => text.toList.count '/'
  | _ => 0

/-- A depth that nothing looks beyond: a reference passes one name for each slash, and whoever has
entered all endless collections is back in one of them. -/
def sufficientDepth (tokens : List Token) (endless : List String) : Nat :=
  max (tokens.foldl (fun depth t => max depth (slashes t)) 0) (endless.eraseDups.length + 1) + 2

/-- The root of the document that tokens make up; none if they are empty. -/
def ofTokens (tokens : List Token) : Except Malformed (Option Node) := do
  let (root, s) ← (readStream (4 * tokens.length + 8)).run { tokens }
  return root.map (writtenOut s.anchors (sufficientDepth tokens s.endless))

/-- The root of the document that a text holds. -/
def ofText (text : List Char) : LexResult (Option Node) :=
  let (tokens, failure) := Yaml.tokens text
  match ofTokens tokens, failure with
  | .error .endOfTokens, some e => .error e
  | .error m, _ => reject m
  | .ok root, _ => .ok root

end Node

end ApiSchema.Yaml
