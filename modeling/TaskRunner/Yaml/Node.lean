import TaskRunner.Yaml.Token

/-!
# Documents

The tree that the tokens of a document describe. An alias stands for the node that bears its anchor, and
a text holds one document at most.
-/

namespace TaskRunner.Yaml

/-- A node. Tags are kept where they are written. -/
inductive Node where
  | scalar (text : String) (style : Style) (tag : Option String)
  | sequence (items : List Node) (tag : Option String)
  | mapping (entries : List (Node × Node)) (tag : Option String)
deriving Repr

/-- The node that stands where nothing is written. -/
def Node.blank : Node := .scalar "" .plain none

/-- What the reading of nodes needs to remember: anchored nodes, and the name spaces of tags. -/
structure Names where
  anchors : List (String × Node)
  handles : List (String × String)
deriving Repr

/-- The name spaces of tags that need no declaration. -/
def standardHandles : List (String × String) :=
  [("!", "!"), ("!!", "tag:yaml.org,2002:")]

/-- A tag in full. -/
def Names.tag? (names : Names) (handle suffix : String) : Option String :=
  if handle.isEmpty then some suffix
  else (names.handles.lookup handle).map (· ++ suffix)

/-- The state of the reading: what is remembered, and the tokens to come. -/
structure Rest where
  names : Names
  tokens : List Token
deriving Repr

namespace Rest

/-- The next token. -/
def next (r : Rest) : Token := r.tokens.headD .theEnd

/-- After the next token. -/
def skip (r : Rest) : Rest := { r with tokens := r.tokens.drop 1 }

/-- Goes past a token that must come. -/
def expect? (r : Rest) (t : Token) : Option Rest :=
  if r.next == t then some r.skip else none

/-- Keeps a node under its anchor. -/
def keep (r : Rest) (anchor : Option String) (node : Node) : Rest :=
  match anchor with
  | some name => { r with names := { r.names with anchors := (name, node) :: r.names.anchors } }
  | none => r

end Rest

/-- The properties in front of a node: at most one anchor and one tag, in any order. -/
def properties? (r : Rest) : Option (Option String × Option String × Rest) := do
  match r.tokens with
  | .anchor a :: .tag h s :: _ => return (some a, some (← r.names.tag? h s), r.skip.skip)
  | .tag h s :: .anchor a :: _ => return (some a, some (← r.names.tag? h s), r.skip.skip)
  | .anchor a :: _ => return (some a, none, r.skip)
  | .tag h s :: _ => return (none, some (← r.names.tag? h s), r.skip)
  | _ => return (none, none, r)

/-- Where a node stands decides which forms it may take. -/
structure Setting where
  /-- Whether block collections may come. -/
  inBlock : Bool
  /-- Whether the items of a sequence may stand without indentation. -/
  flush : Bool
deriving DecidableEq, Repr

mutual

/-- Reads a node, in `fuel` steps at most. -/
def readNode? (where_ : Setting) : Nat → Rest → Option (Node × Rest)
  | 0, _ => none
  | fuel + 1, r =>
    match r.next with
    | .alias name => (r.names.anchors.lookup name).map (·, r.skip)
    | _ => do
      let (anchor, tag, r) ← properties? r
      let (node, r) ← match r.next with
        | .scalar text style => some (.scalar text style tag, r.skip)
        | .flowSequence => do
          let (items, r) ← readFlowItems? true fuel r.skip
          pure (.sequence items tag, r)
        | .flowMapping => do
          let (entries, r) ← readFlowEntries? true fuel r.skip
          pure (.mapping entries tag, r)
        | t => do
          if t == .entry && where_.flush then
            let (items, r) ← readItems? true fuel r
            pure (.sequence items tag, r)
          else if t == .blockSequence && where_.inBlock then
            let (items, r) ← readItems? false fuel r.skip
            pure (.sequence items tag, ← r.expect? .blockEnd)
          else if t == .blockMapping && where_.inBlock then
            let (entries, r) ← readEntries? fuel r.skip
            pure (.mapping entries tag, ← r.expect? .blockEnd)
          else if anchor.isSome || tag.isSome then pure (.scalar "" .plain tag, r)
          else none
      return (node, r.keep anchor node)

/-- Reads a node, or nothing where one of some tokens comes. -/
def readOr? (where_ : Setting) (stops : List Token) : Nat → Rest → Option (Node × Rest)
  | 0, _ => none
  | fuel + 1, r => if stops.contains r.next then some (.blank, r) else readNode? where_ fuel r

/-- Reads the value of a key, which may be missing. -/
def readValue? (where_ : Setting) (stops : List Token) : Nat → Rest → Option (Node × Rest)
  | 0, _ => none
  | fuel + 1, r =>
    if r.next == .value then readOr? where_ stops fuel r.skip else some (.blank, r)

/-- Reads the items of a block sequence. -/
def readItems? (flush : Bool) : Nat → Rest → Option (List Node × Rest)
  | 0, _ => none
  | fuel + 1, r =>
    if r.next == .entry then do
      let stops := if flush then [.entry, .key, .value, .blockEnd] else [.entry, .blockEnd]
      let (item, r) ← readOr? ⟨true, false⟩ stops fuel r.skip
      let (items, r) ← readItems? flush fuel r
      return (item :: items, r)
    else some ([], r)

/-- Reads the entries of a block mapping. -/
def readEntries? : Nat → Rest → Option (List (Node × Node) × Rest)
  | 0, _ => none
  | fuel + 1, r =>
    if r.next == .key then do
      let stops := [.key, .value, .blockEnd]
      let (key, r) ← readOr? ⟨true, true⟩ stops fuel r.skip
      let (value, r) ← readValue? ⟨true, true⟩ stops fuel r
      let (entries, r) ← readEntries? fuel r
      return ((key, value) :: entries, r)
    else some ([], r)

/-- Reads the items of a sequence in brackets, each after a comma but the first. -/
def readFlowItems? (isFirst : Bool) : Nat → Rest → Option (List Node × Rest)
  | 0, _ => none
  | fuel + 1, r =>
    if r.next == .flowSequenceEnd then some ([], r.skip)
    else do
      let r ← if isFirst then some r else r.expect? .flowEntry
      if r.next == .flowSequenceEnd then return ([], r.skip)
      let (item, r) ←
        if r.next == .key then do
          let (key, r) ← readOr? ⟨false, false⟩ [.value, .flowEntry, .flowSequenceEnd] fuel r.skip
          let (value, r) ← readValue? ⟨false, false⟩ [.flowEntry, .flowSequenceEnd] fuel r
          pure (Node.mapping [(key, value)] none, r)
        else readNode? ⟨false, false⟩ fuel r
      let (items, r) ← readFlowItems? false fuel r
      return (item :: items, r)

/-- Reads the entries of a mapping in brackets, each after a comma but the first. -/
def readFlowEntries? (isFirst : Bool) : Nat → Rest → Option (List (Node × Node) × Rest)
  | 0, _ => none
  | fuel + 1, r =>
    if r.next == .flowMappingEnd then some ([], r.skip)
    else do
      let r ← if isFirst then some r else r.expect? .flowEntry
      if r.next == .flowMappingEnd then return ([], r.skip)
      let (key, value, r) ←
        if r.next == .key then do
          let (key, r) ← readOr? ⟨false, false⟩ [.value, .flowEntry, .flowMappingEnd] fuel r.skip
          let (value, r) ← readValue? ⟨false, false⟩ [.flowEntry, .flowMappingEnd] fuel r
          pure (key, value, r)
        else do
          let (key, r) ← readNode? ⟨false, false⟩ fuel r
          pure (key, .blank, r)
      let (entries, r) ← readFlowEntries? false fuel r
      return ((key, value) :: entries, r)

end

/-- Reads the directives in front of a document. -/
def readDirectives? : List Token → List (String × String) → Option (List (String × String) × List Token)
  | .directive "TAG" [handle, start] :: rest, handles =>
    if handles.any (·.1 == handle) then none else readDirectives? rest ((handle, start) :: handles)
  | .directive _ _ :: rest, handles => readDirectives? rest handles
  | rest, handles => some (handles, rest)

/-- The tokens that end a document. -/
def endsDocument (t : Token) : Bool :=
  match t with
  | .directive _ _ | .documentStart | .documentEnd | .theEnd => true
  | _ => false

/-- The only document of a text, `blank` where the text holds none. -/
def Node.ofTokens? (tokens : List Token) : Option Node := do
  let (handles, body) ← readDirectives? tokens []
  let r : Rest := ⟨⟨[], handles ++ standardHandles⟩, body⟩
  let fuel := 4 * tokens.length + 8
  match body, handles.isEmpty && body.length == tokens.length with
  | [.theEnd], true => return .blank
  | .documentStart :: _, _ =>
    let r := r.skip
    let (node, r) ←
      if endsDocument r.next then some (.blank, r) else readNode? ⟨true, false⟩ fuel r
    if r.tokens.dropWhile (· == .documentEnd) == [.theEnd] then return node else none
  | _, true =>
    let (node, r) ← readNode? ⟨true, false⟩ fuel r
    if r.tokens.dropWhile (· == .documentEnd) == [.theEnd] then return node else none
  | _, _ => none

/-- Reads a text with one document at most. -/
def Node.read? (text : String) : Option Node := do
  Node.ofTokens? (← tokens? text)

end TaskRunner.Yaml
