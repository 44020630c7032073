import PathWitness.Yaml.Token

/-!
# Events

The tokens of a document make up a tree, which is told as a sequence of events:
texts, and the starts and ends of collections. Where the layout leaves room for
a node and none is written, an empty text stands for it.

What may come next is a state together with the states that follow when a node
is complete, so a tree may be nested as deep as its tokens say. Only the first
document of a text is read, and no further than the token behind it.

## Main definitions

* `Event`: A part of the telling of a tree.
* `Expected`: What may come next.
* `Grammar`: A state of the telling.
* `nextEvent`: The next event.
* `Event.ofText?`: The events of the first document of a text.
-/

namespace PathWitness

namespace Yaml

/-- A text with what is known about its meaning. -/
structure Scalar where
  /-- The text. -/
  text : String := ""
  /-- The tag; empty if there is none. -/
  tag : String := ""
  /-- The text is plain, so that its meaning may depend on how it looks. -/
  plain : Bool := true
  deriving Repr, DecidableEq

/-- A part of the telling of a tree. Nodes may have names. -/
inductive Event where
  /-- A text. -/
  | scalar (name : Option String) (s : Scalar)
  /-- A node that stands elsewhere. -/
  | reference (name : String)
  /-- A sequence starts. -/
  | sequenceStart (name : Option String)
  /-- A sequence ends. -/
  | sequenceEnd
  /-- A mapping starts. Its keys and values follow in turn. -/
  | mappingStart (name : Option String)
  /-- A mapping ends. -/
  | mappingEnd
  deriving Repr, DecidableEq

/-- What stands where no node is written. -/
def Event.empty : Event := .scalar none {}

/-- What may come next. -/
inductive Expected where
  /-- The document is over. -/
  | documentEnd
  /-- The content of a document behind its marker. -/
  | documentContent
  /-- Any node. -/
  | node
  /-- An entry of a sequence by indentation. -/
  | blockEntry
  /-- An entry of a sequence that is not indented further than its key. -/
  | plainEntry
  /-- A key of a mapping by indentation. -/
  | blockKey
  /-- A value of a mapping by indentation. -/
  | blockValue
  /-- An entry of a sequence between brackets, which a comma precedes unless
      it is the first. -/
  | flowEntry (first : Bool)
  /-- The key of a mapping that is an entry of a sequence between brackets. -/
  | pairKey
  /-- The value of such a mapping. -/
  | pairValue
  /-- The end of such a mapping. -/
  | pairEnd
  /-- A key of a mapping between brackets, which a comma precedes unless it is
      the first. -/
  | flowKey (first : Bool)
  /-- A value of a mapping between brackets. -/
  | flowValue
  /-- The value of a key between brackets that has none. -/
  | flowNoValue
  deriving Repr, DecidableEq

/-- A state of the telling. -/
structure Grammar where
  /-- The tokens. -/
  tokens : TokenStream
  /-- What may come next. -/
  state : Expected := .node
  /-- What may come after the open nodes, the innermost first. -/
  stack : List Expected := []
  /-- What handles stand for. -/
  handles : List (String × String) := []

/-- Telling a tree, which fails if the text is malformed. -/
abbrev EventM := StateT Grammar Option

/-- Reads tokens. -/
def fromTokens {α : Type} (read : TokenM α) : EventM α := fun g => do
  let (a, tokens) ← read g.tokens
  return (a, { g with tokens })

/-- The next token. -/
def look : EventM Token :=
  fromTokens peekToken

/-- Takes the next token away. -/
def drop : EventM Unit :=
  fromTokens dropToken

/-- Takes the next token away and looks at the one behind it. -/
def dropAndLook : EventM Token := do
  drop
  look

/-- Goes on in a state. -/
def goTo (state : Expected) : EventM Unit :=
  modify fun g => { g with state }

/-- Goes on behind a node that is complete. -/
def leave : EventM Unit :=
  modify fun g =>
    match g.stack with
    | [] => { g with state := .documentEnd }
    | state :: stack => { g with state, stack }

/-- Goes on in a state behind the next node. -/
def thenGoTo (state : Expected) : EventM Unit :=
  modify fun g => { g with stack := state :: g.stack }

/-- An empty text, behind which it goes on in a state. -/
def emptyThen (state : Expected) : EventM Event := do
  goTo state
  return .empty

/-- What is written before a node. -/
structure Properties where
  /-- The name of the node. -/
  name : Option String := none
  /-- The tag of the node. -/
  tag : Option TagName := none

/-- Reads what is written before a node: a name and a tag, in either order. -/
def readProperties : EventM Properties := do
  match ← look with
  | .anchor name =>
    match ← dropAndLook with
    | .tag tag =>
      drop
      return ⟨some name, some tag⟩
    | _ => return ⟨some name, none⟩
  | .tag tag =>
    match ← dropAndLook with
    | .anchor name =>
      drop
      return ⟨some name, some tag⟩
    | _ => return ⟨none, some tag⟩
  | _ => return {}

/-- The tag that a name of a tag stands for; empty if there is none. -/
def resolveTag : Option TagName → EventM String
  | none => return ""
  | some tag => do
    if tag.handle.isEmpty then return tag.suffix
    else
      let beginning ← (← get).handles.lookup tag.handle
      return beginning ++ tag.suffix

/-- Tells a node, which may be a collection by indentation, or even one that
    is not indented further. -/
def tellNode (block sameColumn : Bool) : EventM Event := do
  match ← look with
  | .reference name =>
    leave
    drop
    return .reference name
  | _ =>
    let ⟨name, tag⟩ ← readProperties
    let tag ← resolveTag tag
    let start (first : Expected) (e : Event) : EventM Event := do
      drop
      goTo first
      return e
    match ← look with
    | .scalar text plain =>
      leave
      drop
      return .scalar name ⟨text, tag, (tag.isEmpty && plain) || tag == "!"⟩
    | .flowSequenceStart => start (.flowEntry true) (.sequenceStart name)
    | .flowMappingStart => start (.flowKey true) (.mappingStart name)
    | t =>
      if sameColumn && t == .blockEntry then
        goTo .plainEntry
        return .sequenceStart name
      else if block && t == .blockSequenceStart then start .blockEntry (.sequenceStart name)
      else if block && t == .blockMappingStart then start .blockKey (.mappingStart name)
      else if name.isSome || !tag.isEmpty then
        leave
        return .scalar name ⟨"", tag, tag.isEmpty⟩
      else failure

/-- Tells a node, behind which it goes on in a state. -/
def nodeThen (state : Expected) (block sameColumn : Bool) : EventM Event := do
  thenGoTo state
  tellNode block sameColumn

/-- Takes the closing token away and ends a collection. -/
def endCollection (e : Event) : EventM Event := do
  leave
  drop
  return e

/-- An entry or the end of a sequence by indentation. -/
def tellBlockEntry : EventM Event := do
  match ← look with
  | .blockEntry =>
    match ← dropAndLook with
    | .blockEntry | .blockEnd => emptyThen .blockEntry
    | _ => nodeThen .blockEntry true false
  | .blockEnd => endCollection .sequenceEnd
  | _ => failure

/-- An entry or the end of a sequence that is not indented further than its
    key. -/
def tellPlainEntry : EventM Event := do
  match ← look with
  | .blockEntry =>
    match ← dropAndLook with
    | .blockEntry | .key | .value | .blockEnd => emptyThen .plainEntry
    | _ => nodeThen .plainEntry true false
  | _ =>
    leave
    return .sequenceEnd

/-- What follows the mark of a key or of a value by indentation. -/
def tellBlockPart (after : Expected) : EventM Event := do
  match ← dropAndLook with
  | .key | .value | .blockEnd => emptyThen after
  | _ => nodeThen after true true

/-- A key or the end of a mapping by indentation. -/
def tellBlockKey : EventM Event := do
  match ← look with
  | .key => tellBlockPart .blockValue
  | .blockEnd => endCollection .mappingEnd
  | _ => failure

/-- A value of a mapping by indentation. -/
def tellBlockValue : EventM Event := do
  match ← look with
  | .value => tellBlockPart .blockKey
  | _ => emptyThen .blockKey

/-- Goes over the comma before an entry that is not the first, and looks at
    what follows. Before a closing bracket there need not be a comma. -/
def skipComma (first : Bool) (closing : Token) : EventM Token := do
  let t ← look
  if first || t == closing then return t
  else if t == .flowEntry then dropAndLook
  else failure

/-- An entry or the end of a sequence between brackets. -/
def tellFlowEntry (first : Bool) : EventM Event := do
  match ← skipComma first .flowSequenceEnd with
  | .flowSequenceEnd => endCollection .sequenceEnd
  | .key =>
    drop
    goTo .pairKey
    return .mappingStart none
  | _ => nodeThen (.flowEntry false) false false

/-- The key of a mapping that is an entry of a sequence between brackets. -/
def tellPairKey : EventM Event := do
  match ← look with
  | .value | .flowEntry | .flowSequenceEnd =>
    drop
    emptyThen .pairValue
  | _ => nodeThen .pairValue false false

/-- The value of such a mapping. -/
def tellPairValue : EventM Event := do
  match ← look with
  | .value =>
    match ← dropAndLook with
    | .flowEntry | .flowSequenceEnd => emptyThen .pairEnd
    | _ => nodeThen .pairEnd false false
  | _ => emptyThen .pairEnd

/-- A key or the end of a mapping between brackets. -/
def tellFlowKey (first : Bool) : EventM Event := do
  match ← skipComma first .flowMappingEnd with
  | .flowMappingEnd => endCollection .mappingEnd
  | .key =>
    match ← dropAndLook with
    | .value | .flowEntry | .flowMappingEnd => emptyThen .flowValue
    | _ => nodeThen .flowValue false false
  | _ => nodeThen .flowNoValue false false

/-- A value of a mapping between brackets. -/
def tellFlowValue : EventM Event := do
  match ← look with
  | .value =>
    match ← dropAndLook with
    | .flowEntry | .flowMappingEnd => emptyThen (.flowKey false)
    | _ => nodeThen (.flowKey false) false false
  | _ => emptyThen (.flowKey false)

/-- The content of a document behind its marker. -/
def tellContent : EventM Event := do
  match ← look with
  | .directive _ | .documentStart | .documentEnd | .streamEnd =>
    leave
    return .empty
  | _ => tellNode true false

/-- The next event, if the document is not over. -/
def nextEvent : EventM (Option Event) := do
  match (← get).state with
  | .documentEnd =>
    let _ ← look
    return none
  | .documentContent => tellContent
  | .node => tellNode true false
  | .blockEntry => tellBlockEntry
  | .plainEntry => tellPlainEntry
  | .blockKey => tellBlockKey
  | .blockValue => tellBlockValue
  | .flowEntry first => tellFlowEntry first
  | .pairKey => tellPairKey
  | .pairValue => tellPairValue
  | .pairEnd =>
    let _ ← look
    goTo (.flowEntry false)
    return some .mappingEnd
  | .flowKey first => tellFlowKey first
  | .flowValue => tellFlowValue
  | .flowNoValue =>
    let _ ← look
    emptyThen (.flowKey false)

/-- The events up to the end of the document. What has been told is kept with
    the latest event first. -/
def tellAll : Nat → List Event → EventM (List Event)
  | 0, _ => failure
  | n + 1, told => do
    match ← nextEvent with
    | some e => tellAll n (e :: told)
    | none => return told.reverse

/-- Reads the directives before a document. Only one version of the language
    is known, which may be named once. -/
def readDirectives : Nat → Bool → EventM Unit
  | 0, _ => failure
  | n + 1, versioned => do
    match ← look with
    | .directive (.version major minor) =>
      if versioned || major != 1 || minor != 1 then failure
      drop
      readDirectives n true
    | .directive (.handle name beginning) =>
      if ((← get).handles.lookup name).isSome then failure
      modify fun g => { g with handles := (name, beginning) :: g.handles }
      drop
      readDirectives n versioned
    | _ => pure ()

/-- What handles stand for unless a document says otherwise. -/
def standardHandles : List (String × String) :=
  [("!", "!"), ("!!", "tag:yaml.org,2002:")]

/-- Tells the first document, if there is one. -/
def tellDocument (bound : Nat) : EventM (Option (List Event)) := do
  let t ← look
  if t == .streamEnd then return none
  else
    let explicit := t == .documentStart || t matches .directive _
    if explicit then
      readDirectives bound false
      if (← look) != .documentStart then failure
      drop
      goTo .documentContent
    modify fun g => { g with handles := g.handles ++ standardHandles }
    return some (← tellAll bound [])

/-- The events of the first document of a text; none if the text is empty. -/
def Event.ofText? (text : String) : Option (Option (List Event)) :=
  let p := Cursor.start text
  (tellDocument (16 * (p.size + 4))).run' { tokens := { cursor := p } }

end Yaml

end PathWitness
