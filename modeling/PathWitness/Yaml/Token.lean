import PathWitness.Yaml.Tag

/-!
# Tokens

The text of a document is cut into tokens. Besides the marks that are written
there are tokens for what the layout says: where a collection that is written
by indentation starts and ends, and what is a key. A key is known only by the
colon behind it, so tokens wait in a queue as long as the first of them may
still turn out to start a key.

A key that is not marked as one has to end within its line and has at most
1024 characters. At each level of brackets there is one place at which such a
key may have started. A pair of brackets that is left right after it was
entered makes the reader forget to wait for a key that starts with it.

## Main definitions

* `Token`: A part of a document.
* `TokenStream`: Reading tokens from a text.
* `peekToken`, `dropToken`: The next token.
-/

namespace PathWitness

namespace Yaml

/-- A part of a document. -/
inductive Token where
  /-- The text is over. -/
  | streamEnd
  /-- Something about the next document. -/
  | directive (d : Directive)
  /-- The marker before a document. -/
  | documentStart
  /-- The marker after a document. -/
  | documentEnd
  /-- A sequence by indentation starts. -/
  | blockSequenceStart
  /-- A mapping by indentation starts. -/
  | blockMappingStart
  /-- A collection by indentation ends. -/
  | blockEnd
  /-- A sequence between brackets starts. -/
  | flowSequenceStart
  /-- A sequence between brackets ends. -/
  | flowSequenceEnd
  /-- A mapping between brackets starts. -/
  | flowMappingStart
  /-- A mapping between brackets ends. -/
  | flowMappingEnd
  /-- An entry of a sequence by indentation. -/
  | blockEntry
  /-- A comma between brackets. -/
  | flowEntry
  /-- A key follows. -/
  | key
  /-- The value of a key follows. -/
  | value
  /-- The name of the node that follows. -/
  | anchor (name : String)
  /-- The name of a node that stands elsewhere. -/
  | reference (name : String)
  /-- The tag of the node that follows. -/
  | tag (name : TagName)
  /-- A text, and whether it is plain. -/
  | scalar (text : String) (plain : Bool)
  deriving Repr, DecidableEq

/-- A place at which a key may have started. -/
structure KeyPlace where
  /-- A key may have started here. -/
  possible : Bool := false
  /-- Here must be a key, by its indentation. -/
  required : Bool := false
  /-- The number of its first token. -/
  token : Nat := 0
  /-- The number of characters before it. -/
  index : Nat := 0
  /-- Its line. -/
  line : Nat := 0
  /-- Its column. -/
  column : Nat := 0
  deriving Repr, DecidableEq

/-- Reading tokens from a text. -/
structure TokenStream where
  /-- The place that has been reached in the text. -/
  cursor : Cursor
  /-- The tokens that wait. -/
  queue : List Token := []
  /-- The number of tokens that have been taken. -/
  taken : Nat := 0
  /-- The first token in the queue will stay the first. -/
  settled : Bool := false
  /-- The column of the innermost collection by indentation. -/
  indent : Int := -1
  /-- The columns of the collections around it, the innermost first. -/
  outer : List Int := []
  /-- A key may start at the next token. -/
  keyAllowed : Bool := true
  /-- The number of levels of brackets. -/
  level : Nat := 0
  /-- The places at which keys may have started, one for each level of
      brackets and one outside of all of them, the innermost first. -/
  keys : List KeyPlace := [{}]
  /-- The numbers of tokens that may start a key, with their levels. -/
  waiting : List (Nat × Nat) := []

/-- How deep collections may be nested. -/
def maxDepth : Nat := 10000

/-- How many characters may be between the start of a key and its colon. -/
def maxKeySize : Nat := 1024

namespace TokenStream

/-- The reader is between brackets. -/
def inFlow (s : TokenStream) : Bool :=
  0 < s.level

/-- The number of the next token that is put into the queue. -/
def nextToken (s : TokenStream) : Nat :=
  s.taken + s.queue.length

/-- The innermost place at which a key may have started. -/
def keyPlace (s : TokenStream) : KeyPlace :=
  s.keys.head?.getD {}

/-- The stream with another innermost place for a key. -/
def setKeyPlace (s : TokenStream) (k : KeyPlace) : TokenStream :=
  { s with keys := k :: s.keys.tail }

/-- A token no longer starts a key. -/
def forget (s : TokenStream) (token : Nat) : TokenStream :=
  { s with waiting := s.waiting.filter (·.1 != token) }

/-- The place at which a key may have started at a level. -/
def keyPlaceAt? (s : TokenStream) (level : Nat) : Option KeyPlace :=
  if level ≤ s.level then s.keys[s.level - level]? else none

/-- The stream without a key at a level. -/
def dropKeyAt (s : TokenStream) (level : Nat) : TokenStream :=
  { s with keys := s.keys.modify (s.level - level) fun k => { k with possible := false } }

/-- The stream with one more token at the end of the queue. -/
def push (s : TokenStream) (t : Token) : TokenStream :=
  { s with queue := s.queue ++ [t] }

/-- The stream with one more token, by its number. A number that has been
    passed puts it at the end of the queue. -/
def insert (s : TokenStream) (number : Nat) (t : Token) : TokenStream :=
  if number < s.taken then s.push t
  else { s with queue := s.queue.insertIdx (number - s.taken) t }

/-- A key cannot go on as far as the place that has been reached. -/
def outruns (s : TokenStream) (k : KeyPlace) : Bool :=
  k.line < s.cursor.line || k.index + maxKeySize < s.cursor.index

end TokenStream

/-- Reading tokens, which fails if the text is malformed. -/
abbrev TokenM := StateT TokenStream Option

/-- Reads from the place that has been reached. -/
def fromText {α : Type} (read : ReadM α) : TokenM α := fun s => do
  let (a, p) ← read s.cursor
  return (a, { s with cursor := p })

/-- The next character of the text. -/
def nextChar : TokenM Char :=
  return (← get).cursor.charAt 0

/-- Puts a token at the end of the queue. -/
def pushToken (t : Token) : TokenM Unit :=
  modify (·.push t)

/-- Sets whether a key may start at the next token. -/
def allowKey (allowed : Bool) : TokenM Unit :=
  modify fun s => { s with keyAllowed := allowed }

/-- Gives up the innermost place for a key. That fails where a key must be. -/
def giveUpKey : TokenM Unit := do
  let s ← get
  let k := s.keyPlace
  if k.possible then
    if k.required then failure
    set ((s.setKeyPlace { k with possible := false }).forget k.token)

/-- Keeps in mind that a key may start here. -/
def markKey : TokenM Unit := do
  let s ← get
  if s.keyAllowed then
    let p := s.cursor
    let k : KeyPlace :=
      { possible := true, required := !s.inFlow && s.indent == p.column, token := s.nextToken,
        index := p.index, line := p.line, column := p.column }
    giveUpKey
    modify fun s =>
      { s.setKeyPlace k with waiting := (k.token, s.level) :: s.waiting.filter (·.1 != k.token) }

/-- Ends the collections that are indented further than a column. -/
def unindentFrom (column : Int) : List Int → TokenM Unit
  | [] => pure ()
  | indent :: outer => do
    if column < (← get).indent then
      modify fun s => { s.push .blockEnd with indent, outer }
      unindentFrom column outer

/-- Ends the collections that are indented further than a column. Between
    brackets there is no indentation. -/
def unindent (column : Int) : TokenM Unit := do
  let s ← get
  if !s.inFlow then unindentFrom column s.outer

/-- Starts a collection in a column unless it has been started. Its token gets
    the given number. -/
def startBlock (column number : Nat) (t : Token) : TokenM Unit := do
  let s ← get
  if !s.inFlow && s.indent < column then
    if maxDepth ≤ s.outer.length then failure
    set ({ s with indent := column, outer := s.indent :: s.outer }.insert number t)

/-- Goes over blanks, comments and line breaks. Tabs are gone over where they
    are not indentation. -/
def skipToToken : Nat → TokenM Unit
  | 0 => pure ()
  | n + 1 => do
    fromText (need 1)
    let p := (← get).cursor
    if p.column = 0 && p.marked then fromText skip
    fromText (need 1)
    let s ← get
    let tabs := s.inFlow || !s.keyAllowed
    fromText (skipWhile fun c => c == ' ' || (tabs && c == '\t'))
    if (← nextChar) == '#' then fromText (skipWhile (!endsLine ·))
    if isBreak (← nextChar) then
      fromText (need 2)
      fromText skipBreak
      if !s.inFlow then allowKey true
      skipToToken n

/-- The end of the text. -/
def fetchEnd : TokenM Unit := do
  modify fun s =>
    if s.cursor.column = 0 then s
    else { s with cursor := { s.cursor with line := s.cursor.line + 1, column := 0 } }
  unindent (-1)
  giveUpKey
  allowKey false
  pushToken .streamEnd

/-- A directive. -/
def fetchDirective : TokenM Unit := do
  unindent (-1)
  giveUpKey
  allowKey false
  pushToken (.directive (← fromText readDirective))

/-- A marker between documents. -/
def fetchMarker (t : Token) : TokenM Unit := do
  unindent (-1)
  giveUpKey
  allowKey false
  fromText skip
  fromText skip
  fromText skip
  pushToken t

/-- An opening bracket. -/
def fetchOpening (t : Token) : TokenM Unit := do
  markKey
  let s ← get
  if maxDepth ≤ s.level then failure
  set { s with level := s.level + 1, keys := { token := s.nextToken } :: s.keys }
  allowKey true
  fromText skip
  pushToken t

/-- A closing bracket. -/
def fetchClosing (t : Token) : TokenM Unit := do
  giveUpKey
  let s ← get
  if s.inFlow then
    set { s.forget s.keyPlace.token with level := s.level - 1, keys := s.keys.tail }
  allowKey false
  fromText skip
  pushToken t

/-- A comma between brackets. -/
def fetchComma : TokenM Unit := do
  giveUpKey
  allowKey true
  fromText skip
  pushToken .flowEntry

/-- The mark of an entry of a sequence by indentation. -/
def fetchEntry : TokenM Unit := do
  let s ← get
  if !s.inFlow then
    if !s.keyAllowed then failure
    startBlock s.cursor.column s.nextToken .blockSequenceStart
  giveUpKey
  allowKey true
  fromText skip
  pushToken .blockEntry

/-- The mark of a key. -/
def fetchKey : TokenM Unit := do
  let s ← get
  if !s.inFlow then
    if !s.keyAllowed then failure
    startBlock s.cursor.column s.nextToken .blockMappingStart
  giveUpKey
  allowKey (!s.inFlow)
  fromText skip
  pushToken .key

/-- The innermost place for a key has one, which ends here. Otherwise the
    place is given up. -/
def endsKey : TokenM Bool := do
  let s ← get
  let k := s.keyPlace
  if !k.possible then return false
  else if s.outruns k then
    if k.required then failure
    set (s.setKeyPlace { k with possible := false })
    return false
  else return true

/-- The mark of a value, behind a key that is marked or not. -/
def fetchValue : TokenM Unit := do
  if ← endsKey then
    let k := (← get).keyPlace
    modify (·.insert k.token .key)
    startBlock k.column k.token .blockMappingStart
    modify fun s => (s.setKeyPlace { k with possible := false }).forget k.token
    allowKey false
  else
    let s ← get
    if !s.inFlow then
      if !s.keyAllowed then failure
      startBlock s.cursor.column s.nextToken .blockMappingStart
    allowKey (!s.inFlow)
  fromText skip
  pushToken .value

/-- A token that may start a key. -/
def fetchPart (read : ReadM Token) : TokenM Unit := do
  markKey
  allowKey false
  pushToken (← fromText read)

/-- A block of lines. -/
def fetchBlock (folded : Bool) : TokenM Unit := do
  giveUpKey
  allowKey true
  let indent := (← get).indent
  pushToken (.scalar (← fromText (readBlock folded indent)) false)

/-- A plain scalar. -/
def fetchPlain : TokenM Unit := do
  markKey
  allowKey false
  let s ← get
  let (text, broken) ← fromText (readPlain s.inFlow s.indent)
  if broken then allowKey true
  pushToken (.scalar text true)

/-- The token that starts with a character, before which nothing of the layout
    is open. -/
def fetchMarked (flow : Bool) (c next : Char) : TokenM Unit :=
  match c with
  | '[' => fetchOpening .flowSequenceStart
  | '\x7b' => fetchOpening .flowMappingStart
  | ']' => fetchClosing .flowSequenceEnd
  | '\x7d' => fetchClosing .flowMappingEnd
  | ',' => fetchComma
  | '*' => fetchPart (return .reference (← readName))
  | '&' => fetchPart (return .anchor (← readName))
  | '!' => fetchPart (return .tag (← readTag))
  | '\'' | '"' => fetchPart (return .scalar (← readQuoted) false)
  | _ =>
    if c == '-' && endsPiece next then fetchEntry
    else if c == '?' && (flow || endsPiece next) then fetchKey
    else if c == ':' && (flow || endsPiece next) then fetchValue
    else if c == '|' && !flow then fetchBlock false
    else if c == '>' && !flow then fetchBlock true
    else if startsPlain flow c next then fetchPlain
    else failure

/-- Puts the next tokens into the queue. -/
def fetchToken : TokenM Unit := do
  fromText (need 1)
  skipToToken ((← get).cursor.size + 1)
  unindent (← get).cursor.column
  fromText (need 4)
  let s ← get
  let p := s.cursor
  let c := p.charAt 0
  if c == endMark then fetchEnd
  else if p.column = 0 && c == '%' then fetchDirective
  else if p.atMarker then fetchMarker (if c == '-' then .documentStart else .documentEnd)
  else fetchMarked s.inFlow c (p.charAt 1)

/-- The first token in the queue may still turn out to start a key. -/
def startsKey : TokenM Bool := do
  let s ← get
  match s.waiting.lookup s.taken with
  | none => return false
  | some level =>
    match s.keyPlaceAt? level with
    | none => return false
    | some k =>
      if !k.possible then return false
      else if s.outruns k then
        if k.required then failure
        set (s.dropKeyAt level)
        return false
      else return true

/-- Fills the queue until its first token will stay the first. -/
def settle : Nat → TokenM Unit
  | 0 => failure
  | n + 1 => do
    let more ← if (← get).queue.isEmpty then pure true else startsKey
    if more then
      fetchToken
      settle n

/-- The next token. -/
def peekToken : TokenM Token := do
  let s ← get
  if !s.settled then
    settle (s.cursor.size + 3)
    modify fun s => { s with settled := true }
  return (← get).queue.head?.getD .streamEnd

/-- Takes the next token away. It will not start a key any more. -/
def dropToken : TokenM Unit :=
  modify fun s =>
    { s with
      queue := s.queue.tail
      taken := s.taken + 1
      settled := false
      waiting := s.waiting.filter (s.taken < ·.1) }

end Yaml

end PathWitness
