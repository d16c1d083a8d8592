import ReportPress.Yaml.BlockText
import ReportPress.Yaml.Plain
import ReportPress.Yaml.Quoted
import ReportPress.Yaml.Token

/-!
# Reading tokens

Tokens are read one after another as they are asked for.  What a text means depends on how far it
is indented, and whether something is the name of a member shows only at the colon behind it.  So
tokens wait until it is known what has to be put in front of them.

* `Indent`, `KeyPlace`, `TokenStream` — what is known at a place in a text.
* `TokenStream.openBlock`, `TokenStream.closeBlocks` — what indents say.
* `TokenStream.markKey`, `TokenStream.dropKey?`, `TokenStream.expireKey?` — where a name may have
  begun.
* `TokenStream.read?` — one more step of reading, by what the next character is.
* `TokenStream.peek?`, `TokenStream.drop` — the next token, and the stream without it.
-/

namespace ReportPress.Yaml

/-- A column that was entered, and how. -/
structure Indent where
  /-- The column before. -/
  outer : Int
  /-- Items or members on lines of their own begin in the column. -/
  isBlock : Bool
deriving Repr

/-- A place where the name of a member may begin. -/
structure KeyPlace where
  isPossible : Bool := false
  /-- Nothing but a name can stand there. -/
  isRequired : Bool := false
  /-- The number of tokens before it. -/
  number : Nat := 0
  line : Nat := 0
  column : Nat := 0
  index : Nat := 0
deriving Repr

/-- What is known at a place in a text. -/
structure TokenStream where
  cursor : Cursor
  /-- Tokens that have been read and not been taken. -/
  waiting : List Token := []
  /-- The number of tokens that have been taken. -/
  taken : Nat := 0
  /-- The column of the innermost items or members on lines of their own. -/
  indent : Int := -1
  indents : List Indent := []
  /-- How many brackets are open. -/
  flowDepth : Nat := 0
  /-- Where names may begin, within each open bracket and outside of all, innermost first. -/
  keys : List KeyPlace := [{}]
  /-- A name may begin here. -/
  allowsKey : Bool := true
  /-- Here a colon needs no white space after it. -/
  adjacent : Nat := 0
  /-- Brackets of members have been opened, or a name between brackets has been announced, and
  no pair has ended since. -/
  inMembers : Bool := false
  /-- Whether a pair stands without brackets of its own, within each sequence in brackets,
  innermost first. -/
  pairs : List Bool := []
deriving Repr

namespace TokenStream

/-- The stream of a text. -/
def ofText (s : String) : TokenStream := { cursor := .ofText s }

/-- One more token. -/
def push (t : Token) (s : TokenStream) : TokenStream := { s with waiting := s.waiting ++ [t] }

/-- One more token with so many others before it. -/
def insert (number : Nat) (t : Token) (s : TokenStream) : TokenStream :=
  let before := number - s.taken
  { s with waiting := s.waiting.take before ++ t :: s.waiting.drop before }

/-- Whether a bracket is open. -/
def inFlow (s : TokenStream) : Bool := s.flowDepth ≠ 0

/-- The stream at another place. -/
def moveTo (c : Cursor) (s : TokenStream) : TokenStream := { s with cursor := c }

/-- The stream with names allowed or not. -/
def allowing (allowsKey : Bool) (s : TokenStream) : TokenStream := { s with allowsKey }

/-! ## Indents -/

/-- The column after leaving those beyond `column`, what was entered before, and how many of the
left held items or members. -/
def leave (column : Int) : (here : Int) → List Indent → Int × List Indent × Nat
  | here, [] => (here, [], 0)
  | here, i :: outer =>
    if column < here then
      let (there, rest, blocks) := leave column i.outer outer
      (there, rest, if i.isBlock then blocks + 1 else blocks)
    else (here, i :: outer, 0)

/-- Ends all items and members that begin beyond a column. -/
def closeBlocks (column : Int) (s : TokenStream) : TokenStream :=
  if s.inFlow then s
  else
    let (indent, indents, blocks) := leave column s.indent s.indents
    { s with indent, indents, waiting := s.waiting ++ List.replicate blocks .blockEnd }

/-- Forgets a column in which nothing begins. -/
def leaveLoose (s : TokenStream) : TokenStream :=
  match s.indents with
  | i :: outer => if i.isBlock then s else { s with indent := i.outer, indents := outer }
  | [] => s

/-- Begins items or members in a column, unless they have begun there already.  The token goes in
front of the others after the first `number`. -/
def openBlock (column number : Nat) (t : Token) (s : TokenStream) : TokenStream :=
  if s.inFlow then s
  else
    let s := if s.indent ≤ column then s.leaveLoose else s
    if s.indent < column then
      { s.insert number t with indent := column, indents := ⟨s.indent, true⟩ :: s.indents }
    else s

/-- Keeps what follows apart from the column of the innermost items or members. -/
def indentLoose (s : TokenStream) : TokenStream :=
  match s.indents with
  | i :: _ =>
    if s.inFlow || !i.isBlock then s
    else { s with indent := s.indent + 1, indents := ⟨s.indent, false⟩ :: s.indents }
  | [] => s

/-- The number of tokens so far. -/
def count (s : TokenStream) : Nat := s.taken + s.waiting.length

/-! ## Names of members -/

/-- Notes that a name may begin here. -/
def markKey (s : TokenStream) : TokenStream :=
  if !s.allowsKey then s
  else
    let c := s.cursor
    let place : KeyPlace := {
      isPossible := true
      isRequired := !s.inFlow && s.indent = c.column && s.indents.head?.any (·.isBlock)
      number := s.count, line := c.line, column := c.column, index := c.index }
    { s with keys := place :: s.keys.drop 1 }

/-- The innermost place where a name may have begun. -/
def key (s : TokenStream) : KeyPlace := s.keys.headD {}

/-- Notes that no name began there. -/
def forgetKey (s : TokenStream) : TokenStream :=
  { s with keys := { s.key with isPossible := false } :: s.keys.drop 1 }

/-- Notes that no name began there, if something else could. -/
def dropKey? (s : TokenStream) : Option TokenStream :=
  if s.key.isPossible && s.key.isRequired then none else some s.forgetKey

/-- The most characters that a name has. -/
def maxKey : Nat := 1024

/-- Outside brackets a name stands on one line and is not too long. -/
def expireKey? (s : TokenStream) : Option TokenStream :=
  let isPast := s.key.line < s.cursor.line || s.key.index + maxKey < s.cursor.index
  if !s.inFlow && s.key.isPossible && isPast then s.dropKey? else some s

/-! ## Between tokens -/

/-- Past white space, line breaks and comments.  Outside brackets a name may begin on each line. -/
def toToken? : (fuel : Nat) → TokenStream → Option TokenStream
  | 0, s => some s
  | fuel + 1, s =>
    let c := s.cursor
    match c.rest with
    | '\n' :: _ => toToken? fuel ((s.moveTo c.pastBreak).allowing (s.allowsKey || !s.inFlow))
    | '#' :: _ => toToken? fuel (s.moveTo c.pastLine)
    | ' ' :: _ => toToken? fuel (s.moveTo (c.pastGap 1))
    | '\t' :: _ =>
      if !s.indents.isEmpty && c.fresh && (c.column : Int) < s.indent then
        c.pastTabs?.bind fun c => toToken? fuel (s.moveTo c)
      else toToken? fuel (s.moveTo (c.pastGap 1))
    | _ => some s

/-- Past all that says nothing. -/
def skipGaps? (s : TokenStream) : Option TokenStream := s.toToken? (s.cursor.rest.length + 1)

/-! ## Documents -/

/-- Ends everything that is indented. -/
def closeAll? (s : TokenStream) : Option TokenStream :=
  (s.closeBlocks (-1)).dropKey?.map (·.allowing false)

/-- The end of the text. -/
def readFinish? (s : TokenStream) : Option TokenStream := do
  if s.keys.any fun k => k.isPossible && k.isRequired then none
  let s := { s with keys := s.keys.map fun (k : KeyPlace) => { k with isPossible := false } }
  return (← s.closeAll?).push .finish

/-- A directive. -/
def readDirective? (s : TokenStream) : Option TokenStream := do
  let s ← s.closeAll?
  let (d, c) ← directive? s.cursor
  return (s.moveTo c).push (.directive d)

/-- The bounds of a document.  Nothing follows its end on the same line. -/
def readBounds? (t : Token) (s : TokenStream) : Option TokenStream := do
  let s ← s.closeAll?
  let c := s.cursor.past 3
  if t = .documentEnd then
    let c ← c.toContent?
    if c.atLineEnd then return (s.moveTo c).push t else none
  else return (s.moveTo c).push t

/-! ## Brackets -/

/-- No more brackets are open at a time. -/
def maxFlowDepth : Nat := 255

/-- An opening bracket. -/
def readOpening? (t : Token) (s : TokenStream) : Option TokenStream := do
  let s := s.markKey.indentLoose
  if s.flowDepth = maxFlowDepth then none
  let s := { s with
    flowDepth := s.flowDepth + 1
    keys := {} :: s.keys
    allowsKey := true
    inMembers := s.inMembers || t = Token.flowMapping
    pairs := if t = Token.flowSequence then false :: s.pairs else s.pairs }
  let c ← (s.cursor.past 1).toContent?
  return (s.moveTo c).push t

/-- Ends a pair that stands without brackets of its own. -/
def closePair (s : TokenStream) : TokenStream :=
  match s.pairs with
  | true :: outer => push .flowMappingEnd { s with inMembers := false, pairs := false :: outer }
  | _ => s

/-- A closing bracket. -/
def readClosing? (t : Token) (s : TokenStream) : Option TokenStream := do
  let s ← s.dropKey?
  let s := if s.inFlow then { s with flowDepth := s.flowDepth - 1, keys := s.keys.drop 1 } else s
  let s := s.allowing false
  let s := if t = .flowSequenceEnd then { s.closePair with pairs := s.pairs.drop 1 } else s
  let c ← (s.cursor.past 1).toContent?
  let s := if s.inFlow then { s with adjacent := c.index } else s
  return (s.moveTo c).push t

/-- A comma. -/
def readComma? (s : TokenStream) : Option TokenStream := do
  let s := (← s.dropKey?).allowing true |>.closePair
  return (s.moveTo (← (s.cursor.past 1).toContent?)).push .comma

/-! ## Items and members on lines of their own -/

/-- The mark of an item. -/
def readItem? (s : TokenStream) : Option TokenStream := do
  if s.inFlow || !s.allowsKey then none
  let start := s.cursor
  if start.column = 0 && 0 ≤ s.indent && s.waiting.getLast?.any Token.isMarginal then none
  let s := s.openBlock start.column s.count .blockSequence
  let gap := (start.past 1).gap
  let c ← (start.past 1).toContent?
  if gap.contains '\t' && c.next = some '-' && endsWord c.second then none
  let s := if c.next.any fun a => a = '\n' || isFlowMark a then s.indentLoose else s
  return (((← s.dropKey?).allowing true).moveTo c).push .item

/-- Past white space and comments after the mark of a name, of which there has to be some; tabs are
none. -/
def pastKeyMark? : (fuel : Nat) → (found : Bool) → TokenStream → Option TokenStream
  | 0, _, _ => none
  | fuel + 1, found, s =>
    let c := s.cursor
    match c.rest with
    | ' ' :: _ => pastKeyMark? fuel true (s.moveTo (c.pastGap 1))
    | '\n' :: _ =>
      pastKeyMark? fuel true ((s.moveTo c.pastBreak).allowing (s.allowsKey || !s.inFlow))
    | '#' :: _ => pastKeyMark? fuel found (s.moveTo c.pastLine)
    | '\t' :: _ => none
    | _ => if found then some s else none

/-- The mark of a name. -/
def readKey? (s : TokenStream) : Option TokenStream := do
  let c := s.cursor
  if !s.inFlow && !s.allowsKey then none
  let s := if s.inFlow then { s with inMembers := true }
    else s.openBlock c.column s.count .blockMapping
  let s := (← s.dropKey?).allowing (!s.inFlow)
  return (← (s.moveTo (c.past 1)).pastKeyMark? (c.rest.length + 1) false).push .key

/-- The mark of a value.  If a name may have begun before it, it did. -/
def readValue? (s : TokenStream) : Option TokenStream := do
  let start := s.cursor
  let c := start.past 1
  let after := (c.pastGap c.gap.length).next
  if c.next = some '\t' && !c.gap.contains ' ' && after.any isWord then none
  let isPair := !s.pairs.isEmpty && !s.inMembers
  let s := (if isPair then { s with pairs := true :: s.pairs.drop 1 } else s).moveTo c
  let k := s.key
  if k.isPossible then
    if isPair && k.line < start.line then none
    let s := s.insert k.number .key
    let s := if isPair then s.insert k.number .flowMapping else s
    let s := s.openBlock k.column k.number .blockMapping
    return (s.indentLoose.forgetKey.allowing false).push .value
  else
    let s := if isPair then s.push .flowMapping else s
    if s.inFlow then return (s.allowing false).push .value
    if !s.allowsKey then none
    let s := s.openBlock start.column s.count .blockMapping
    return (s.indentLoose.allowing true).push .value

/-- The mark of a value between brackets without white space after it. -/
def readFlowValue? (s : TokenStream) : Option TokenStream :=
  let next := s.cursor.second
  if s.cursor.index ≠ s.adjacent && (next = some '[' || next = some '\x7b') then none
  else s.readValue?

/-! ## What values are made of -/

/-- The characters of the name of an anchor. -/
def isAnchorChar (c : Char) : Bool := !endsWord (some c) && !isFlowMark c && c ≠ '\ufeff'

/-- An anchor or an alias. -/
def readAnchor? (isAlias : Bool) (s : TokenStream) : Option TokenStream :=
  let c := s.cursor
  let name := String.ofList ((c.rest.drop 1).takeWhile isAnchorChar)
  let t : Token := if isAlias then .alias name else .anchor name c.column
  if name = "" then none
  else some (((s.markKey.allowing false).moveTo (c.past (name.length + 1))).push t)

/-- A tag. -/
def readTag? (s : TokenStream) : Option TokenStream := do
  let (name, c) ← tagName? s.inFlow s.cursor
  return ((s.markKey.allowing false).moveTo c).push (.tag name s.cursor.column)

/-- A text that keeps its lines. -/
def readBlockText? (folded : Bool) (s : TokenStream) : Option TokenStream := do
  let s := (s.markKey.allowing true).leaveLoose
  let (text, c) ← blockText? folded s.indent s.cursor
  return (s.moveTo c).push (.scalar text false)

/-- Whether something that may follow a quoted text follows it: the end of the line, the mark of a
value, which outside brackets stands on the line where the text begins, or a mark between
brackets. -/
def mayFollowQuoted (inFlow : Bool) (startLine : Nat) (c : Cursor) : Bool :=
  match c.next with
  | none | some '\n' => true
  | some ':' => inFlow || startLine = c.line
  | some a => inFlow && [',', '\x7d', ']'].contains a

/-- A text in quotation marks. -/
def readQuoted? (style : QuoteStyle) (s : TokenStream) : Option TokenStream := do
  let (text, c) ← quoted? style s.indent s.cursor
  let c ← c.toContent?
  if !mayFollowQuoted s.inFlow s.cursor.line c then none
  let s ← ((s.markKey.allowing false).moveTo c).skipGaps?
  return push (.scalar text false) { s with adjacent := s.cursor.index }

/-- A text without quotation marks.  If it ends with a line, a name may begin on the next. -/
def readPlain? (s : TokenStream) : Option TokenStream := do
  let s := (s.markKey.allowing false).leaveLoose
  let (text, c) ← plain? s.inFlow (s.indent + 1) s.cursor
  return ((s.moveTo c).allowing c.fresh).push (.scalar text true)

/-! ## The next token -/

/-- Reads on, by what the next character is. -/
def readByMark? (mark : Char) (s : TokenStream) : Option TokenStream :=
  let next := s.cursor.second
  match mark with
  | '[' => s.readOpening? .flowSequence
  | '\x7b' => s.readOpening? .flowMapping
  | ']' => s.readClosing? .flowSequenceEnd
  | '\x7d' => s.readClosing? .flowMappingEnd
  | ',' => s.readComma?
  | '-' => if endsWord next then s.readItem? else s.readPlain?
  | '?' => if endsWord next then s.readKey? else s.readPlain?
  | ':' =>
    if endsWord next then s.readValue?
    else if s.inFlow && (next.any isFlowMark || s.cursor.index = s.adjacent) then s.readFlowValue?
    else s.readPlain?
  | '*' => s.readAnchor? true
  | '&' => s.readAnchor? false
  | '!' => s.readTag?
  | '|' => if s.inFlow then s.readPlain? else s.readBlockText? false
  | '>' => if s.inFlow then s.readPlain? else s.readBlockText? true
  | '\'' => s.readQuoted? .single
  | '\x22' => s.readQuoted? .double
  | '%' | '@' | '\x60' => none
  | _ => s.readPlain?

/-- One more step of reading. -/
def read? (s : TokenStream) : Option TokenStream := do
  let s ← (← s.skipGaps?).expireKey?
  let s := s.closeBlocks s.cursor.column
  let c := s.cursor
  match c.next with
  | none => s.readFinish?
  | some mark =>
    if c.column = 0 && mark = '%' then s.readDirective?
    else if c.column = 0 && c.isAt "---" then s.readBounds? .documentStart
    else if c.column = 0 && c.isAt "..." then s.readBounds? .documentEnd
    else if (c.column : Int) < s.indent then none
    else s.readByMark? mark

/-- Whether something may have to be put in front of the next token. -/
def isUndecided (s : TokenStream) : Bool :=
  s.keys.any fun k => k.isPossible && k.number = s.taken

/-- Reads on until the next token is there and nothing can be put in front of it. -/
def settle? : (fuel : Nat) → TokenStream → Option TokenStream
  | 0, s => some s
  | fuel + 1, s =>
    if s.waiting.isEmpty then s.read?.bind (settle? fuel)
    else s.expireKey?.bind fun s => if s.isUndecided then s.read?.bind (settle? fuel) else some s

/-- The next token. -/
def peek? (s : TokenStream) : Option (Token × TokenStream) := do
  let s ← s.settle? (s.cursor.rest.length + 2)
  return (← s.waiting.head?, s)

/-- The stream without its next token. -/
def drop (s : TokenStream) : TokenStream :=
  { s with waiting := s.waiting.drop 1, taken := s.taken + 1 }

end TokenStream

end ReportPress.Yaml
