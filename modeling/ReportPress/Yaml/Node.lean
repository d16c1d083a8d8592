import ReportPress.Yaml.TokenStream
import ReportPress.Yaml.Value

/-!
# Values from tokens

A value is a scalar, items or members, with an anchor and a tag in front of it if it has them.
Wherever a value may stand and none does, it is null.

* `Reading`, `Reader` — what is known while values are read.
* `readAlias`, `readProperties`, `keepAnchor` — anchors, aliases and tags.
* `readNode` — a value; `block` says that items or members may stand on lines of their own, `flush`
  that items may stand in the column of what they belong to.
-/

namespace ReportPress.Yaml

/-- What is known while values are read. -/
structure Reading where
  stream : TokenStream
  /-- What handles of tags stand for. -/
  handles : List (String × String) := []
  /-- The numbers of anchors by their names, the latest first. -/
  anchors : List (String × Nat) := []
  /-- Values by the numbers of their anchors. -/
  values : List (Nat × Yaml) := []
  /-- How many aliases there are. -/
  aliases : Nat := 0
  /-- How much these stand for. -/
  copied : Nat := 0
deriving Repr

/-- Reading that may fail. -/
abbrev Reader := StateT Reading Option

/-- The next token, which stays there. -/
def peek : Reader Token := do
  let r ← get
  let (t, stream) ← r.stream.peek?
  set { r with stream }
  return t

/-- Past the next token. -/
def skip : Reader Unit := modify fun r => { r with stream := r.stream.drop }

/-! ## Anchors, aliases and tags -/

/-- Aliases stand for no more than this. -/
def maxCopied : Nat := 1000000

/-- The value that the latest anchor of a name was set on, if that value is complete. -/
def readAlias (name : String) : Reader Yaml := do
  let r ← get
  let value ← (← r.anchors.lookup name) |> r.values.lookup
  let copied := r.copied + value.size
  if maxCopied < copied then failure
  set { r with aliases := r.aliases + 1, copied }
  return value

/-- A new anchor; the answer is its number. -/
def setAnchor (name : String) : Reader Nat := do
  let r ← get
  let number := r.anchors.length
  set { r with anchors := (name, number) :: r.anchors }
  return number

/-- The value of an anchor, if there is one. -/
def keepAnchor (number : Option Nat) (value : Yaml) : Reader Unit :=
  match number with
  | some n => modify fun r => { r with values := (n, value) :: r.values }
  | none => return

/-- What a tag says. -/
def resolveTag (name : TagName) : Reader Tag := do
  let full ← name.resolve? (← get).handles
  return .ofName full

/-- The anchor and the tag in front of a value, in either order. -/
def readProperties : Reader (Option Nat × Tag) := do
  match ← peek with
  | .anchor name _ =>
    skip
    let number ← setAnchor name
    match ← peek with
    | .tag tag _ =>
      skip
      return (some number, ← resolveTag tag)
    | _ => return (some number, .absent)
  | .tag tag _ =>
    skip
    let tag ← resolveTag tag
    match ← peek with
    | .anchor name _ =>
      skip
      return (some (← setAnchor name), tag)
    | _ => return (none, tag)
  | _ => return (none, .absent)

/-! ## Values -/

mutual

/-- A value. -/
def readNode : (fuel : Nat) → (block flush : Bool) → Reader Yaml
  | 0, _, _ => failure
  | fuel + 1, block, flush => do
    match ← peek with
    | .alias name =>
      skip
      readAlias name
    | _ =>
      let (anchor, tag) ← readProperties
      let value ← readContent fuel block flush (anchor.isSome || tag ≠ .absent) tag
      keepAnchor anchor value
      return value

/-- What follows the anchor and the tag of a value.  If there are any, nothing needs to follow. -/
def readContent : (fuel : Nat) → (block flush hasProperties : Bool) → Tag → Reader Yaml
  | 0, _, _, _, _ => failure
  | fuel + 1, block, flush, hasProperties, tag => do
    match ← peek, block, flush with
    | .scalar text plain, _, _ =>
      skip
      return .scalar text plain tag
    | .item, _, true => return .sequence (← readFlushItems fuel)
    | .flowSequence, _, _ =>
      skip
      return .sequence (← readFlowItems fuel true)
    | .flowMapping, _, _ =>
      skip
      return .mapping (← readFlowMembers fuel true)
    | .blockSequence, true, _ =>
      skip
      return .sequence (← readItems fuel)
    | .blockMapping, true, _ =>
      skip
      return .mapping (← readMembers fuel)
    | _, _, _ => if hasProperties then return .scalar "" true tag else failure

/-- Items on lines of their own. -/
def readItems : (fuel : Nat) → Reader (List Yaml)
  | 0 => failure
  | fuel + 1 => do
    match ← peek with
    | .blockEnd =>
      skip
      return []
    | .item =>
      skip
      let item ← match ← peek with
        | .item | .blockEnd => pure null
        | _ => readNode fuel true false
      return item :: (← readItems fuel)
    | _ => failure

/-- Items in the column of the name that they belong to. -/
def readFlushItems : (fuel : Nat) → Reader (List Yaml)
  | 0 => failure
  | fuel + 1 => do
    match ← peek with
    | .item =>
      skip
      let item ← match ← peek with
        | .item | .key | .value | .blockEnd => pure null
        | _ => readNode fuel true false
      return item :: (← readFlushItems fuel)
    | _ => return []

/-- A name or a value of a member on lines of its own. -/
def readPart : (fuel : Nat) → Reader Yaml
  | 0 => failure
  | fuel + 1 => do
    match ← peek with
    | .key | .value | .blockEnd => return null
    | _ => readNode fuel true true

/-- Members on lines of their own. -/
def readMembers : (fuel : Nat) → Reader (List (Yaml × Yaml))
  | 0 => failure
  | fuel + 1 => do
    let name ← match ← peek with
      | .blockEnd =>
        skip
        return []
      | .key =>
        skip
        readPart fuel
      | .value => pure null
      | _ => failure
    let value ← match ← peek with
      | .value =>
        skip
        readPart fuel
      | _ => pure null
    return (name, value) :: (← readMembers fuel)

/-- A name or a value of a member between brackets, which ends before one of the tokens given. -/
def readFlowPart : (fuel : Nat) → (ends : List Token) → Reader Yaml
  | 0, _ => failure
  | fuel + 1, ends => do
    if ends.contains (← peek) then return null else readNode fuel false false

/-- Items between brackets; all but the first have a comma before them. -/
def readFlowItems : (fuel : Nat) → (first : Bool) → Reader (List Yaml)
  | 0, _ => failure
  | fuel + 1, first => do
    match ← peek, first with
    | .flowSequenceEnd, _ =>
      skip
      return []
    | .comma, false => skip
    | _, false => failure
    | _, true => pure ()
    match ← peek with
    | .flowSequenceEnd =>
      skip
      return []
    | .key =>
      skip
      let pair ← readPair fuel
      return .mapping [pair] :: (← readFlowItems fuel false)
    | _ =>
      let item ← readNode fuel false false
      return item :: (← readFlowItems fuel false)

/-- A member that is an item between brackets. -/
def readPair : (fuel : Nat) → Reader (Yaml × Yaml)
  | 0 => failure
  | fuel + 1 => do
    let name ← match ← peek with
      | .value | .comma | .flowSequenceEnd =>
        skip
        pure null
      | _ => readNode fuel false false
    match ← peek with
    | .value =>
      skip
      return (name, ← readFlowPart fuel [.comma, .flowSequenceEnd])
    | _ => return (name, null)

/-- Members between brackets; all but the first have a comma before them. -/
def readFlowMembers : (fuel : Nat) → (first : Bool) → Reader (List (Yaml × Yaml))
  | 0, _ => failure
  | fuel + 1, first => do
    match ← peek, first with
    | .flowMappingEnd, _ =>
      skip
      return []
    | .comma, false => skip
    | _, false => failure
    | _, true => pure ()
    match ← peek with
    | .flowMappingEnd =>
      skip
      return []
    | .key =>
      skip
      let name ← readFlowPart fuel [.value, .comma, .flowMappingEnd]
      let value ← readFlowValue fuel
      return (name, value) :: (← readFlowMembers fuel false)
    | .value =>
      let value ← readFlowValue fuel
      return (null, value) :: (← readFlowMembers fuel false)
    | _ =>
      let name ← readNode fuel false false
      return (name, null) :: (← readFlowMembers fuel false)

/-- The value of a member between brackets, if it has one. -/
def readFlowValue : (fuel : Nat) → Reader Yaml
  | 0 => failure
  | fuel + 1 => do
    match ← peek with
    | .value =>
      skip
      readFlowPart fuel [.comma, .flowMappingEnd]
    | _ => return null

end

end ReportPress.Yaml
