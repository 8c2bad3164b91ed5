import TapeIL.Yaml.Characters
import TapeIL.Yaml.Node
import TapeIL.Yaml.Tokens

/-!
The first document of a text as a value. The grammar is read from left to right, one token ahead;
the tokens behind the document only matter where they are looked at.
-/

namespace TapeIL.Yaml

/-- The tokens that are left, and what names and tags stand for. -/
structure Composer where
  tokens : List Token
  complete : Bool
  anchors : List (Bytes × Option Node) := []
  tags : List (Bytes × Bytes) := []
deriving Repr, Inhabited

abbrev Compose (α : Type) := StateT Composer (Except Malformed) α

namespace Compose

def fail {α : Type} : Compose α :=
  throw {}

/--
The next token. The tokens are known two ahead of the one that is looked at, so a text that is
malformed there is refused.
-/
def peek : Compose Token := do
  match (← get).tokens with
  | [] => fail
  | [token] | [token, _] => if (← get).complete then return token else fail
  | token :: _ => return token

def skip : Compose Unit :=
  modify fun c => { c with tokens := c.tokens.tail }

/-- The value that was named last with this name. -/
def lookUp (name : Bytes) : Compose (Option Node) := do
  match (← get).anchors.lookup name with
  | some target => return target
  | none => fail

/-- Notes that a value with this name starts here. -/
def openAnchor (name? : Option Bytes) : Compose Unit :=
  match name? with
  | some name => modify fun c => { c with anchors := (name, none) :: c.anchors }
  | none => return ()

/--
Notes the value with this name, if no value inside of it has taken the name. Where the name stands
inside of the value, it is given the value there.
-/
def closeAnchor (name? : Option Bytes) (node : Node) : Compose Node :=
  match name? with
  | some name => do
      let node := node.fill name node
      modify fun c =>
        match c.anchors.lookup name with
        | some none => { c with anchors := (name, some node) :: c.anchors }
        | _ => c
      return node
  | none => return node

/-- The full name of a tag. -/
def tagName (handle suffix : Bytes) : Compose Bytes := do
  if handle.isEmpty then return suffix
  else
    match (← get).tags.lookup handle with
    | some start => return start ++ suffix
    | none => fail

/-- The name and the tag before a value, in either order. -/
structure Properties where
  anchor? : Option Bytes := none
  tag? : Option Bytes := none
deriving DecidableEq, Repr, Inhabited

/-- Reads the properties of a value. The tag is looked up once both are read. -/
def properties : Compose Properties := do
  match (← peek).kind with
  | .anchor name =>
      skip
      match (← peek).kind with
      | .tag handle suffix =>
          skip
          return { anchor? := some name, tag? := some (← tagName handle suffix) }
      | _ => return { anchor? := some name }
  | .tag handle suffix =>
      skip
      match (← peek).kind with
      | .anchor name =>
          skip
          return { anchor? := some name, tag? := some (← tagName handle suffix) }
      | _ => return { tag? := some (← tagName handle suffix) }
  | _ => return {}

/-- The tag of a value that is `usual` unless another one is given. -/
def Properties.tagOr (p : Properties) (usual : Tag) : Tag :=
  match p.tag? with
  | some name => if name.isEmpty || name == text "!" then usual else Tag.ofName name
  | none => usual

/-- The tag of a scalar for which none is given. -/
def scalarTag (plain : Bool) (value : Bytes) : Tag :=
  if !plain then .str
  else if value == text "<<" then .merge
  else (Scalar.resolve value).tag

/-- The value at the cursor is left out if a token follows that cannot start one. -/
def orEmpty (line : Nat) (ends : Token.Kind → Bool) (node : Compose Node) : Compose Node := do
  if ends (← peek).kind then return Node.empty line else node

def endsItem (kind : Token.Kind) : Bool :=
  kind == .item || kind == .blockEnd

def endsPair (kind : Token.Kind) : Bool :=
  kind == .key || kind == .value || kind == .blockEnd

def endsCompactItem (kind : Token.Kind) : Bool :=
  kind == .item || endsPair kind

def endsListValue (kind : Token.Kind) : Bool :=
  kind == .comma || kind == .closeList

def endsMapValue (kind : Token.Kind) : Bool :=
  kind == .comma || kind == .closeMap

/-- A value of which only the properties are written down. -/
def bare (line : Nat) (p : Properties) : Compose Node :=
  if p.anchor?.isNone && p.tag?.isNone then fail
  else return .scalar line (p.tagOr .null) []

mutual

/-- A value. `inBlock` allows blocks, and `compact` a sequence that is not indented. -/
def node : (fuel : Nat) → (inBlock compact : Bool) → Compose Node
  | 0, _, _ => fail
  | fuel + 1, inBlock, compact => do
      let first ← peek
      match first.kind with
      | .alias name =>
          skip
          return .alias first.line name (← lookUp name)
      | _ =>
          let p ← properties
          let line := first.line
          let token ← peek
          openAnchor p.anchor?
          let made ← match token.kind with
            | .scalar plain value =>
                skip
                pure (Node.scalar line (p.tagOr (scalarTag plain value)) value)
            | .openList =>
                skip
                pure (Node.sequence line (p.tagOr .seq) (← listItems fuel true))
            | .openMap =>
                skip
                pure (Node.mapping line (p.tagOr .map) (← mapPairs fuel true))
            | .item =>
                if compact then
                  pure (Node.sequence line (p.tagOr .seq) (← compactItems fuel))
                else bare line p
            | .sequenceStart =>
                if inBlock then
                  skip
                  pure (Node.sequence line (p.tagOr .seq) (← blockItems fuel))
                else bare line p
            | .mappingStart =>
                if inBlock then
                  skip
                  pure (Node.mapping line (p.tagOr .map) (← blockPairs fuel))
                else bare line p
            | _ => bare line p
          closeAnchor p.anchor? made

/-- The items of an indented sequence. -/
def blockItems : (fuel : Nat) → Compose (List Node)
  | 0 => fail
  | fuel + 1 => do
      let token ← peek
      match token.kind with
      | .item =>
          skip
          let item ← orEmpty token.line endsItem (node fuel true false)
          return item :: (← blockItems fuel)
      | .blockEnd =>
          skip
          return []
      | _ => fail

/-- The items of a sequence that is not indented. -/
def compactItems : (fuel : Nat) → Compose (List Node)
  | 0 => fail
  | fuel + 1 => do
      let token ← peek
      match token.kind with
      | .item =>
          skip
          let item ← orEmpty token.line endsCompactItem (node fuel true false)
          return item :: (← compactItems fuel)
      | _ => return []

/-- The pairs of an indented mapping. -/
def blockPairs : (fuel : Nat) → Compose (List (Node × Node))
  | 0 => fail
  | fuel + 1 => do
      let token ← peek
      match token.kind with
      | .key =>
          skip
          let key ← orEmpty token.line endsPair (node fuel true true)
          let token ← peek
          let value ← match token.kind with
            | .value =>
                skip
                orEmpty token.line endsPair (node fuel true true)
            | _ => pure (Node.empty token.line)
          return (key, value) :: (← blockPairs fuel)
      | .blockEnd =>
          skip
          return []
      | _ => fail

/-- The items of a sequence in brackets. -/
def listItems : (fuel : Nat) → (atStart : Bool) → Compose (List Node)
  | 0, _ => fail
  | fuel + 1, atStart => do
      if (← peek).kind == .closeList then
        skip
        return []
      else
        if !atStart then
          if (← peek).kind == .comma then skip else fail
        let token ← peek
        match token.kind with
        | .closeList =>
            skip
            return []
        | .key =>
            skip
            let pair ← listPair fuel
            return .mapping token.line .map [pair] :: (← listItems fuel false)
        | _ =>
            let item ← node fuel false false
            return item :: (← listItems fuel false)

/-- A pair that stands alone in a sequence in brackets. A token that ends a missing key is lost. -/
def listPair : (fuel : Nat) → Compose (Node × Node)
  | 0 => fail
  | fuel + 1 => do
      let token ← peek
      let key ←
        if token.kind == .value || endsListValue token.kind then do
          skip
          pure (Node.empty token.line)
        else node fuel false false
      let token ← peek
      match token.kind with
      | .value =>
          skip
          let value ← orEmpty (← peek).line endsListValue (node fuel false false)
          return (key, value)
      | _ => return (key, Node.empty token.line)

/-- The pairs of a mapping in brackets. -/
def mapPairs : (fuel : Nat) → (atStart : Bool) → Compose (List (Node × Node))
  | 0, _ => fail
  | fuel + 1, atStart => do
      if (← peek).kind == .closeMap then
        skip
        return []
      else
        if !atStart then
          if (← peek).kind == .comma then skip else fail
        let token ← peek
        match token.kind with
        | .closeMap =>
            skip
            return []
        | .key =>
            skip
            let token ← peek
            let key ← orEmpty token.line (fun k => k == .value || endsMapValue k)
              (node fuel false false)
            let token ← peek
            let value ← match token.kind with
              | .value =>
                  skip
                  orEmpty (← peek).line endsMapValue (node fuel false false)
              | _ => pure (Node.empty token.line)
            return (key, value) :: (← mapPairs fuel false)
        | _ =>
            let key ← node fuel false false
            let value := Node.empty (← peek).line
            return (key, value) :: (← mapPairs fuel false)

end

/-- Handles that stand for a tag unless a directive says otherwise. -/
def usualTags : List (Bytes × Bytes) :=
  [(text "!", text "!"), (text "!!", Tag.space)]

/-- Reads the directives of a document. The version is 1.1, and nothing is said twice. -/
def directives : (fuel : Nat) → (version : Bool) → Compose Unit
  | 0, _ => fail
  | fuel + 1, version => do
      match (← peek).kind with
      | .versionDirective major minor =>
          if version || major != 1 || minor != 1 then fail
          else
            skip
            directives fuel true
      | .tagDirective handle start =>
          if ((← get).tags.lookup handle).isSome then fail
          else
            modify fun c => { c with tags := (handle, start) :: c.tags }
            skip
            directives fuel version
      | _ => modify fun c => { c with tags := c.tags ++ usualTags }

/-- Whether a document has no value: what follows its start belongs to another one. -/
def endsDocument : Token.Kind → Bool
  | .versionDirective .. | .tagDirective .. | .documentStart | .documentEnd | .streamEnd => true
  | _ => false

/-- The value of the first document, if there is a document. What follows it is looked at. -/
def document (fuel : Nat) : Compose (Option Node) := do
  match (← peek).kind with
  | .streamEnd => return none
  | .versionDirective .. | .tagDirective .. | .documentStart =>
      directives fuel false
      if (← peek).kind != .documentStart then fail
      skip
      let token ← peek
      let root ← orEmpty token.line endsDocument (node fuel true false)
      discard peek
      return some root
  | _ =>
      directives fuel false
      let root ← node fuel true false
      discard peek
      return some root

end Compose

/-- The value of the first document of a text, if there is one. -/
def document (source : Bytes) : Result (Option Node) :=
  match characters? source with
  | none => malformed
  | some cs =>
      let tokens := Tokens.ofCharacters cs
      let fuel := 2 * tokens.list.length + 4
      match (Compose.document fuel).run { tokens := tokens.list, complete := tokens.complete } with
      | .ok (root, _) => .ok root
      | .error e => .error e

end TapeIL.Yaml
