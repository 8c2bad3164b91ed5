import TapeIL.Yaml.Scalar

/-!
The values that a document describes: scalars, sequences and mappings, and names for values that
stand elsewhere.
-/

namespace TapeIL.Yaml

/--
A value, with the line that it starts on. A name may stand inside of the value that it names; its
value is missing where it would hold itself once more.
-/
inductive Node where
  | scalar (line : Nat) (tag : Tag) (value : Bytes)
  | sequence (line : Nat) (tag : Tag) (items : List Node)
  | mapping (line : Nat) (tag : Tag) (pairs : List (Node × Node))
  | alias (line : Nat) (name : Bytes) (target : Option Node)
deriving Repr, Inhabited

namespace Node

def line : Node → Nat
  | .scalar line _ _ | .sequence line _ _ | .mapping line _ _ | .alias line _ _ => line

/-- A value that is not written down. -/
def empty (line : Nat) : Node :=
  .scalar line .null []

mutual

/-- Gives a value to the places with a name whose value is missing. -/
def fill (name : Bytes) (value : Node) : Node → Node
  | .scalar line tag source => .scalar line tag source
  | .sequence line tag items => .sequence line tag (fillItems name value items)
  | .mapping line tag pairs => .mapping line tag (fillPairs name value pairs)
  | .alias line other (some target) => .alias line other (some target)
  | .alias line other none => .alias line other (if other = name then some value else none)

def fillItems (name : Bytes) (value : Node) : List Node → List Node
  | [] => []
  | item :: items => fill name value item :: fillItems name value items

def fillPairs (name : Bytes) (value : Node) : List (Node × Node) → List (Node × Node)
  | [] => []
  | (key, found) :: pairs =>
      (fill name value key, fill name value found) :: fillPairs name value pairs

end

/-- Whether a key asks for the pairs of another mapping. -/
def isMerge : Node → Bool
  | .scalar _ tag value => tag == .merge && value == text "<<"
  | _ => false

/-- Whether two keys of a mapping are written alike. -/
def sameKey : Node → Node → Bool
  | .scalar _ _ a, .scalar _ _ b => a == b
  | .alias _ a _, .alias _ b _ => a == b
  | .sequence .., .sequence .. => true
  | .mapping .., .mapping .. => true
  | _, _ => false

/-- The text of a key, which is empty for a collection. -/
def keyText : Node → Bytes
  | .scalar _ _ value => value
  | .alias _ name _ => name
  | _ => []

end Node
end TapeIL.Yaml
