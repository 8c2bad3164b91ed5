import TapeIL.Text.Quoted
import TapeIL.Yaml.Document

/-!
Reading values of given types from a document. A value of another type is a problem; reading goes
on behind it, and the problems are reported together.
-/

namespace TapeIL.Yaml

/-- What does not fit in a document that is well formed. Types are given by name. -/
inductive Problem where
  | mismatch (line : Nat) (tag : Tag) (value target : Bytes)
  | unknownField (line : Nat) (name target : Bytes)
  | repeatedField (line : Nat) (name target : Bytes)
  | repeatedKey (line : Nat) (key : Bytes) (first : Nat)
deriving DecidableEq, Repr, Inhabited

namespace Problem

/-- A value in a message; a long one is cut. -/
def shownValue (tag : Tag) (value : Bytes) : Bytes :=
  if tag = .seq ∨ tag = .map then value
  else if 10 < value.length then text " \x60" ++ value.take 7 ++ text "...\x60"
  else text " \x60" ++ value ++ text "\x60"

def line : Problem → Nat
  | .mismatch line ..
  | .unknownField line ..
  | .repeatedField line ..
  | .repeatedKey line .. => line

def message (p : Problem) : Bytes :=
  text "line " ++ Bytes.decimal p.line ++ text ": " ++ match p with
    | .mismatch _ tag value target =>
        text "cannot unmarshal " ++ tag.name ++ shownValue tag value ++ text " into " ++ target
    | .unknownField _ name target =>
        text "field " ++ name ++ text " not found in type " ++ target
    | .repeatedField _ name target =>
        text "field " ++ name ++ text " already set in type " ++ target
    | .repeatedKey _ key first =>
        text "mapping key " ++ key.quoted ++ text " already defined at line " ++ Bytes.decimal first

end Problem

/-- Why a document cannot be read. -/
inductive ReadError where
  | malformed
  | problems (ps : List Problem)
deriving DecidableEq, Repr, Inhabited

def ReadError.message : ReadError → Bytes
  | .malformed => text "yaml: malformed document"
  | .problems ps =>
      text "yaml: unmarshal errors:\n  " ++ Bytes.join (text "\n  ") (ps.map Problem.message)

/-- The value of a digit in base 64. -/
def base64Value? (b : UInt8) : Option Nat :=
  (base64Digits.map Bytes.code).idxOf? b

/-- The bytes that digits in base 64 encode; the last group of four is filled up. -/
def ofBase64? : Bytes → Option Bytes
  | [] => some []
  | [a, b, 61, 61] => do
      let a ← base64Value? a
      let b ← base64Value? b
      return [(a * 4 + b / 16).toUInt8]
  | [a, b, c, 61] => do
      let a ← base64Value? a
      let b ← base64Value? b
      let c ← base64Value? c
      return [(a * 4 + b / 16).toUInt8, (b * 16 + c / 4).toUInt8]
  | a :: b :: c :: d :: rest => do
      let a ← base64Value? a
      let b ← base64Value? b
      let c ← base64Value? c
      let d ← base64Value? d
      let more ← ofBase64? rest
      return (a * 4 + b / 16).toUInt8 :: (b * 16 + c / 4).toUInt8 :: (c * 64 + d).toUInt8 :: more
  | _ => none

/-- What a scalar stands for. A tag that a document gives has to be the one of the value. -/
def scalarValue (tag : Tag) (value : Bytes) : Result Scalar :=
  match tag with
  | .null | .bool | .int | .float | .timestamp =>
      let resolved := Scalar.resolve value
      if resolved.tag = tag then .ok resolved
      else
        match tag, resolved with
        | .float, .int n =>
            match Double.ofDecimal? (decide (n < 0)) n.natAbs 0 with
            | some d => if n < Numeral.signedLimit then .ok (.float d) else malformed
            | none => malformed
        | _, _ => malformed
  | .binary =>
      match ofBase64? (value.filter fun b => b != 10 && b != 13) with
      | some bytes => .ok (.str bytes)
      | none => malformed
  | _ => .ok (.str value)

namespace Node

/-- The value that a node is or names. -/
def target : Node → Result Node
  | .alias _ _ (some node) => .ok node
  | .alias _ _ none => malformed
  | node => .ok node

/-- The keys that repeat an earlier one. -/
def repeatedKeys : List (Node × Node) → List Problem
  | [] => []
  | (key, _) :: pairs =>
      (pairs.filter fun (other, _) => key.sameKey other).map
          (fun (other, _) => .repeatedKey other.line other.keyText key.line)
        ++ repeatedKeys pairs

/-- The pairs of one mapping, or the problem with it. -/
inductive Layer where
  | pairs (pairs : List (Node × Node))
  | broken (problems : List Problem)
deriving Repr, Inhabited

mutual

/--
The pairs of a mapping and of those that it takes over, the closest first. A sequence of mappings
is taken over in order, where `several` allows one.
-/
def layers (several : Bool) : Node → Result (List Layer)
  | .mapping _ _ pairs =>
      match repeatedKeys pairs with
      | [] => do
          let merged ← mergedLayers pairs
          return .pairs (pairs.filter fun (key, _) => !key.isMerge) :: merged
      | problems => .ok [.broken problems]
  | .sequence _ _ items => if several then itemLayers items else malformed
  | .alias _ _ (some node) => node.layers false
  | .alias _ _ none => malformed
  | .scalar .. => malformed

/-- The layers that the pairs of a mapping take over. -/
def mergedLayers : List (Node × Node) → Result (List Layer)
  | [] => .ok []
  | (key, value) :: pairs => if key.isMerge then value.layers true else mergedLayers pairs

def itemLayers : List Node → Result (List Layer)
  | [] => .ok []
  | item :: items => do
      let first ← item.layers false
      let more ← itemLayers items
      return first ++ more

end

end Node

/-- A computation that collects problems, the newest first. -/
abbrev Reading (α : Type) := StateT (List Problem) (Except Malformed) α

namespace Reading

def report (p : Problem) : Reading Unit :=
  modify (p :: ·)

/-- Reports a value that is not of the type asked for. Repeated keys are reported instead. -/
def refuse (target : Bytes) : Node → Reading Unit
  | .scalar line tag value => report (.mismatch line tag value target)
  | .sequence line tag _ => report (.mismatch line tag [] target)
  | .mapping line tag pairs =>
      match Node.repeatedKeys pairs with
      | [] => report (.mismatch line tag [] target)
      | problems => problems.forM report
  | .alias .. => return ()

/-- Reads a scalar. Nothing is read from a null, and nothing from a value that is refused. -/
def scalar {α : Type} (target : Bytes) (convert : (value : Bytes) → Scalar → Option α)
    (node : Node) : Reading (Option α) := do
  let node ← node.target
  match node with
  | .scalar _ tag value =>
      match ← scalarValue tag value with
      | .null => return none
      | resolved =>
          match convert value resolved with
          | some a => return some a
          | none =>
              refuse target node
              return none
  | _ =>
      refuse target node
      return none

/-- Any scalar is a string: its text, or the bytes that it encodes. -/
def string : Node → Reading (Option Bytes) :=
  scalar (text "string") fun value resolved => match resolved with
    | .str bytes => some bytes
    | _ => some value

/-- A 64-bit integer. A fraction is cut off. -/
def integer : Node → Reading (Option Int) :=
  scalar (text "int") fun _ resolved => match resolved with
    | .int n => if n < Numeral.signedLimit then some n else none
    | .float d => d.toInt?
    | _ => none

/-- A truth value, or a word that once was one. -/
def boolean : Node → Reading (Option Bool) :=
  scalar (text "bool") fun _ resolved => match resolved with
    | .bool b => some b
    | .str word =>
        if Scalar.oldTruths.any fun w => text w == word then some true
        else if Scalar.oldFalsehoods.any fun w => text w == word then some false
        else none
    | _ => none

/-- The items of a sequence from which something is read. A null is an empty sequence. -/
def sequence {α : Type} (target : Bytes) (item : Node → Reading (Option α)) (node : Node) :
    Reading (List α) := do
  let node ← node.target
  match node with
  | .sequence _ _ items => items.filterMapM item
  | .scalar _ tag value =>
      if (← scalarValue tag value) != .null then refuse target node
      return []
  | _ =>
      refuse target node
      return []

/-- The text of a key that is a string by itself. -/
def keyName? (key : Node) : Option Bytes :=
  match key.target with
  | .ok (.scalar _ tag value) =>
      match scalarValue tag value with
      | .ok (.str bytes) => some bytes
      | _ => none
  | _ => none

/-- What a field does to a value that is being read. -/
abbrev Field (α : Type) := α → Node → Reading α

/--
Reads the pairs of a mapping into fields. A field whose name is among `seen` is passed over; the
names so far are given back.
-/
def pairs {α : Type} (target : Bytes) (strict : Bool) (field? : Bytes → Option (Field α)) :
    (seen? : Option (List Bytes)) → (done : List Bytes) → α → List (Node × Node) →
      Reading (α × List Bytes)
  | seen?, _, a, [] => return (a, seen?.getD [])
  | seen?, done, a, (key, value) :: rest => do
      match ← string key with
      | none => pairs target strict field? seen? done a rest
      | some name =>
          if (seen?.getD []).contains name then pairs target strict field? seen? done a rest
          else
            let seen? := seen?.map (name :: ·)
            match field? name with
            | some field =>
                if done.contains name then
                  report (.repeatedField key.line name target)
                  pairs target strict field? seen? done a rest
                else
                  let a ← field a value
                  pairs target strict field? seen? (name :: done) a rest
            | none =>
                if strict then report (.unknownField key.line name target)
                pairs target strict field? seen? done a rest

/-- Reads the layers of a mapping behind the first. A field that is set already stays as it is. -/
def layers {α : Type} (target : Bytes) (strict : Bool) (field? : Bytes → Option (Field α)) :
    (seen : List Bytes) → α → List Node.Layer → Reading α
  | _, a, [] => return a
  | seen, a, .broken problems :: rest => do
      problems.forM report
      layers target strict field? seen a rest
  | seen, a, .pairs found :: rest => do
      let (a, seen) ← pairs target strict field? (some seen) [] a found
      layers target strict field? seen a rest

/--
Reads a mapping into the fields of a value that is `start` at first. Where `strict` is set, a name
of no field is a problem. Nothing is read from a null.
-/
def record {α : Type} (target : Bytes) (strict : Bool) (field? : Bytes → Option (Field α))
    (start : α) (node : Node) : Reading (Option α) := do
  let node ← node.target
  match node with
  | .mapping .. =>
      match ← node.layers false with
      | .pairs first :: rest =>
          let (a, _) ← pairs target strict field? none [] start first
          let a ← layers target strict field? (first.filterMap fun (key, _) => keyName? key) a rest
          return some a
      | .broken problems :: _ =>
          problems.forM report
          return none
      | [] => return some start
  | .scalar _ tag value =>
      if (← scalarValue tag value) != .null then refuse target node
      return none
  | _ =>
      refuse target node
      return none

end Reading

/-- Reads the first document of a text. `start` is what an empty text stands for. -/
def read {α : Type} (reader : Node → Reading (Option α)) (start : α) (source : Bytes) :
    Except ReadError α :=
  match document source with
  | .error _ => .error .malformed
  | .ok none => .ok start
  | .ok (some root) =>
      match (reader root).run [] with
      | .error _ => .error .malformed
      | .ok (a, []) => .ok (a.getD start)
      | .ok (_, problems) => .error (.problems problems.reverse)

end TapeIL.Yaml
