import Worksheet.OrderedMap
import Worksheet.Value

namespace Worksheet.Shape

inductive FaultKind where
  | notString
  | notWholeText
  | notList
  | notMap
  | notRecord
  | notObject
  | missing
  | notChoice
  | notLiteral
  | tagMissing
  | tagUnknown
  | notBoolean
  | notBooleanText
  | notInteger
  | notIntegerText
  | integerTooLong
  | notWhole
  | notFinite
  | notNumber
  | notNumberText
  | notAbove
  | tooSmall
  | tooLarge
  | malformedJson
  | refused (reason : String)
  deriving DecidableEq, Repr

def FaultKind.name : FaultKind → String
  | notString => "string_type"
  | notWholeText => "string_unicode"
  | notList => "list_type"
  | notMap => "dict_type"
  | notRecord => "model_type"
  | notObject => "model_attributes_type"
  | missing => "missing"
  | notChoice => "enum"
  | notLiteral => "literal_error"
  | tagMissing => "union_tag_not_found"
  | tagUnknown => "union_tag_invalid"
  | notBoolean => "bool_type"
  | notBooleanText => "bool_parsing"
  | notInteger => "int_type"
  | notIntegerText => "int_parsing"
  | integerTooLong => "int_parsing_size"
  | notWhole => "int_from_float"
  | notFinite => "finite_number"
  | notNumber => "float_type"
  | notNumberText => "float_parsing"
  | notAbove => "greater_than"
  | tooSmall => "greater_than_equal"
  | tooLarge => "less_than_equal"
  | malformedJson => "json_invalid"
  | refused _ => "value_error"

def FaultKind.message? : FaultKind → Option String
  | refused reason => some s!"Value error, {reason}"
  | _ => none

inductive Step where
  | key (name : String)
  | index (i : Nat)
  deriving DecidableEq, Repr

structure Fault where
  kind : FaultKind
  place : List Step
  deriving DecidableEq, Repr

def Step.toValue : Step → Value
  | key name => .str name
  | index i => .int i

def Fault.toValue (f : Fault) : Value :=
  .map ([("type", .str f.kind.name), ("loc", .list (f.place.map Step.toValue))] ++
    (f.kind.message?.map (fun message => ("msg", Value.str message))).toList)

abbrev Result (α : Type) := Except (List Fault) α

abbrev Reader (α : Type) := Value → Result α

def fail (kind : FaultKind) : Result α := .error [⟨kind, []⟩]

def below (step : Step) (r : Result α) : Result α :=
  r.mapError (fun faults => faults.map (fun f => { f with place := step :: f.place }))

def both (a : Result α) (b : Result β) : Result (α × β) :=
  match a, b with
  | .ok x, .ok y => .ok (x, y)
  | .ok _, .error faults => .error faults
  | .error faults, .ok _ => .error faults
  | .error faults, .error more => .error (faults ++ more)

def every : List (Result α) → Result (List α)
  | [] => .ok []
  | r :: rest => (both r (every rest)).map (fun (x, xs) => x :: xs)

def string : Reader String
  | .str s => .ok s
  | .torn _ => fail .notWholeText
  | _ => fail .notString

def anything : Reader Value := .ok

def optional (read : Reader α) : Reader (Option α)
  | .null => .ok none
  | v => (read v).map some

def listOf (read : Reader α) : Reader (List α)
  | .list items => every (items.zipIdx.map (fun (v, i) => below (.index i) (read v)))
  | _ => fail .notList

def mapOf (read : Reader α) : Reader (OrderedMap α)
  | .map entries =>
      (every (entries.map (fun (key, v) =>
        below (.key key) ((read v).map (fun x => (key, x)))))).map OrderedMap.ofList
  | _ => fail .notMap

def choice (ofName? : String → Option α) : Reader α
  | .str s =>
      match ofName? s with
      | some x => .ok x
      | none => fail .notChoice
  | _ => fail .notChoice

def literal (ofName? : String → Option α) : Reader α
  | .str s =>
      match ofName? s with
      | some x => .ok x
      | none => fail .notLiteral
  | _ => fail .notLiteral

def field (entries : List (String × Value)) (name : String) (default : Option α)
    (read : Reader α) : Result α :=
  match entries.lookup name, default with
  | some v, _ => below (.key name) (read v)
  | none, some x => .ok x
  | none, none => below (.key name) (fail .missing)

end Worksheet.Shape
