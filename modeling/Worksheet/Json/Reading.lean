import Worksheet.Json.Lexeme
import Worksheet.OrderedMap

namespace Worksheet.Json

inductive Frame where
  | list (items : List Value)
  | map (entries : OrderedMap Value) (key : String) (whole : Bool)

inductive Expected where
  | value
  | item
  | key (entries : OrderedMap Value) (close : Bool)
  | colon (entries : OrderedMap Value) (key : String) (whole : Bool)
  | after (v : Value)

def putEntry (entries : OrderedMap Value) (key : String) (whole : Bool) (v : Value) :
    OrderedMap Value :=
  entries.put key (if whole then v else .torn key)

structure State where
  expected : Expected
  frames : List Frame

def deepest : Nat := 960

def State.enter (s : State) (expected : Expected) (frames : List Frame) : Except Fault State :=
  if s.frames.length < deepest then .ok ⟨expected, frames⟩ else .error .tooDeep

def State.begin (s : State) (offset : Nat) : Lexeme → Except Fault State
  | .openList => s.enter .item (.list [] :: s.frames)
  | .openMap => s.enter (.key ∅ true) s.frames
  | .text t whole => .ok ⟨.after (if whole then .str t else .torn t), s.frames⟩
  | .scalar v => .ok ⟨.after v, s.frames⟩
  | .brokenText place => .error (.unexpected place)
  | .longNumber => .error .tooManyDigits
  | _ => .error (.unexpected offset)

def State.step (s : State) (offset : Nat) (lexeme : Lexeme) : Except Fault State :=
  match s.expected, lexeme, s.frames with
  | .value, _, _ => s.begin offset lexeme
  | .item, .closeList, _ :: outer => .ok ⟨.after (.list []), outer⟩
  | .item, _, _ => s.begin offset lexeme
  | .key entries _, .text t whole, _ => .ok ⟨.colon entries t whole, s.frames⟩
  | .key _ _, .brokenText place, _ => .error (.unexpected place)
  | .key entries true, .closeMap, _ => .ok ⟨.after (.map entries.entries), s.frames⟩
  | .colon entries key whole, .colon, _ => .ok ⟨.value, .map entries key whole :: s.frames⟩
  | .after v, .comma, .list items :: outer => .ok ⟨.value, .list (v :: items) :: outer⟩
  | .after v, .comma, .map entries key whole :: outer =>
      .ok ⟨.key (putEntry entries key whole v) false, outer⟩
  | .after v, .closeList, .list items :: outer => .ok ⟨.after (.list (v :: items).reverse), outer⟩
  | .after v, .closeMap, .map entries key whole :: outer =>
      .ok ⟨.after (.map (putEntry entries key whole v).entries), outer⟩
  | _, _, _ => .error (.unexpected offset)

def readFrom (halves : List Nat) (s : State) (offset : Nat) : List Char → Except Fault Value
  | [] =>
      match s.expected, s.frames with
      | .after v, [] => .ok v
      | _, _ => .error (.unexpected offset)
  | c :: rest =>
      if isSpace c then readFrom halves s (offset + 1) rest
      else
        let cut := lexemeAt halves offset c rest
        match s.step offset cut.lexeme with
        | .error fault => .error fault
        | .ok next =>
            readFrom halves next (offset + 1 + (cut.length - 1)) (rest.drop (cut.length - 1))
termination_by cs => cs.length
decreasing_by
  · simp
  · simp only [List.length_drop, List.length_cons]; omega

def read (cs : List Char) : Except Fault Value := readFrom [] ⟨.value, []⟩ 0 cs

def readPoints (points : List Nat) : Except Fault Value :=
  let halves := (points.zipIdx.filter (fun e => isHalf e.1)).map (·.2)
  readFrom halves ⟨.value, []⟩ 0 (points.map shown)

end Worksheet.Json
