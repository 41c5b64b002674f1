import Worksheet.Decimal.Shortest
import Worksheet.Text.Quoted

namespace Worksheet

-- The entries of a map stand in the order in which they were sent.
inductive Value where
  | null
  | bool (b : Bool)
  | int (n : Int)
  | float (x : Float)
  | str (s : String)
  | torn (shown : String)
  | list (items : List Value)
  | map (entries : List (String × Value))
  deriving Repr

namespace Value

def kindName : Value → String
  | null => "NoneType"
  | bool _ => "bool"
  | int _ => "int"
  | float _ => "float"
  | str _ | torn _ => "str"
  | list _ => "list"
  | map _ => "dict"

-- False, zero and whatever is empty do not count as given.
def isGiven : Value → Bool
  | null => false
  | bool b => b
  | int n => n != 0
  | float x => !(x == 0.0)
  | str s | torn s => s != ""
  | list items => !items.isEmpty
  | map entries => !entries.isEmpty

mutual

-- The value as it is written inside another one.
def literal : Value → String
  | null => "None"
  | bool true => "True"
  | bool false => "False"
  | int n => toString n
  | float x => Decimal.text x
  | str s | torn s => Text.quoted s
  | list items => "[" ++ String.intercalate ", " (itemLiterals items) ++ "]"
  | map entries => "\x7b" ++ String.intercalate ", " (entryLiterals entries) ++ "\x7d"

def itemLiterals : List Value → List String
  | [] => []
  | v :: items => literal v :: itemLiterals items

def entryLiterals : List (String × Value) → List String
  | [] => []
  | (key, v) :: entries => (Text.quoted key ++ ": " ++ literal v) :: entryLiterals entries

end

-- The value as it is written by itself: text stands without quotes.
def text : Value → String
  | str s => s
  | v => literal v

def find? (v : Value) (key : String) : Option Value :=
  match v with
  | map entries => entries.lookup key
  | _ => none

end Value

end Worksheet
