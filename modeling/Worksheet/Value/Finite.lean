import Worksheet.Value

namespace Worksheet.Value

mutual

def isFinite : Value → Bool
  | float x => x.isFinite
  | list items => areFinite items
  | map entries => haveFinite entries
  | _ => true

def areFinite : List Value → Bool
  | [] => true
  | v :: items => isFinite v && areFinite items

def haveFinite : List (String × Value) → Bool
  | [] => true
  | (_, v) :: entries => isFinite v && haveFinite entries

end

mutual

def madeFinite : Value → Value
  | float x => if x.isFinite then float x else null
  | list items => list (itemsMadeFinite items)
  | map entries => map (entriesMadeFinite entries)
  | v => v

def itemsMadeFinite : List Value → List Value
  | [] => []
  | v :: items => madeFinite v :: itemsMadeFinite items

def entriesMadeFinite : List (String × Value) → List (String × Value)
  | [] => []
  | (key, v) :: entries => (key, madeFinite v) :: entriesMadeFinite entries

end

mutual

def isWhole : Value → Bool
  | torn _ => false
  | list items => areWhole items
  | map entries => haveWhole entries
  | _ => true

def areWhole : List Value → Bool
  | [] => true
  | v :: items => isWhole v && areWhole items

def haveWhole : List (String × Value) → Bool
  | [] => true
  | (_, v) :: entries => isWhole v && haveWhole entries

end

end Worksheet.Value
