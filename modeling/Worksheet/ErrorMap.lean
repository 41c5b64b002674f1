import Worksheet.OrderedMap

namespace Worksheet

class Problem (ι : Type) where
  key : ι → String
  message : ι → String

abbrev ErrorMap := OrderedMap String

namespace ErrorMap

def ofProblems [Problem ι] (problems : List ι) : ErrorMap :=
  OrderedMap.ofList (problems.map (fun p => (Problem.key p, Problem.message p)))

end ErrorMap

structure Validation where
  errors : ErrorMap
  deriving DecidableEq, Repr

def Validation.ok (v : Validation) : Bool := v.errors.isEmpty

end Worksheet
