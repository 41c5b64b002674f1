namespace Worksheet

inductive Family where
  | classification
  | table
  | recognition
  | seriation
  | association
  deriving DecidableEq, Repr

namespace Family

def name : Family → String
  | classification => "classification"
  | table => "table"
  | recognition => "recognition"
  | seriation => "seriation"
  | association => "association"

def all : List Family := [classification, table, recognition, seriation, association]

def ofName? (name : String) : Option Family := all.find? (·.name == name)

theorem ofName?_name (f : Family) : ofName? f.name = some f := by
  cases f <;> rfl

end Family

end Worksheet
