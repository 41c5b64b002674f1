import Worksheet.Value

namespace Worksheet.Log

inductive Level where
  | debug
  | info
  | warning
  | error
  | critical
  deriving DecidableEq, Repr

def Level.name : Level → String
  | debug => "DEBUG"
  | info => "INFO"
  | warning => "WARNING"
  | error => "ERROR"
  | critical => "CRITICAL"

def Level.number : Level → Nat
  | debug => 10
  | info => 20
  | warning => 30
  | error => 40
  | critical => 50

structure Entry where
  level : Level
  message : String
  fields : List (String × Value)
  deriving Repr

-- A result with the entries that led to it, the earliest first.
structure Logged (α : Type) where
  entries : List Entry
  result : α
  deriving Repr

namespace Logged

def of (result : α) : Logged α := ⟨[], result⟩

def after (l : Logged α) (entries : List Entry) : Logged α := ⟨entries ++ l.entries, l.result⟩

end Logged

end Worksheet.Log
