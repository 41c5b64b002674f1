import Worksheet.Http.Route
import Worksheet.Value

namespace Worksheet.Http

inductive Content where
  | json (v : Value)
  | text (s : String)
  | html (s : String)
  deriving Repr

structure Answer where
  status : Int
  content : Content
  deriving Repr

-- What the framework writes by itself: its pages, and an exception with where it came from, in
-- plain text or as a page. Whether a body of no stated type is read as JSON depends on its version,
-- and which values are nested too deeply to be told again depends on where it runs.
structure Framework where
  page : Page → Content
  trace : String → String
  tracePage : String → String
  readsUntyped : Bool
  tooDeep : List Value → Option String

end Worksheet.Http
