import Worksheet.Sequence
import Worksheet.Text.Blank
import Worksheet.Text.Case

namespace Worksheet.Http

structure Request where
  method : String
  target : String
  headers : List (String × String)
  body : List UInt8
  deriving DecidableEq, Repr

namespace Request

def verb (r : Request) : String := String.ofList (r.method.toList.map Char.toUpper)

def header? (r : Request) (name : String) : Option String :=
  (r.headers.find? (fun h => String.ofList (h.1.toList.map Char.toLower) = name)).map (·.2)

end Request

-- What does not have exactly one slash counts as plain text.
def mediaType (contentType : String) : List Char × List Char :=
  let named := Chars.lower (Chars.trim (contentType.toList.takeWhile (· != ';')))
  match pieces (· == '/') named with
  | [main, sub] => (main, sub)
  | _ => ("text".toList, "plain".toList)

def namesJson (contentType : String) : Bool :=
  let (main, sub) := mediaType contentType
  main == "application".toList && (sub == "json".toList || "+json".toList.isSuffixOf sub)

end Worksheet.Http
