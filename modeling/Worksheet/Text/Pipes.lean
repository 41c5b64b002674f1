import Worksheet.Text.Blank

namespace Worksheet

namespace Chars

def splitPipes (cs : List Char) : List String :=
  ((pieces (· == '|') cs).map (fun item => String.ofList (collapse item))).filter (· ≠ "")

end Chars

namespace Text

def splitPipes (s : String) : List String := Chars.splitPipes s.toList

end Text

end Worksheet
