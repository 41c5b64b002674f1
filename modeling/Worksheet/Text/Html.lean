namespace Worksheet

namespace Chars

def entity (c : Char) : List Char :=
  if c = '&' then "&amp;".toList
  else if c = '<' then "&lt;".toList
  else if c = '>' then "&gt;".toList
  else if c = '"' then "&quot;".toList
  else if c = '\'' then "&#39;".toList
  else [c]

def escapeHtml (cs : List Char) : List Char := cs.flatMap entity

end Chars

namespace Text

def escapeHtml (s : String) : String := .ofList (Chars.escapeHtml s.toList)

end Text

end Worksheet
