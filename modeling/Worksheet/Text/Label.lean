import Worksheet.Text.Blank
import Worksheet.Text.Case

namespace Worksheet

def normalizeLabel (label : String) : String := Text.lower (Text.collapse label)

def isLabelStart (c : Char) : Bool := c.isAlpha || c == '_'

def isLabelRest (c : Char) : Bool := c.isAlphanum || c == '_' || c == ' '

def isCategoryLabel (label : String) : Bool :=
  match label.toList with
  | [] => false
  | c :: cs => isLabelStart c && cs.all isLabelRest

end Worksheet
