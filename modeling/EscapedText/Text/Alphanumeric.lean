import EscapedText.Text.Alphabetic
import EscapedText.Text.Numeric

/-! Letters, digits and numbers of every script. -/
namespace EscapedText.Alphanumeric

def mem (c : Char) : Bool := Alphabetic.mem c || Numeric.mem c

end EscapedText.Alphanumeric
