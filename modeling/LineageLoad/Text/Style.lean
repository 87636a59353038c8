/-!
Text for terminals, in bold face and in colours.
-/

namespace LineageLoad
namespace Text

/-- A text between the sequence that turns a style on and the one that turns all styles off. -/
def styled (codes text : String) : String := "\x1b[" ++ codes ++ "m" ++ text ++ "\x1b[0m"

def bold (text : String) : String := styled "1" text

def boldRed (text : String) : String := styled "1;31" text

def boldBlue (text : String) : String := styled "1;34" text

end Text
end LineageLoad
