/-!
Characters counted by the bytes that encode them. A cut at a number of bytes exists only between
characters, and loses none of them.
-/

namespace LineageLoad
namespace Text

/-- The number of bytes that encode characters. -/
def byteCount (characters : List Char) : Nat := characters.foldr (fun c n => c.utf8Size + n) 0

/-- The characters that the first bytes of a text encode, and the rest of them; there are none if
the text is shorter or the cut would go through a character.
-/
def splitBytes? (bytes : Nat) (text : List Char) : Option (List Char × List Char) :=
  match bytes, text with
  | 0, text => some ([], text)
  | _ + 1, [] => none
  | bytes + 1, c :: rest =>
    if c.utf8Size ≤ bytes + 1 then
      (splitBytes? (bytes + 1 - c.utf8Size) rest).map fun (front, back) => (c :: front, back)
    else none

end Text
end LineageLoad
