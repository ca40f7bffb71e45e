/-!
# Lower case of plain words

Lower-casing as far as a comparison with a word of ASCII letters can see it. Outside ASCII one
character alone has an ASCII letter as its lower case: the Kelvin sign. Every other capital lowers to
something that such a word does not contain, and so may stay as it is.
-/

namespace Redraw.Text

def kelvinSign : Char := Char.ofNat 0x212A

/-- Lower case among the ASCII letters; the Kelvin sign becomes the letter k. -/
def lowerChar (c : Char) : Char := if c = kelvinSign then 'k' else c.toLower

def lower (s : String) : String := String.ofList (s.toList.map lowerChar)

end Redraw.Text
