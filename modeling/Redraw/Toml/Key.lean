import Redraw.Toml.Text

/-!
# Keys

A key is a path of parts with points between them; each part is a bare word or a text in quotes. The number
of parts is limited.
-/

namespace Redraw.Toml

/-- A character of a bare part. -/
def isKeyChar (c : Char) : Bool := c.isAlphanum || c == '_' || c == '-'

def keyPart? : List Char → Option (String × List Char)
  | '\x22' :: rest => (basicText rest).map fun r => (String.ofList r.1, r.2)
  | '\x27' :: rest => (literalText rest).map fun r => (String.ofList r.1, r.2)
  | cs =>
    let (word, rest) := cs.span isKeyChar
    if word.isEmpty then none else some (String.ofList word, rest)

/-- Reads a key of at most `limit` parts. Blanks around the points and after the key are skipped. -/
def keyWithin : (limit : Nat) → List Char → Option (List String × List Char)
  | 0, _ => none
  | limit + 1, cs => do
    let (part, rest) ← keyPart? cs
    match skipBlanks rest with
    | '.' :: rest =>
      let (parts, rest) ← keyWithin limit (skipBlanks rest)
      return (part :: parts, rest)
    | rest => return ([part], rest)

def maxParts : Nat := 80

def key? (cs : List Char) : Option (List String × List Char) := keyWithin maxParts cs

end Redraw.Toml
