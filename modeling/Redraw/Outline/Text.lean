import Redraw.Outline.Trace
import Redraw.Number.Binary64

/-!
# Rectangles and outlines as text

A list of rectangles is written `[[[x1,y1],[x2,y2]],...]` and a list of outlines `[[[x,y],...],...]`,
all coordinates being integers. Blanks may stand between the parts of the first; the second is written
without any.
-/

namespace Redraw.Outline

/-! ### Parts of the text -/

inductive Token where
  | opening
  | closing
  | comma
  | integer (n : Int)
  deriving DecidableEq, Repr

namespace Token

def isBlank (c : Char) : Bool := c == ' ' || c == '\t' || c == '\n' || c == '\r'

def ofChar? : Char → Option Token
  | '[' => some opening
  | ']' => some closing
  | ',' => some comma
  | _ => none

/-- The number that decimal digits mean; a zero in front of others is refused. -/
def natural? : List Char → Option Nat
  | [] => none
  | ['0'] => some 0
  | '0' :: _ => none
  | digits =>
    if digits.all Char.isDigit then
      some (digits.foldl (fun n c => 10 * n + (c.toNat - 48)) 0)
    else none

/-- An integer of 64 bits; zero takes no sign. -/
def integer? (word : List Char) : Option Int := do
  let n ← match word with
    | '-' :: digits => do
      let n ← natural? digits
      if n = 0 then none else some (-(n : Int))
    | digits => do
      let n ← natural? digits
      some (n : Int)
  if Number.minInt64 ≤ n ∧ n ≤ Number.maxInt64 then some n else none

/-- Tokens read so far and the characters of the number that is being read, the last one first. -/
structure Scan where
  tokens : Array Token := #[]
  word : List Char := []

namespace Scan

def endWord (s : Scan) : Option Scan :=
  if s.word.isEmpty then some s
  else (integer? s.word.reverse).map fun n => ⟨s.tokens.push (.integer n), []⟩

def step (s : Scan) (c : Char) : Option Scan :=
  if c == '-' || c.isDigit then some { s with word := c :: s.word }
  else do
    let s ← s.endWord
    if isBlank c then return s
    return { s with tokens := s.tokens.push (← ofChar? c) }

end Scan

def scan? (cs : List Char) : Option (List Token) := do
  let s ← cs.foldlM Scan.step {}
  return (← s.endWord).tokens.toList

end Token

/-! ### Reading rectangles -/

/-- Reads rectangles up to the end of their list; `read` are those before. -/
def readCorners (read : Array Corners) : List Token → Option (List Corners)
  | .opening ::
      .opening :: .integer x1 :: .comma :: .integer y1 :: .closing :: .comma ::
      .opening :: .integer x2 :: .comma :: .integer y2 :: .closing ::
      .closing :: next :: rest =>
    let read := read.push ⟨⟨x1, y1⟩, ⟨x2, y2⟩⟩
    match next, rest with
    | .comma, rest => readCorners read rest
    | .closing, [] => some read.toList
    | _, _ => none
  | _ => none

def cornersOfText? (text : String) : Option (List Corners) := do
  match ← Token.scan? text.toList with
  | [.opening, .closing] => return []
  | .opening :: rest => readCorners #[] rest
  | _ => none

/-! ### Writing outlines -/

def bracketed (items : List String) : String := "[" ++ ",".intercalate items ++ "]"

def Point.text (p : Point) : String := bracketed [toString p.x, toString p.y]

def textOf (polygons : List Polygon) : String :=
  bracketed (polygons.map fun polygon => bracketed (polygon.map Point.text))

end Redraw.Outline
