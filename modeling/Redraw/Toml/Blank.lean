/-!
# Blanks, line ends and comments

What may stand between the parts of a document. Readers take the characters that are left and give back
the characters after what they have read.
-/

namespace Redraw.Toml

def isBlank (c : Char) : Bool := c == ' ' || c == '\t'

/-- A control character other than a tab; none may stand in a comment or in a text of one line. -/
def isControl (c : Char) : Bool := (c.val < 0x20 && c != '\t') || c == '\x7f'

def skipBlanks (cs : List Char) : List Char := cs.dropWhile isBlank

/-- Skips a comment up to the end of its line. -/
def skipComment : List Char → List Char
  | '#' :: rest => rest.dropWhile fun c => !isControl c
  | cs => cs

/-- What follows a line feed or a carriage return with a line feed. -/
def newline? : List Char → Option (List Char)
  | '\n' :: rest => some rest
  | '\r' :: '\n' :: rest => some rest
  | _ => none

/-- Skips the rest of a line on which nothing but blanks and a comment is left. -/
def lineEnd? (cs : List Char) : Option (List Char) :=
  match skipComment (skipBlanks cs) with
  | [] => some []
  | rest => newline? rest

/-- Skips blanks, line ends and comments; `commented` says that a comment is open. -/
def skipLines (commented : Bool) : List Char → Option (List Char)
  | [] => some []
  | '\n' :: rest => skipLines false rest
  | '\r' :: '\n' :: rest => skipLines false rest
  | c :: rest =>
    if commented then
      if isControl c then none else skipLines true rest
    else if c == '#' then skipLines true rest
    else if isBlank c then skipLines false rest
    else some (c :: rest)

end Redraw.Toml
