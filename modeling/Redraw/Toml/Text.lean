import Redraw.Toml.Blank

/-!
# Texts

The four ways to write a text: in double or single quotes, on one line or, with three quotes, on many.
Each reader starts after the opening quotes and gives the characters of the text and what follows the
closing quotes.
-/

namespace Redraw.Toml

/-! ### Escapes -/

def hexDigit? (c : Char) : Option Nat :=
  if c.isDigit then some (c.toNat - 48)
  else if 'a' ≤ c ∧ c ≤ 'f' then some (c.toNat - 87)
  else if 'A' ≤ c ∧ c ≤ 'F' then some (c.toNat - 55)
  else none

/-- The character whose code is written in hexadecimal digits. -/
def charOfHex? (digits : List Char) : Option Char := do
  let code := (← digits.mapM hexDigit?).foldl (fun n d => 16 * n + d) 0
  if code.isValidChar then some (Char.ofNat code) else none

def escaped? : Char → Option Char
  | 'b' => some '\x08'
  | 't' => some '\t'
  | 'n' => some '\n'
  | 'f' => some '\x0c'
  | 'r' => some '\r'
  | 'e' => some '\x1b'
  | '\x22' => some '\x22'
  | '\\' => some '\\'
  | _ => none

/-- A text and what follows it. -/
abbrev TextRest := List Char × List Char

def push (c : Char) (read : Option TextRest) : Option TextRest :=
  read.map fun r => (c :: r.1, r.2)

/-! ### On one line -/

/-- A text in double quotes. -/
def basicText : List Char → Option TextRest
  | [] => none
  | '\x22' :: rest => some ([], rest)
  | '\\' :: 'x' :: a :: b :: rest => do push (← charOfHex? [a, b]) (basicText rest)
  | '\\' :: 'u' :: a :: b :: c :: d :: rest => do
    push (← charOfHex? [a, b, c, d]) (basicText rest)
  | '\\' :: 'U' :: a :: b :: c :: d :: e :: f :: g :: h :: rest => do
    push (← charOfHex? [a, b, c, d, e, f, g, h]) (basicText rest)
  | '\\' :: c :: rest => do push (← escaped? c) (basicText rest)
  | c :: rest => if isControl c then none else push c (basicText rest)

/-- A text in single quotes; a backslash stands for itself. -/
def literalText : List Char → Option TextRest
  | [] => none
  | '\x27' :: rest => some ([], rest)
  | c :: rest => if isControl c then none else push c (literalText rest)

/-! ### On many lines -/

/-- The line has nothing but blanks left. -/
def endsLine (cs : List Char) : Bool := (newline? (skipBlanks cs)).isSome

/-- A text in three double quotes. `joining` says that a backslash at a line's end has been read, which
skips everything up to the next character that is not blank. Up to two quotes may stand before the
closing ones. -/
def basicLines (joining : Bool) : List Char → Option TextRest
  | [] => none
  | '\n' :: rest => if joining then basicLines true rest else push '\n' (basicLines false rest)
  | '\r' :: '\n' :: rest =>
    if joining then basicLines true rest
    else push '\r' (push '\n' (basicLines false rest))
  | '\x22' :: '\x22' :: '\x22' :: '\x22' :: '\x22' :: rest => some (['\x22', '\x22'], rest)
  | '\x22' :: '\x22' :: '\x22' :: '\x22' :: rest => some (['\x22'], rest)
  | '\x22' :: '\x22' :: '\x22' :: rest => some ([], rest)
  | '\\' :: 'x' :: a :: b :: rest => do push (← charOfHex? [a, b]) (basicLines false rest)
  | '\\' :: 'u' :: a :: b :: c :: d :: rest => do
    push (← charOfHex? [a, b, c, d]) (basicLines false rest)
  | '\\' :: 'U' :: a :: b :: c :: d :: e :: f :: g :: h :: rest => do
    push (← charOfHex? [a, b, c, d, e, f, g, h]) (basicLines false rest)
  | '\\' :: c :: rest =>
    match escaped? c with
    | some e => push e (basicLines false rest)
    | none =>
      if isBlank c && endsLine rest || c == '\n' || (c == '\r' && rest.head? == some '\n') then
        basicLines true rest
      else none
  | c :: rest =>
    if joining && isBlank c then basicLines true rest
    else if isControl c then none
    else push c (basicLines false rest)

/-- A text in three single quotes. -/
def literalLines : List Char → Option TextRest
  | [] => none
  | '\n' :: rest => push '\n' (literalLines rest)
  | '\r' :: '\n' :: rest => push '\r' (push '\n' (literalLines rest))
  | '\x27' :: '\x27' :: '\x27' :: '\x27' :: '\x27' :: rest => some (['\x27', '\x27'], rest)
  | '\x27' :: '\x27' :: '\x27' :: '\x27' :: rest => some (['\x27'], rest)
  | '\x27' :: '\x27' :: '\x27' :: rest => some ([], rest)
  | c :: rest => if isControl c then none else push c (literalLines rest)

/-- A line end right after the opening quotes does not belong to the text. -/
def dropFirstNewline (cs : List Char) : List Char := (newline? cs).getD cs

/-- Any of the four ways, from the opening quotes on. -/
def text? : List Char → Option TextRest
  | '\x22' :: '\x22' :: '\x22' :: rest => basicLines false (dropFirstNewline rest)
  | '\x22' :: rest => basicText rest
  | '\x27' :: '\x27' :: '\x27' :: rest => literalLines (dropFirstNewline rest)
  | '\x27' :: rest => literalText rest
  | _ => none

end Redraw.Toml
