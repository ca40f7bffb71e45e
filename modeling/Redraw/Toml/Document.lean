import Redraw.Toml.Expression

/-!
# Documents

A document is read line by line. A header says in which table the definitions below it go; those before
the first header go into the table of the document itself.
-/

namespace Redraw.Toml

structure Draft where
  root : Entries := []
  /-- The path of the table that is being filled -/
  path : List String := []

namespace Draft

def define (key : List String) (v : Value) (d : Draft) : Option Draft := do
  return { d with root := ← d.root.change (Entries.define v key) d.path }

def openTable (path : List String) (d : Draft) : Option Draft := do
  return ⟨← d.root.openTable path, path⟩

def appendTable (path : List String) (d : Draft) : Option Draft := do
  return ⟨← d.root.appendTable path, path⟩

end Draft

def isEmptyLine : List Char → Bool
  | [] => true
  | c :: _ => c == '#' || c == '\n' || c == '\r'

/-- Reads one line: a header, a definition or nothing. `steps` bounds the steps of the reader of values. -/
def line? (steps : Nat) (d : Draft) (cs : List Char) : Option (Draft × List Char) := do
  match skipBlanks cs with
  | '[' :: '[' :: rest =>
    match ← key? (skipBlanks rest) with
    | (path, ']' :: ']' :: rest) => return (← d.appendTable path, ← lineEnd? rest)
    | _ => none
  | '[' :: rest =>
    match ← key? (skipBlanks rest) with
    | (path, ']' :: rest) => return (← d.openTable path, ← lineEnd? rest)
    | _ => none
  | cs =>
    if isEmptyLine cs then return (d, ← lineEnd? cs)
    match ← key? cs with
    | (key, '=' :: rest) =>
      let (v, rest) ← valueWithin steps maxDepth (skipBlanks rest)
      return (← d.define key v, ← lineEnd? rest)
    | _ => none

def linesWithin (steps limit : Nat) (d : Draft) (cs : List Char) : Option Entries :=
  match limit, cs with
  | _, [] => some d.root
  | 0, _ => none
  | limit + 1, cs => do
    let (d, rest) ← line? steps d cs
    linesWithin steps limit d rest

/-- A mark of the byte order at the start does not count. -/
def skipByteOrderMark : List Char → List Char
  | '\ufeff' :: rest => rest
  | cs => cs

/-- The table that a document writes. Every line takes a character, and within a line any two steps do. -/
def parse? (document : String) : Option Entries :=
  let cs := skipByteOrderMark document.toList
  let length := cs.length
  linesWithin (2 * length + 2) length {} cs

end Redraw.Toml
