import Redraw.Toml.Key
import Redraw.Toml.Scalar
import Redraw.Toml.Table

/-!
# Values with brackets

Reads any value. Inside brackets and braces, line ends and comments may stand around the items, and around
the sign between a key and its value.
-/

namespace Redraw.Toml

/-- How deep brackets and braces may be nested. -/
def maxDepth : Nat := 80

mutual

/-- Reads a value. `limit` bounds the steps, and two steps for every character are enough; `room` is the
number of brackets and braces that may still be opened. -/
def valueWithin (limit room : Nat) (cs : List Char) : Option (Value × List Char) :=
  match limit with
  | 0 => none
  | limit + 1 =>
    match cs with
    | '[' :: rest => if room = 0 then none else itemsWithin limit (room - 1) [] rest
    | '\x7b' :: rest => if room = 0 then none else entriesWithin limit (room - 1) [] rest
    | '\x22' :: _ => (text? cs).map fun r => (.text (String.ofList r.1), r.2)
    | '\x27' :: _ => (text? cs).map fun r => (.text (String.ofList r.1), r.2)
    | _ => scalar? cs

/-- Reads the items of an array up to its bracket; `items` are those before, the last one first. -/
def itemsWithin (limit room : Nat) (items : List Value) (cs : List Char) :
    Option (Value × List Char) :=
  match limit with
  | 0 => none
  | limit + 1 => do
    match ← skipLines false cs with
    | ']' :: rest => return (.array .inline items.reverse, rest)
    | cs =>
      let (item, rest) ← valueWithin limit room cs
      match ← skipLines false rest with
      | ']' :: rest => return (.array .inline (item :: items).reverse, rest)
      | ',' :: rest => itemsWithin limit room (item :: items) rest
      | _ => none

/-- Reads the entries of a table up to its brace. -/
def entriesWithin (limit room : Nat) (entries : Entries) (cs : List Char) :
    Option (Value × List Char) :=
  match limit with
  | 0 => none
  | limit + 1 => do
    match ← skipLines false cs with
    | '\x7d' :: rest => return (.table .inline entries, rest)
    | cs =>
      let (key, rest) ← key? cs
      match ← skipLines false rest with
      | '=' :: rest =>
        let (value, rest) ← valueWithin limit room (← skipLines false rest)
        let entries ← entries.define value key
        match ← skipLines false rest with
        | '\x7d' :: rest => return (.table .inline entries, rest)
        | ',' :: rest => entriesWithin limit room entries rest
        | _ => none
      | _ => none

end

end Redraw.Toml
