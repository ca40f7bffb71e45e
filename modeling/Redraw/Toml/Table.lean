import Redraw.Toml.Value

/-!
# Building tables

How a document fills its tables. A table is defined once: a header may open a table that was only
passed through before, and a key of several parts may add to tables that such keys have made, but nothing
is written twice.
-/

namespace Redraw.Toml

namespace Entries

/-- Puts another value in the place of the one at a key. -/
def replace (key : String) (v : Value) (entries : Entries) : Entries :=
  entries.map fun entry => if entry.1 == key then (key, v) else entry

/-- Adds a value under what is left of a key, in a table that the key may end in or not. Tables that are
missing on the way are made; those that are there must have been passed through only, and an array of
headed tables leads on to its last one. A key of several parts ends only in a table of such keys. -/
def defineIn (v : Value) (endsHere : Bool) : List String → Entries → Option Entries
  | [], _ => none
  | [key], entries =>
    if endsHere && (entries.lookup key).isNone then some (entries ++ [(key, v)]) else none
  | key :: path, entries =>
    match entries.lookup key with
    | none => (defineIn v true path []).map fun inner => entries ++ [(key, .table .dotted inner)]
    | some (.table .dotted inner) =>
      (defineIn v true path inner).map fun inner => replace key (.table .dotted inner) entries
    | some (.table .passed inner) =>
      (defineIn v false path inner).map fun inner => replace key (.table .passed inner) entries
    | some (.array .headed items) =>
      match items.getLast? with
      | some (.table form inner) =>
        (defineIn v false path inner).map fun inner =>
          replace key (.array .headed (items.dropLast ++ [.table form inner])) entries
      | _ => none
    | some _ => none

def define (v : Value) (key : List String) (entries : Entries) : Option Entries :=
  defineIn v true key entries

/-- Changes the table that the path of a header leads to. Tables that are missing on the way are made;
an array of headed tables leads on to its last one. -/
def change (f : Entries → Option Entries) : List String → Entries → Option Entries
  | [], entries => f entries
  | key :: path, entries =>
    match entries.lookup key with
    | none => (change f path []).map fun inner => entries ++ [(key, .table .passed inner)]
    | some (.table .inline _) => none
    | some (.table form inner) =>
      (change f path inner).map fun inner => replace key (.table form inner) entries
    | some (.array .headed items) =>
      match items.getLast? with
      | some (.table form inner) =>
        (change f path inner).map fun inner =>
          replace key (.array .headed (items.dropLast ++ [.table form inner])) entries
      | _ => none
    | some _ => none

/-- Opens the table of a header; it must be new or only passed through by headers. -/
def openHere (key : String) (entries : Entries) : Option Entries :=
  match entries.lookup key with
  | none => some (entries ++ [(key, .table .headed [])])
  | some (.table .passed inner) => some (replace key (.table .headed inner) entries)
  | some _ => none

/-- Adds a table to the array of a header in double brackets. -/
def appendHere (key : String) (entries : Entries) : Option Entries :=
  match entries.lookup key with
  | none => some (entries ++ [(key, .array .headed [.table .headed []])])
  | some (.array .headed items) =>
    some (replace key (.array .headed (items ++ [.table .headed []])) entries)
  | some _ => none

/-- Does something with the last part of a path in the table that the other parts lead to. -/
def atEnd (f : String → Entries → Option Entries) (path : List String) (entries : Entries) :
    Option Entries := do
  change (f (← path.getLast?)) path.dropLast entries

def openTable (path : List String) (entries : Entries) : Option Entries := atEnd openHere path entries

def appendTable (path : List String) (entries : Entries) : Option Entries :=
  atEnd appendHere path entries

end Entries

end Redraw.Toml
