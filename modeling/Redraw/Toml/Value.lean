/-!
# TOML values

The values of a document. Tables and arrays also say how they were written, because that decides what
may still be added to them.
-/

namespace Redraw.Toml

/-- A number with a fraction or an exponent, read exactly. -/
inductive FloatLiteral where
  | nan
  | infinite (negative : Bool)
  /-- `± digits · 10 ^ exponent` -/
  | decimal (negative : Bool) (digits : Nat) (exponent : Int)
  deriving DecidableEq, Repr

/-- How a table came into being. -/
inductive TableForm where
  /-- Written in braces; nothing can be added to it -/
  | inline
  /-- Opened by a header of its own -/
  | headed
  /-- Passed through by a header that opens a table further down -/
  | passed
  /-- Passed through by a key of several parts -/
  | dotted
  deriving DecidableEq, Repr

/-- How an array came into being. -/
inductive ArrayForm where
  /-- Written in brackets -/
  | inline
  /-- Collected from headers in double brackets; its items are tables -/
  | headed
  deriving DecidableEq, Repr

structure Date where
  year : Nat
  month : Nat
  day : Nat
  deriving DecidableEq, Repr

/-- A time of day; `fraction` holds the digits after the seconds. -/
structure Time where
  hour : Nat
  minute : Nat
  second : Nat := 0
  fraction : List Char := []
  deriving DecidableEq, Repr

/-- The distance from universal time. -/
inductive Offset where
  | universal
  | shifted (negative : Bool) (hour minute : Nat)
  deriving DecidableEq, Repr

inductive Datetime where
  | date (date : Date)
  | time (time : Time)
  | both (date : Date) (time : Time) (offset : Option Offset)
  deriving DecidableEq, Repr

/-- A value; the entries of a table keep their order. -/
inductive Value where
  | text (s : String)
  | integer (n : Int)
  /-- Begins as an integer and has no value -/
  | garbled
  | float (x : FloatLiteral)
  | bool (b : Bool)
  | datetime (d : Datetime)
  | array (form : ArrayForm) (items : List Value)
  | table (form : TableForm) (entries : List (String × Value))
  deriving Repr, Inhabited

abbrev Entries := List (String × Value)

/-! ### Numbers that can be represented -/

/-- The literal is too large for a double: it lies at or beyond half a step above the greatest one. -/
def FloatLiteral.overflows : FloatLiteral → Bool
  | .decimal _ digits exponent =>
    let size := (Nat.toDigits 10 digits).length + exponent
    if digits = 0 || size < 309 then false
    else if 309 < size then true
    else
      let bound := (Nat.pow 2 54 - 1) * Nat.pow 2 970
      match exponent with
      | .ofNat e => decide (bound ≤ digits * Nat.pow 10 e)
      | .negSucc e => decide (bound * Nat.pow 10 (e + 1) ≤ digits)
  | _ => false

/-- The integer fits into 128 bits, with or without a sign. -/
def fits (n : Int) : Bool :=
  decide (-170141183460469231731687303715884105728 ≤ n) &&
    decide (n ≤ 340282366920938463463374607431768211455)

mutual

/-- Every number inside the value can be represented. -/
def Value.isRepresentable : Value → Bool
  | .integer n => fits n
  | .garbled => false
  | .float x => !x.overflows
  | .array _ items => areRepresentable items
  | .table _ entries => holdRepresentable entries
  | _ => true

def areRepresentable : List Value → Bool
  | [] => true
  | v :: rest => v.isRepresentable && areRepresentable rest

def holdRepresentable : List (String × Value) → Bool
  | [] => true
  | (_, v) :: rest => v.isRepresentable && holdRepresentable rest

end

end Redraw.Toml
