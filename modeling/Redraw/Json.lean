/-!
# JSON values

The values of the data format in which the schema of the settings is written.
-/

namespace Redraw

/-- The number `digits / 10 ^ places`, written with that many places after the point. -/
structure JsonNumber where
  digits : Int
  places : Nat := 0
  deriving DecidableEq, Repr

def JsonNumber.integer? (d : JsonNumber) : Option Int := if d.places = 0 then some d.digits else none

/-- A value; the entries of an object keep the order in which they are written. -/
inductive Json where
  | null
  | bool (b : Bool)
  | number (d : JsonNumber)
  | text (s : String)
  | array (items : List Json)
  | object (entries : List (String × Json))
  deriving Repr, Inhabited

namespace Json

def nat (n : Nat) : Json := .number ⟨n, 0⟩

def integer? : Json → Option Int
  | number d => d.integer?
  | _ => none

theorem integer?_nat (n : Nat) : (nat n).integer? = some (n : Int) := rfl

end Json

end Redraw
