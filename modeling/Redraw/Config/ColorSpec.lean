import Redraw.Color
import Redraw.Json

/-!
# Colors in settings

A color is written as a name or as three components from 0 to 255.
-/

namespace Redraw

inductive ColorSpec where
  | name (text : String)
  | rgb (red green blue : UInt8)
  deriving DecidableEq, Repr

namespace ColorSpec

/-- The color meant, if the settings mean one; the three components are opaque. -/
def color? : ColorSpec → Option Color
  | name text => Color.named? text
  | rgb red green blue =>
    some ⟨Float.ofNat red.toNat / Color.maxComponent, Float.ofNat green.toNat / Color.maxComponent,
      Float.ofNat blue.toNat / Color.maxComponent, 1.0⟩

def color (spec : ColorSpec) : Color := spec.color?.getD .white

def component? (n : Int) : Option UInt8 :=
  if 0 ≤ n ∧ n ≤ 255 then some n.toNat.toUInt8 else none

def ofComponents? : List Int → Option ColorSpec
  | [red, green, blue] => return rgb (← component? red) (← component? green) (← component? blue)
  | _ => none

/-! ### As a JSON value -/

/-- The text for a value that is neither form of a color. -/
def mismatchMessage : String := "data did not match any variant of untagged enum ColorSpec"

def ofJson? : Json → Option ColorSpec
  | .text s => some (name s)
  | .array items => do ofComponents? (← items.mapM Json.integer?)
  | _ => none

/-- Reads a color or says why there is none. -/
def ofJson (value : Json) : Except String ColorSpec :=
  match ofJson? value with
  | some spec => .ok spec
  | none => .error mismatchMessage

def toJson : ColorSpec → Json
  | name s => .text s
  | rgb red green blue => .array [.nat red.toNat, .nat green.toNat, .nat blue.toNat]

theorem component?_toNat (n : UInt8) : component? (n.toNat : Int) = some n := by
  have h : n.toNat < 256 := n.toNat_lt
  simp only [component?]
  rw [if_pos (by omega)]
  simp

/-- Reading takes back what writing gives. -/
theorem ofJson_toJson (spec : ColorSpec) : ofJson spec.toJson = .ok spec := by
  cases spec with
  | name s => rfl
  | rgb red green blue =>
    simp [ofJson, toJson, ofJson?, Json.integer?_nat, ofComponents?, component?_toNat]

end ColorSpec

end Redraw
