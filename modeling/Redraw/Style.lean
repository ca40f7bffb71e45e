import Redraw.Color

/-!
# Styles

The attributes that a drawing request carries. A style is a partial assignment to five fixed keys;
its entries are always listed in the order of the keys.
-/

namespace Redraw

/-- The attributes a surface may be asked to apply, in their fixed order. -/
inductive StyleKey where
  | antialiased
  | fill
  | faceColor
  | edgeColor
  /-- Width of the outline in surface units; 0 paints no outline -/
  | lineWidth
  deriving DecidableEq, Repr

namespace StyleKey

def all : List StyleKey := [antialiased, fill, faceColor, edgeColor, lineWidth]

theorem mem_all (key : StyleKey) : key ∈ all := by
  cases key <;> decide

def name : StyleKey → String
  | antialiased => "antialiased"
  | fill => "fill"
  | faceColor => "facecolor"
  | edgeColor => "edgecolor"
  | lineWidth => "linewidth"

end StyleKey

/-- Value of an attribute. Equality is that of doubles: a number that is not a number differs from
itself, and the two zeros are equal. -/
inductive StyleValue where
  | bool (b : Bool)
  | number (x : Float)
  | color (c : Color)
  deriving BEq, Repr, Inhabited

/-- A partial assignment of values to the five keys. -/
structure Style where
  antialiased : Option StyleValue := none
  fill : Option StyleValue := none
  faceColor : Option StyleValue := none
  edgeColor : Option StyleValue := none
  lineWidth : Option StyleValue := none
  deriving BEq, Repr, Inhabited

namespace Style

def get? (s : Style) : StyleKey → Option StyleValue
  | .antialiased => s.antialiased
  | .fill => s.fill
  | .faceColor => s.faceColor
  | .edgeColor => s.edgeColor
  | .lineWidth => s.lineWidth

def set (s : Style) (key : StyleKey) (value : StyleValue) : Style :=
  match key with
  | .antialiased => { s with antialiased := some value }
  | .fill => { s with fill := some value }
  | .faceColor => { s with faceColor := some value }
  | .edgeColor => { s with edgeColor := some value }
  | .lineWidth => { s with lineWidth := some value }

def entries (s : Style) : List (StyleKey × StyleValue) :=
  StyleKey.all.filterMap fun key => (s.get? key).map fun value => (key, value)

def size (s : Style) : Nat := s.entries.length

def isStrokeless (s : Style) : Bool :=
  match s.lineWidth with
  | some (.number width) => width == 0.0
  | _ => false

/-! ### Reading what was set -/

theorem get?_set (s : Style) (key other : StyleKey) (value : StyleValue) :
    (s.set key value).get? other = if other = key then some value else s.get? other := by
  cases key <;> cases other <;> simp [set, get?]

theorem get?_set_self (s : Style) (key : StyleKey) (value : StyleValue) :
    (s.set key value).get? key = some value := by
  rw [get?_set, if_pos rfl]

theorem mem_entries_iff (s : Style) (key : StyleKey) (value : StyleValue) :
    (key, value) ∈ s.entries ↔ s.get? key = some value := by
  simp only [entries, List.mem_filterMap, Option.map_eq_some_iff, Prod.mk.injEq]
  constructor
  · rintro ⟨k, _, v, hv, rfl, rfl⟩
    exact hv
  · intro h
    exact ⟨key, StyleKey.mem_all key, value, h, rfl, rfl⟩

end Style

end Redraw
