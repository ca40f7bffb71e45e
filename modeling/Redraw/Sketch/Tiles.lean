import Redraw.Sketch.Basic

/-!
# Columns of tiles

Columns of square tiles whose heights follow a slow sine. All tiles have one fill and no outline, so
that merging leaves a handful of outlines per frame.
-/

namespace Redraw.Tiles

open SceneM

def tile : Float := 20.0

/-- How many tiles a column has in a frame, out of `rows`. -/
def columnHeight (column frame rows : Nat) : Nat :=
  let phase := Float.ofNat frame * 0.05 + Float.ofNat column * 0.4
  Number.nearestNat64 ((phase.sin + 1.0) / 2.0 * Float.ofNat rows)

/-- The tile in a row of a column, rows counted upwards from `bottom`. -/
def tileRect (bottom x : Float) (row : Nat) : Rect :=
  ⟨x, bottom - Float.ofNat (row + 1) * tile, tile, tile⟩

def drawRows {σ : Type} [Surface σ] (bottom x : Float) : List Nat → SceneM Unit σ Unit
  | [] => pure ()
  | row :: rest => do
    onContext (Context.rect (tileRect bottom x row))
    drawRows bottom x rest

def drawColumns {σ : Type} [Surface σ] (frame rows : Nat) : List Nat → SceneM Unit σ Unit
  | [] => pure ()
  | column :: rest => do
    drawRows (Float.ofNat rows * tile) (Float.ofNat column * tile)
      (List.range (columnHeight column frame rows))
    drawColumns frame rows rest

def sketch {σ : Type} [Surface σ] (background : Color) : Sketch Unit σ where
  setup := do
    change Context.noStroke
    change (Context.setFill (← colorOf [40.0, 120.0, 200.0]))
  draw frame := do
    onContext (Context.background background)
    let columns := Number.floorNat64 ((← context).width / tile)
    let rows := Number.floorNat64 ((← context).height / tile)
    drawColumns frame rows (List.range columns)

end Redraw.Tiles
