import Redraw.Proofs.Batch.Painting
import Redraw.Proofs.Context.Batching
import Redraw.Proofs.Equality
import Redraw.Proofs.Number.Nearest
import Redraw.Surface.Recorder

/-!
# Rectangles that a batch swallows

The tolerance of the grid grows with the coordinate: small against a step of the grid near the origin, it
is more than half a step farther out.
-/

namespace Redraw.Batch

open Number

/-! ### Onto the grid -/

/-- The tolerance is the double next to `10 ^ (-9)`. -/
theorem toRat_tolerance : 0 ≤ toRat tolerance ∧ toRat tolerance ≤ 1001 / 10 ^ 12 := by
  have hparts : Binary64.ofFloat tolerance = .finite false 4835703278458517 (-82) := by
    decide +kernel
  rw [toRat, hparts]
  norm_num [Binary64.value]

theorem isFinite_one : (1.0 : Float).isFinite = true ∧ toRat 1.0 = 1 := by
  have hparts : Binary64.ofFloat 1.0 = .finite false (2 ^ 52) (-52) := by decide +kernel
  refine ⟨by decide +kernel, ?_⟩
  rw [toRat, hparts]
  norm_num [Binary64.value]

theorem isFinite_zero : (0.0 : Float).isFinite = true ∧ toRat 0.0 = 0 := by
  have hparts : Binary64.ofFloat 0.0 = .finite false 0 (-1074) := by decide +kernel
  refine ⟨by decide +kernel, ?_⟩
  rw [toRat, hparts]
  norm_num [Binary64.value]

/-- A grid as the program takes it: an unsigned integer of 32 bits that is not zero. -/
structure Grid (grid : Nat) : Prop where
  pos : 0 < grid
  bits : grid < 2 ^ 32

/-- A side of a rectangle within two hundred million grid lines of the origin. -/
structure Near (grid : Nat) (start size : Float) : Prop where
  start_finite : start.isFinite = true
  size_finite : size.isFinite = true
  near_start : |toRat start| * grid ≤ 2 * 10 ^ 8
  near_end : |toRat start + toRat size| * grid ≤ 2 * 10 ^ 8

section Scaling

variable {grid : Nat} {v : Float} {q : ℚ}

theorem product_close (hgrid : Grid grid) (hv : Rounds v.toModel.unpack q)
    (hnear : |q| * grid ≤ 2 * 10 ^ 8) :
    |toRat v * toRat (Float.ofNat grid) - q * grid| ≤ 1 / 2000 := by
  obtain ⟨_, hfactor⟩ := ofNat_close (hgrid.bits.trans (by decide))
  have hvalue := hv.toRat_close
  have hpos : (1 : ℚ) ≤ grid := by exact_mod_cast hgrid.pos
  have hbits : (grid : ℚ) < 2 ^ 32 := by exact_mod_cast hgrid.bits
  generalize toRat v = a at hvalue ⊢
  generalize toRat (Float.ofNat grid) = factor at hfactor ⊢
  generalize (grid : ℚ) = g at *
  rw [roundoff] at hvalue
  have hsize : |factor| ≤ 2 * g := by
    have hbounds := abs_le.mp hfactor
    rw [abs_le]
    constructor <;> linarith
  have hsplit : a * factor - q * g = (a - q) * factor + q * (factor - g) := by ring
  calc |a * factor - q * g|
      ≤ |a - q| * |factor| + |q| * |factor - g| := by
        rw [hsplit, ← abs_mul, ← abs_mul]
        exact abs_add_le _ _
    _ ≤ (|q| + 1) / 2 ^ 52 * (2 * g) + |q| * ((g + 1) / 2 ^ 50) := by gcongr
    _ ≤ 1 / 2000 := by
      have hone : |q| ≤ |q| * g := le_mul_of_one_le_right (abs_nonneg q) hpos
      ring_nf at hnear hone ⊢
      linarith

theorem scaled_close (hgrid : Grid grid) (hv : Rounds v.toModel.unpack q)
    (hnear : |q| * grid ≤ 2 * 10 ^ 8) :
    (v * Float.ofNat grid).isFinite = true ∧
      |toRat (v * Float.ofNat grid) - q * grid| ≤ 1 / 1000 := by
  have hproduct := product_close hgrid hv hnear
  have hexact : |q * grid| ≤ 2 * 10 ^ 8 := by rwa [abs_mul, Nat.abs_cast]
  have hsize : |toRat v * toRat (Float.ofNat grid)| ≤ 2 * 10 ^ 8 + 1 := by
    rw [abs_le] at *
    constructor <;> linarith
  obtain ⟨hfinite, _⟩ := ofNat_close (hgrid.bits.trans (by decide))
  have hround := mul_rounds hv.isFinite hfinite (hsize.trans (by norm_num))
  refine ⟨hround.isFinite, ?_⟩
  calc |toRat (v * Float.ofNat grid) - q * grid|
      ≤ (2 * 10 ^ 8 + 1 + 1) / 2 ^ 52 + 1 / 2000 :=
        (abs_sub_le _ _ _).trans (add_le_add (hround.toRat_close.trans (roundoff_le hsize)) hproduct)
    _ ≤ 1 / 1000 := by norm_num

theorem greater_close {s : Float} {bound : ℚ} (hfinite : s.isFinite = true) (hs : |toRat s| ≤ bound)
    (hone : 1 ≤ bound) :
    (greater s.abs 1.0).isFinite = true ∧ |toRat (greater s.abs 1.0)| ≤ bound := by
  obtain ⟨habs, hvalue⟩ := abs_toRat hfinite
  unfold greater
  split
  · rw [hvalue, abs_abs]
    exact ⟨habs, hs⟩
  · rw [isFinite_one.2, abs_one]
    exact ⟨isFinite_one.1, hone⟩

/-- The slack of a coordinate in that range is at most about a fifth of a step. -/
theorem slack_close {s : Float} (hfinite : s.isFinite = true) (hsmall : |toRat s| ≤ 2 * 10 ^ 8 + 1) :
    (tolerance * greater s.abs 1.0).isFinite = true ∧
      toRat (tolerance * greater s.abs 1.0) ≤ 201 / 1000 := by
  obtain ⟨hfactor, hbound⟩ := greater_close hfinite hsmall (by norm_num)
  obtain ⟨hlower, hupper⟩ := toRat_tolerance
  have htolerance : tolerance.isFinite = true := by decide +kernel
  have hproduct : |toRat tolerance * toRat (greater s.abs 1.0)| ≤ 2003 / 10000 := by
    rw [abs_mul, abs_of_nonneg hlower]
    calc toRat tolerance * |toRat (greater s.abs 1.0)| ≤ 1001 / 10 ^ 12 * (2 * 10 ^ 8 + 1) := by
          gcongr
      _ ≤ 2003 / 10000 := by norm_num
  have hround := mul_rounds htolerance hfactor (hproduct.trans (by norm_num))
  refine ⟨hround.isFinite, ?_⟩
  have hclose := abs_le.mp (hround.toRat_close.trans (roundoff_le hproduct))
  have hproduct' := abs_le.mp hproduct
  norm_num at hclose hproduct' ⊢
  linarith

theorem abs_le_slack (h : onGrid grid v = true) :
    (v * Float.ofNat grid - nearestWhole (v * Float.ofNat grid)).abs ≤
      tolerance * greater (v * Float.ofNat grid).abs 1.0 := by
  simp only [onGrid, Bool.and_eq_true, decide_eq_true_eq] at h
  exact h.2

theorem quantize_close (hfinite : (v * Float.ofNat grid).isFinite = true)
    (hsmall : |toRat (v * Float.ofNat grid)| ≤ 2 * 10 ^ 8 + 1) (h : onGrid grid v = true) :
    |(quantize grid v : ℚ) - toRat (v * Float.ofNat grid)| ≤ 21 / 100 := by
  have hslack := abs_le_slack h
  rw [quantize]
  generalize v * Float.ofNat grid = s at hfinite hsmall hslack ⊢
  have hnearest := abs_le.mp (nearestInt64_close hfinite (hsmall.trans (by norm_num)))
  obtain ⟨hwhole, hclose⟩ := nearestWhole_close hfinite (hsmall.trans (by norm_num))
  have hwritten : |toRat (nearestWhole s) - nearestInt64 s| ≤ 1 / 1000 := by
    refine hclose.trans ?_
    norm_num at hsmall ⊢
    linarith
  have hoffset : |toRat s - toRat (nearestWhole s)| ≤ 1 := by
    have hwritten' := abs_le.mp hwritten
    rw [abs_le]
    constructor <;> linarith
  -- the distance to the whole number is rounded once more before it is compared with the slack
  have hround := sub_rounds hfinite hwhole (hoffset.trans (by norm_num))
  have hrounded : |toRat (s - nearestWhole s) - (toRat s - toRat (nearestWhole s))| ≤ 1 / 1000 :=
    hround.toRat_close.trans ((roundoff_le hoffset).trans (by norm_num))
  obtain ⟨habs, hvalue⟩ := abs_toRat hround.isFinite
  obtain ⟨hslackFinite, hslackSmall⟩ := slack_close hfinite hsmall
  have hwithin := (toRat_le habs hslackFinite hslack).trans hslackSmall
  rw [hvalue] at hwithin
  rw [abs_le] at *
  constructor <;> linarith

end Scaling

section Sides

variable {grid : Nat} {start size : Float}

theorem corner_close {v : Float} {q : ℚ} (hgrid : Grid grid) (hv : Rounds v.toModel.unpack q)
    (hnear : |q| * grid ≤ 2 * 10 ^ 8) (h : onGrid grid v = true) :
    |(quantize grid v : ℚ) - q * grid| ≤ 22 / 100 := by
  obtain ⟨hfinite, hscaled⟩ := scaled_close hgrid hv hnear
  have hexact : |q * grid| ≤ 2 * 10 ^ 8 := by rwa [abs_mul, Nat.abs_cast]
  have hsmall : |toRat (v * Float.ofNat grid)| ≤ 2 * 10 ^ 8 + 1 := by
    rw [abs_le] at *
    constructor <;> linarith
  have hclose := quantize_close hfinite hsmall h
  rw [abs_le] at *
  constructor <;> linarith

/-- The number of steps between the ends of a side differs from its size by less than half a step. -/
theorem span_close (hgrid : Grid grid) (hnear : Near grid start size)
    (hstart : onGrid grid start = true) (hend : onGrid grid (start + size) = true) :
    |((quantize grid (start + size) - quantize grid start : Int) : ℚ) - toRat size * grid| <
      1 / 2 := by
  have hsum : |toRat start + toRat size| ≤ 2 * 10 ^ 8 := by
    have hpos : (1 : ℚ) ≤ grid := by exact_mod_cast hgrid.pos
    exact (le_mul_of_one_le_right (abs_nonneg _) hpos).trans hnear.near_end
  have hround := add_rounds hnear.start_finite hnear.size_finite (hsum.trans (by norm_num))
  have hself : Rounds start.toModel.unpack (toRat start) :=
    .of_eq hnear.start_finite (toRat_eq start).symm
  have hfirst := abs_le.mp (corner_close hgrid hself hnear.near_start hstart)
  have hlast := abs_le.mp (corner_close hgrid hround hnear.near_end hend)
  rw [add_mul] at hlast
  rw [abs_lt, Int.cast_sub]
  constructor <;> linarith

theorem quantize_lt_iff (hgrid : Grid grid) (hnear : Near grid start size)
    (hstart : onGrid grid start = true) (hend : onGrid grid (start + size) = true) :
    quantize grid start < quantize grid (start + size) ↔ 1 / 2 < toRat size * grid := by
  have hclose := abs_lt.mp (span_close hgrid hnear hstart hend)
  constructor
  · intro hlt
    have hone : (1 : ℚ) ≤ ((quantize grid (start + size) - quantize grid start : Int) : ℚ) := by
      exact_mod_cast (by omega : 1 ≤ quantize grid (start + size) - quantize grid start)
    linarith
  · intro hhalf
    have hpos : (0 : ℚ) < ((quantize grid (start + size) - quantize grid start : Int) : ℚ) := by
      linarith
    have hpos' : 0 < quantize grid (start + size) - quantize grid start := by exact_mod_cast hpos
    omega

theorem toRat_nonneg_of_pos (hfinite : size.isFinite = true) (h : 0.0 < size) : 0 ≤ toRat size := by
  have hle : (0.0 : Float).toModel.unpack.le size.toModel.unpack = true := by
    rw [Float.Model.UnpackedFloat.le, (lt_iff 0.0 size).mp h]
    rfl
  have hvalues := valueOf_le (finiteForm_of_isFinite isFinite_zero.1) (finiteForm_of_isFinite hfinite)
    hle
  rwa [← toRat_eq, ← toRat_eq, isFinite_zero.2] at hvalues

theorem quantize_le (hgrid : Grid grid) (hnear : Near grid start size)
    (hstart : onGrid grid start = true) (hend : onGrid grid (start + size) = true)
    (hsize : 0 ≤ toRat size) : quantize grid start ≤ quantize grid (start + size) := by
  have hclose := abs_lt.mp (span_close hgrid hnear hstart hend)
  have hscaled : 0 ≤ toRat size * grid := mul_nonneg hsize (Nat.cast_nonneg grid)
  have habove : ((-1 : Int) : ℚ) <
      ((quantize grid (start + size) - quantize grid start : Int) : ℚ) := by
    push_cast at *
    linarith
  have habove' : -1 < quantize grid (start + size) - quantize grid start := by exact_mod_cast habove
  omega

end Sides

/-! ### In a batch -/

/-- Both sides are longer than half a step of the grid. -/
def Sized (grid : Nat) (r : Rect) : Prop :=
  1 / 2 < toRat r.width * grid ∧ 1 / 2 < toRat r.height * grid

theorem painted_of_covers {batch : List Outline.Corners} {c : Outline.Corners} {i j : Int}
    (hmem : c ∈ batch) (h : c.Covers i j) : Painted batch i j := by
  have hodd := (Outline.odd_enclosing_iff_covered batch i j).mpr ⟨c, hmem, h⟩
  rw [painted_iff_pos, paintings_eq_enclosing]
  omega

theorem shapes_drop {c : Outline.Corners} (h : ¬c.box.Proper) (grid : Nat)
    (before after : List Outline.Corners) :
    shapes grid (before ++ c :: after) = shapes grid (before ++ after) := by
  have hboxes : Outline.properBoxes (before ++ c :: after) =
      Outline.properBoxes (before ++ after) := by
    simp [Outline.properBoxes, h]
  rw [shapes, shapes, Outline.outlines, Outline.outlines, Outline.disjointBoxes,
    Outline.disjointBoxes, hboxes]

end Redraw.Batch

namespace Redraw.Context

open Batch Number

variable {σ : Type}

/-- A rectangle that is held back near the origin has corners with an area between them exactly if
both its sides are longer than half a step. Then some of it is painted, whatever it is merged with;
otherwise the batch is drawn as if it had never been asked for. -/
theorem queued_paints_iff {c : Context σ} {r : Rect} {grid : Nat} (hqueues : c.queues r = some grid)
    (hgrid : Grid grid) (hx : Near grid r.x r.width) (hy : Near grid r.y r.height) :
    (quantize grid r.x < quantize grid (r.x + r.width) ∧
        quantize grid r.y < quantize grid (r.y + r.height) ↔ Sized grid r) ∧
      (Sized grid r → ∀ batch, cornersOf grid r ∈ batch →
        ∃ i j, (cornersOf grid r).Covers i j ∧ Painted batch i j) ∧
      (¬Sized grid r → ∀ divisor before after,
        shapes divisor (before ++ cornersOf grid r :: after) = shapes divisor (before ++ after)) := by
  obtain ⟨_, _, _, hmergeable⟩ := queues_eq_some_iff.mp hqueues
  simp only [mergeable, aligned, Bool.and_eq_true, decide_eq_true_eq] at hmergeable
  obtain ⟨⟨⟨_, hwidth⟩, hheight⟩, ⟨⟨hleft, htop⟩, hright⟩, hbottom⟩ := hmergeable
  have hspan : quantize grid r.x < quantize grid (r.x + r.width) ∧
      quantize grid r.y < quantize grid (r.y + r.height) ↔ Sized grid r :=
    and_congr (quantize_lt_iff hgrid hx hleft hright) (quantize_lt_iff hgrid hy htop hbottom)
  refine ⟨hspan, ?_, ?_⟩
  · intro hsized batch hmem
    obtain ⟨hcolumns, hrows⟩ := hspan.mpr hsized
    have hcovers : (cornersOf grid r).Covers (quantize grid r.x) (quantize grid r.y) := by
      simp only [cornersOf, Outline.Corners.Covers]
      omega
    exact ⟨_, _, hcovers, painted_of_covers hmem hcovers⟩
  · intro hsmall divisor before after
    have hcolumns := quantize_le hgrid hx hleft hright (toRat_nonneg_of_pos hx.size_finite hwidth)
    have hrows := quantize_le hgrid hy htop hbottom (toRat_nonneg_of_pos hy.size_finite hheight)
    apply shapes_drop
    intro hproper
    apply hsmall
    rw [← hspan]
    simp only [cornersOf, Outline.Corners.box, Outline.Box.Proper] at hproper
    omega

/-- A frame has begun without outlines, with ten grid lines per unit. -/
def tenths : Context Recorder :=
  (stateAfter (Command.runAll [.setBatching (some 10), .beginFrame, .noStroke])
    (⟨(), onCanvas Recorder.empty 4.0 4.0⟩ : Scene Unit Recorder)).context

def brick : Rect := ⟨0.7, 0.0, 0.7, 1.0⟩

theorem queued_paints_iff_brick :
    tenths.queues brick = some 10 ∧ Grid 10 ∧ Near 10 brick.x brick.width ∧
      Near 10 brick.y brick.height ∧ ∃ i j, Painted [cornersOf 10 brick] i j := by
  have hqueues : tenths.queues brick = some 10 := by decide +kernel
  have hgrid : Grid 10 := ⟨by decide, by decide⟩
  have hx : Near 10 brick.x brick.width :=
    ⟨by decide +kernel, by decide +kernel, by decide +kernel, by decide +kernel⟩
  have hy : Near 10 brick.y brick.height :=
    ⟨by decide +kernel, by decide +kernel, by decide +kernel, by decide +kernel⟩
  have hsized : Sized 10 brick := ⟨by decide +kernel, by decide +kernel⟩
  obtain ⟨_, hpaints, _⟩ := queued_paints_iff hqueues hgrid hx hy
  obtain ⟨i, j, _, hpainted⟩ := hpaints hsized [cornersOf 10 brick] (List.mem_singleton.mpr rfl)
  exact ⟨hqueues, hgrid, hx, hy, i, j, hpainted⟩

/-- A frame has begun without outlines, on whole units. -/
def units : Context Recorder :=
  (stateAfter (Command.runAll [.beginFrame, .noStroke])
    (⟨(), onCanvas Recorder.empty 4.0 4.0⟩ : Scene Unit Recorder)).context

/-- Three quarters of a unit wide, at a coordinate whose tolerance is a whole unit. -/
def farSlab : Rect := ⟨1000000000.5, 0.0, 0.75, 1.0⟩

def heldSlab : Context Recorder := stateAfter (rect farSlab) units

/-- It is held back, and nothing is left of it at the end of the frame, though both calls succeed. -/
theorem farSlab_swallowed :
    units.queues farSlab = some 1 ∧ Sized 1 farSlab ∧
      ¬quantize 1 farSlab.x < quantize 1 (farSlab.x + farSlab.width) ∧
      rect farSlab units = .ok () heldSlab ∧
      ∃ c, endFrame heldSlab = .ok () c ∧ c.cache.surface.liveShapes.isEmpty = true := by
  have hrect : passes (rect farSlab) units (fun _ _ => true) = true := by decide +kernel
  obtain ⟨_, hheld, _⟩ := ok_of_passes hrect
  have hbatch : heldSlab.batch.toList = [⟨⟨1000000001, 0⟩, ⟨1000000001, 1⟩⟩] := by decide +kernel
  have hshapes : shapes heldSlab.divisor heldSlab.batch.toList = [] := by
    rw [hbatch]
    exact (shapes_drop (by decide) heldSlab.divisor [] []).trans (shapes_nil _)
  have hpasses : passes endFrame heldSlab
      (fun _ c => c.cache.surface.liveShapes.isEmpty) = true :=
    endFrame_passes (by decide +kernel) (by decide +kernel) hshapes (by decide +kernel)
  have hsized : Sized 1 farSlab := ⟨by decide +kernel, by decide +kernel⟩
  obtain ⟨_, hrun, hempty⟩ := ok_of_passes hpasses
  exact ⟨by decide +kernel, hsized, by decide +kernel, hheld, _, hrun, hempty⟩

end Redraw.Context
