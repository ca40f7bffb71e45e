import Redraw.Surface.Recorder

namespace Redraw.Number

open Float.Model

theorem compare_self {a : UnpackedFloat} (h : a ≠ .notANumber) : a.compare a = some .eq := by
  cases a with
  | notANumber => exact absurd rfl h
  | infinity s => cases s <;> rfl
  | zero s => rfl
  | finite s m e hm =>
    have he : compare e e = .eq := Std.ReflCmp.compare_self
    have hm' : compare m m = .eq := Std.ReflCmp.compare_self
    have hsame : (compare e e).then (compare m m) = .eq := by
      rw [he, hm']
      rfl
    cases s with
    | positive => exact congrArg some hsame
    | negative => exact congrArg (fun o => some o.swap) hsame

theorem eq_of_then_eq {e f : Int} {m n : Nat}
    (h : (compare e f).then (compare m n) = .eq) : e = f ∧ m = n := by
  rw [Ordering.then_eq_eq, Std.LawfulEqCmp.compare_eq_iff_eq,
    Std.LawfulEqCmp.compare_eq_iff_eq] at h
  exact h

theorem eq_or_zero_of_compare {a b : UnpackedFloat} (h : a.compare b = some .eq) :
    (∃ s t, a = .zero s ∧ b = .zero t) ∨ a = b ∧ a ≠ .notANumber := by
  cases a with
  | notANumber => cases h
  | infinity s =>
    cases b with
    | infinity t => cases s <;> cases t <;> first | exact Or.inr ⟨rfl, nofun⟩ | cases h
    | notANumber => cases h
    | zero t => cases s <;> cases h
    | finite t n f hn => cases s <;> cases h
  | zero s =>
    cases b with
    | infinity t => cases t <;> cases h
    | notANumber => cases h
    | zero t => exact Or.inl ⟨s, t, rfl, rfl⟩
    | finite t n f hn => cases t <;> cases h
  | finite s m e hm =>
    cases b with
    | infinity t => cases s <;> cases t <;> cases h
    | notANumber => cases s <;> cases h
    | zero t => cases s <;> cases h
    | finite t n f hn =>
      -- of one sign they are compared by exponent and then by mantissa
      cases s with
      | positive =>
        cases t with
        | negative => cases h
        | positive =>
          obtain ⟨rfl, rfl⟩ := eq_of_then_eq (Option.some.inj h)
          exact Or.inr ⟨rfl, nofun⟩
      | negative =>
        cases t with
        | positive => cases h
        | negative =>
          obtain ⟨rfl, rfl⟩ := eq_of_then_eq (Ordering.swap_eq_eq.mp (Option.some.inj h))
          exact Or.inr ⟨rfl, nofun⟩

theorem beq_iff (x y : Float) : (x == y) = true ↔
    (∃ s t, x.toModel.unpack = .zero s ∧ y.toModel.unpack = .zero t) ∨
      x.toModel.unpack = y.toModel.unpack ∧ x.toModel.unpack ≠ .notANumber := by
  show (x.toModel.unpack.compare y.toModel.unpack == some .eq) = true ↔ _
  rw [beq_iff_eq]
  constructor
  · exact eq_or_zero_of_compare
  · intro hcases
    rcases hcases with ⟨s, t, hx, hy⟩ | ⟨heq, hx⟩
    · rw [hx, hy]
      rfl
    · rw [← heq]
      exact compare_self hx

theorem beq_symm {x y : Float} (h : (x == y) = true) : (y == x) = true := by
  rw [beq_iff] at h ⊢
  rcases h with ⟨s, t, hx, hy⟩ | ⟨heq, hx⟩
  · exact Or.inl ⟨t, s, hy, hx⟩
  · exact Or.inr ⟨heq.symm, heq ▸ hx⟩

theorem beq_trans {x y z : Float} (hxy : (x == y) = true) (hyz : (y == z) = true) :
    (x == z) = true := by
  rw [beq_iff] at hxy hyz ⊢
  rcases hxy with ⟨s, t, hx, hy⟩ | ⟨hxy, hx⟩
  · rcases hyz with ⟨t', u, _, hz⟩ | ⟨hyz, _⟩
    · exact Or.inl ⟨s, u, hx, hz⟩
    · exact Or.inl ⟨s, t, hx, hyz ▸ hy⟩
  · rcases hyz with ⟨t, u, hy, hz⟩ | ⟨hyz, _⟩
    · exact Or.inl ⟨t, u, hxy.trans hy, hz⟩
    · exact Or.inr ⟨hxy.trans hyz, hx⟩

theorem beq_self_of_isFinite {x : Float} (h : x.isFinite = true) : (x == x) = true := by
  have hfinite : x.toModel.unpack.isFinite = true := h
  rw [beq_iff]
  refine Or.inr ⟨rfl, ?_⟩
  intro hnan
  rw [hnan] at hfinite
  cases hfinite

theorem beq_self_iff (x : Float) : (x == x) = true ↔ x.isNaN = false := by
  show _ ↔ x.toModel.unpack.isNaN = false
  rw [beq_iff]
  constructor
  · rintro (⟨s, t, hx, _⟩ | ⟨_, hx⟩)
    · rw [hx]
      rfl
    · cases hcase : x.toModel.unpack with
      | notANumber => exact absurd hcase hx
      | infinity => rfl
      | zero => rfl
      | finite => rfl
  · intro hnumber
    refine Or.inr ⟨rfl, ?_⟩
    intro hnan
    rw [hnan] at hnumber
    cases hnumber

theorem isFinite_congr {x y : Float} (h : (x == y) = true) : x.isFinite = y.isFinite := by
  show x.toModel.unpack.isFinite = y.toModel.unpack.isFinite
  rcases (beq_iff x y).mp h with ⟨s, t, hx, hy⟩ | ⟨heq, _⟩
  · rw [hx, hy]
    rfl
  · rw [heq]

theorem lt_iff (x y : Float) : x < y ↔ x.toModel.unpack.compare y.toModel.unpack = some .lt := by
  show decide ((x.toModel.unpack.compare y.toModel.unpack == some .lt) = true) = true ↔ _
  rw [decide_eq_true_iff, beq_iff_eq]

theorem lt_congr_left {x y z : Float} (h : (x == y) = true) : x < z ↔ y < z := by
  rw [lt_iff, lt_iff]
  rcases (beq_iff x y).mp h with ⟨s, t, hx, hy⟩ | ⟨heq, _⟩
  · -- the sign of a zero has no say in a comparison
    rw [hx, hy]
    cases z.toModel.unpack with
    | infinity u => cases u <;> rfl
    | notANumber => rfl
    | zero u => rfl
    | finite u m e hm => cases u <;> rfl
  · rw [heq]

end Redraw.Number

namespace Redraw

/-! ### Kinds -/

namespace ShapeKind

theorem ellipse_beq (w h w' h' : Float) :
    (ellipse w h == ellipse w' h') = (w == w' && h == h') := rfl

theorem beq_symm {k l : ShapeKind} (h : (k == l) = true) : (l == k) = true := by
  cases k with
  | rect => cases l <;> first | rfl | cases h
  | polygon => cases l <;> first | rfl | cases h
  | ellipse w v =>
    cases l with
    | rect => cases h
    | polygon => cases h
    | ellipse w' v' =>
      rw [ellipse_beq, Bool.and_eq_true] at h ⊢
      exact ⟨Number.beq_symm h.1, Number.beq_symm h.2⟩

theorem beq_trans {k l m : ShapeKind} (hkl : (k == l) = true) (hlm : (l == m) = true) :
    (k == m) = true := by
  cases k with
  | rect => cases l <;> first | exact hlm | cases hkl
  | polygon => cases l <;> first | exact hlm | cases hkl
  | ellipse w v =>
    cases l with
    | rect => cases hkl
    | polygon => cases hkl
    | ellipse w' v' =>
      cases m with
      | rect => cases hlm
      | polygon => cases hlm
      | ellipse w'' v'' =>
        rw [ellipse_beq, Bool.and_eq_true] at hkl hlm ⊢
        exact ⟨Number.beq_trans hkl.1 hlm.1, Number.beq_trans hkl.2 hlm.2⟩

end ShapeKind

/-! ### Styles -/

section Styles

instance instPartialEquivBEqFloat : PartialEquivBEq Float where
  symm := Number.beq_symm
  trans := Number.beq_trans

theorem Color.beq_eq (c d : Color) : (c == d) = (c.red == d.red && (c.green == d.green &&
    (c.blue == d.blue && c.alpha == d.alpha))) := by
  cases c
  cases d
  rfl

instance : PartialEquivBEq Color where
  symm := by
    intro c d h
    simp only [Color.beq_eq, Bool.and_eq_true] at h ⊢
    obtain ⟨hred, hgreen, hblue, halpha⟩ := h
    exact ⟨BEq.symm hred, BEq.symm hgreen, BEq.symm hblue, BEq.symm halpha⟩
  trans := by
    intro c d e h h'
    simp only [Color.beq_eq, Bool.and_eq_true] at h h' ⊢
    obtain ⟨hred, hgreen, hblue, halpha⟩ := h
    obtain ⟨hred', hgreen', hblue', halpha'⟩ := h'
    exact ⟨BEq.trans hred hred', BEq.trans hgreen hgreen', BEq.trans hblue hblue',
      BEq.trans halpha halpha'⟩

/-- Values are equal only if they are of one sort, so each sort lends its own equality. -/
instance : PartialEquivBEq StyleValue where
  symm := by
    intro v w h
    cases v with
    | bool =>
      cases w with
      | bool => exact BEq.symm (α := Bool) h
      | number | color => cases h
    | number =>
      cases w with
      | number => exact BEq.symm (α := Float) h
      | bool | color => cases h
    | color =>
      cases w with
      | color => exact BEq.symm (α := Color) h
      | bool | number => cases h
  trans := by
    intro u v w h h'
    cases v with
    | bool =>
      cases u with
      | bool =>
        cases w with
        | bool => exact BEq.trans (α := Bool) h h'
        | number | color => cases h'
      | number | color => cases h
    | number =>
      cases u with
      | number =>
        cases w with
        | number => exact BEq.trans (α := Float) h h'
        | bool | color => cases h'
      | bool | color => cases h
    | color =>
      cases u with
      | color =>
        cases w with
        | color => exact BEq.trans (α := Color) h h'
        | bool | number => cases h'
      | bool | number => cases h

instance instPartialEquivBEqOption {α : Type} [BEq α] [PartialEquivBEq α] :
    PartialEquivBEq (Option α) where
  symm := by
    intro v w h
    cases v <;> cases w <;> first | exact BEq.symm (α := α) h | exact h
  trans := by
    intro u v w h h'
    cases v <;> cases u <;> cases w <;> first | exact BEq.trans (α := α) h h' | exact h | cases h'

theorem Style.beq_eq (s t : Style) : (s == t) = (s.antialiased == t.antialiased &&
    (s.fill == t.fill && (s.faceColor == t.faceColor &&
      (s.edgeColor == t.edgeColor && s.lineWidth == t.lineWidth)))) := by
  cases s
  cases t
  rfl

instance : PartialEquivBEq Style where
  symm := by
    intro s t h
    simp only [Style.beq_eq, Bool.and_eq_true] at h ⊢
    obtain ⟨hantialiased, hfill, hface, hedge, hwidth⟩ := h
    exact ⟨BEq.symm hantialiased, BEq.symm hfill, BEq.symm hface, BEq.symm hedge, BEq.symm hwidth⟩
  trans := by
    intro s t u h h'
    simp only [Style.beq_eq, Bool.and_eq_true] at h h' ⊢
    obtain ⟨hantialiased, hfill, hface, hedge, hwidth⟩ := h
    obtain ⟨hantialiased', hfill', hface', hedge', hwidth'⟩ := h'
    exact ⟨BEq.trans hantialiased hantialiased', BEq.trans hfill hfill', BEq.trans hface hface',
      BEq.trans hedge hedge', BEq.trans hwidth hwidth'⟩

end Styles

/-! ### Geometries that a surface accepts -/

theorem Recorder.isFinite_of_fault? {g : Geometry} (h : Recorder.fault? g = none) :
    g.isFinite = true := by
  unfold Recorder.fault? at h
  split at h
  · assumption
  · cases h

theorem Geometry.kind_beq_self {g : Geometry} (h : Recorder.fault? g = none) :
    (g.kind == g.kind) = true := by
  have hfinite := Recorder.isFinite_of_fault? h
  cases g with
  | rect r => rfl
  | polygon points closed => rfl
  | ellipse x y w v =>
    simp only [isFinite, Bool.and_eq_true] at hfinite
    show (ShapeKind.ellipse w v == ShapeKind.ellipse w v) = true
    rw [ShapeKind.ellipse_beq, Bool.and_eq_true]
    exact ⟨Number.beq_self_of_isFinite hfinite.1.2, Number.beq_self_of_isFinite hfinite.2⟩

/-- A geometry shows a request: the same family with equal numbers, and the very points of a polygon. -/
def Geometry.Shows : Geometry → Geometry → Prop
  | .rect held, .rect wanted => ∀ field, (held.get field == wanted.get field) = true
  | .ellipse x y w h, .ellipse x' y' w' h' =>
    (x == x') = true ∧ (y == y') = true ∧ (w == w') = true ∧ (h == h') = true
  | .polygon points closed, .polygon points' closed' => points = points' ∧ closed = closed'
  | _, _ => False

theorem Geometry.shows_self {g : Geometry} (h : Recorder.fault? g = none) : g.Shows g := by
  have hfinite := Recorder.isFinite_of_fault? h
  cases g with
  | rect r =>
    simp only [isFinite, Bool.and_eq_true] at hfinite
    intro field
    apply Number.beq_self_of_isFinite
    cases field
    · exact hfinite.1.1.1
    · exact hfinite.1.1.2
    · exact hfinite.1.2
    · exact hfinite.2
  | polygon points closed => exact ⟨rfl, rfl⟩
  | ellipse x y w v =>
    simp only [isFinite, Bool.and_eq_true] at hfinite
    exact ⟨Number.beq_self_of_isFinite hfinite.1.1.1, Number.beq_self_of_isFinite hfinite.1.1.2,
      Number.beq_self_of_isFinite hfinite.1.2, Number.beq_self_of_isFinite hfinite.2⟩

end Redraw
