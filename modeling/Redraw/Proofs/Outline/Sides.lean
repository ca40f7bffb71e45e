import Mathlib.Data.List.Nodup
import Mathlib.Logic.Function.Iterate
import Redraw.Proofs.Outline.Enclosure

namespace Redraw.Outline

/-! ### Sides by position -/

/-- The one side follows the other in a polygon; the first one follows the last one. -/
def Consecutive (polygon : Polygon) (side side' : Point × Point) : Prop :=
  ∃ k : Nat, (sides polygon)[k]? = some side ∧
    (sides polygon)[(k + 1) % polygon.length]? = some side'

theorem map_fst_sides (polygon : Polygon) : (sides polygon).map Prod.fst = polygon := by
  cases polygon with
  | nil => rfl
  | cons p rest =>
    apply List.map_fst_zip
    simp

theorem length_sides (polygon : Polygon) : (sides polygon).length = polygon.length := by
  have hlength := congrArg List.length (map_fst_sides polygon)
  rwa [List.length_map] at hlength

theorem fst_of_getElem?_sides {polygon : Polygon} {k : Nat} {side : Point × Point}
    (h : (sides polygon)[k]? = some side) : polygon[k]? = some side.1 := by
  have hfst : ((sides polygon).map Prod.fst)[k]? = some side.1 := by
    rw [List.getElem?_map, h]
    rfl
  rwa [map_fst_sides] at hfst

theorem snd_of_getElem?_sides {polygon : Polygon} {k : Nat} {side : Point × Point}
    (h : (sides polygon)[k]? = some side) :
    polygon[(k + 1) % polygon.length]? = some side.2 := by
  cases polygon with
  | nil => cases h
  | cons p rest =>
    have hsnd : (rest ++ [p])[k]? = some side.2 := (List.getElem?_zip_eq_some.mp h).2
    have hk : k < (rest ++ [p]).length := (List.getElem?_eq_some_iff.mp hsnd).1
    rw [List.length_append, List.length_singleton] at hk
    by_cases hlast : k = rest.length
    · subst hlast
      rw [List.length_cons, Nat.mod_self, ← hsnd, List.getElem?_concat_length]
      rfl
    · rw [List.getElem?_append_left (by omega)] at hsnd
      rw [List.length_cons, Nat.mod_eq_of_lt (by omega)]
      exact hsnd

/-! ### Sides along the axes -/

section Walks

variable {e : Edges} {vertices : Point → Prop} {polygon : Polygon}

theorem Leads.getElem? {start : Point} {axis : Axis} {current : Point} {met : List Point}
    (h : Leads e start axis current met) {k : Nat} {p q : Point}
    (hp : (current :: met)[k]? = some p) (hq : (met ++ [start])[k]? = some q) :
    (e.along (Axis.turn^[k] axis))[p]? = some q := by
  induction met generalizing axis current k with
  | nil =>
    cases k with
    | zero =>
      cases hp
      cases hq
      exact h.2
    | succ k => cases hp
  | cons next rest ih =>
    cases k with
    | zero =>
      cases hp
      cases hq
      exact h.1
    | succ k => exact ih h.2 hp hq

theorem Leads.last_axis {start : Point} {axis : Axis} {current : Point} {met : List Point}
    (h : Leads e start axis current met) : Axis.turn^[met.length] axis = .horizontal := by
  induction met generalizing axis current with
  | nil => exact h.1
  | cons next rest ih => exact ih h.2

theorem Outlines.along_side (h : Outlines e polygon) {k : Nat} {side : Point × Point}
    (hside : (sides polygon)[k]? = some side) :
    (e.along (Axis.turn^[k] .vertical))[side.1]? = some side.2 := by
  obtain ⟨start, met, rfl, hleads⟩ := h
  obtain ⟨hfst, hsnd⟩ := List.getElem?_zip_eq_some.mp hside
  exact hleads.getElem? hfst hsnd

theorem Outlines.turn_length (h : Outlines e polygon) :
    Axis.turn^[polygon.length] .vertical = .vertical := by
  obtain ⟨start, met, rfl, hleads⟩ := h
  rw [List.length_cons, Function.iterate_succ_apply', hleads.last_axis]
  rfl

theorem Outlines.next_side (h : Outlines e polygon) {side : Point × Point}
    (hside : side ∈ sides polygon) :
    ∃ (axis : Axis) (next : Point × Point), (e.along axis)[side.1]? = some side.2 ∧
      Consecutive polygon side next ∧ next.1 = side.2 ∧
        (e.along axis.turn)[next.1]? = some next.2 := by
  obtain ⟨k, hk⟩ := List.getElem?_of_mem hside
  have hlt : k < polygon.length := length_sides polygon ▸ (List.getElem?_eq_some_iff.mp hk).1
  have hmod : (k + 1) % polygon.length < (sides polygon).length := by
    rw [length_sides]
    exact Nat.mod_lt _ (Nat.zero_lt_of_lt hlt)
  have hnext := List.getElem?_eq_getElem hmod
  generalize (sides polygon)[(k + 1) % polygon.length] = next at hnext
  have hturn : Axis.turn^[(k + 1) % polygon.length] .vertical =
      (Axis.turn^[k] .vertical).turn := by
    have hsucc := Function.iterate_succ_apply' Axis.turn k .vertical
    rw [← hsucc, Nat.succ_eq_add_one]
    by_cases hlast : k + 1 = polygon.length
    · rw [hlast, Nat.mod_self, h.turn_length]
      rfl
    · rw [Nat.mod_eq_of_lt (by omega)]
  have hfst := (snd_of_getElem?_sides hk).symm.trans (fst_of_getElem?_sides hnext)
  have halong := h.along_side hnext
  rw [hturn] at halong
  exact ⟨_, next, h.along_side hk, ⟨k, hk, hnext⟩, (Option.some.inj hfst).symm, halong⟩

end Walks

/-! ### All sides of the boundary -/

section Sides

variable {boxes : List Box}

theorem map_fst_sides_boundary (polygons : List Polygon) :
    (polygons.flatMap sides).map Prod.fst = polygons.flatten := by
  rw [List.map_flatMap, List.flatMap_congr fun polygon _ => map_fst_sides polygon]
  exact List.flatMap_id

theorem flatten_boundary_nodup (boxes : List Box) : (boundary boxes).flatten.Nodup :=
  (flatten_boundary_perm boxes).nodup_iff.mpr (oddCorners_nodup boxes)

theorem sides_boundary_nodup (boxes : List Box) : ((boundary boxes).flatMap sides).Nodup := by
  apply List.Nodup.of_map Prod.fst
  rw [map_fst_sides_boundary]
  exact flatten_boundary_nodup boxes

theorem eq_of_fst_eq {side side' : Point × Point} (h : side ∈ (boundary boxes).flatMap sides)
    (h' : side' ∈ (boundary boxes).flatMap sides) (hfst : side.1 = side'.1) : side = side' := by
  have hnodup := flatten_boundary_nodup boxes
  rw [← map_fst_sides_boundary] at hnodup
  exact List.inj_on_of_nodup_map hnodup h h' hfst

end Sides

/-! ### Edges along a line -/

section Lines

variable {boxes : List Box} {axis : Axis} {p q p' q' v : Point}

theorem Axis.ext (axis : Axis) (hline : axis.line p = axis.line q)
    (hplace : axis.place p = axis.place q) : p = q := by
  cases p
  cases q
  cases axis <;> simp_all [Axis.line, Axis.place]

theorem Axis.over_of_lt (axis : Axis) {c t : Int} (hline : axis.line p = c) (hp : axis.place p ≤ t)
    (hq : t < axis.place q) : axis.Over c t (p, q) := ⟨hline, hp, Int.not_le.mpr hq⟩

theorem eq_end_of_onwards (hpq : ((Edges.ofVertices (oddCorners boxes)).along axis)[p]? = some q)
    (honwards : axis.place p < axis.place q) (hv : v ∈ oddCorners boxes)
    (hline : axis.line v = axis.line p) (hp : axis.place p ≤ axis.place v)
    (hq : axis.place v ≤ axis.place q) : v = p ∨ v = q := by
  have hsound := sound_ofVertices boxes axis
  have hsame := hsound.same_line p q hpq
  obtain ⟨w, hvw⟩ := (hsound.defined v).mp hv
  have hvwline := hsound.same_line v w hvw
  have hne : axis.place v ≠ axis.place w := fun h => hsound.ne v w hvw (axis.ext hvwline h)
  rcases Int.lt_or_gt_of_ne hne with hvlt | hwlt
  · -- the edge at the vertex leads onwards, so both edges go over the place of the vertex
    by_cases hend : axis.place v = axis.place q
    · exact Or.inr (axis.ext (hline.trans hsame) hend)
    · have hover : axis.Over (axis.line p) (axis.place v) (p, q) :=
        axis.over_of_lt rfl hp (by omega)
      have hover' : axis.Over (axis.line p) (axis.place v) (v, w) :=
        axis.over_of_lt hline (Int.le_refl _) hvlt
      exact Or.inl (eq_of_over hvw hpq hover' hover)
  · by_cases hbegin : axis.place p = axis.place v
    · exact Or.inl (axis.ext hline hbegin.symm)
    · have hwv := hsound.symm v w hvw
      have hover : axis.Over (axis.line p) (axis.place v - 1) (p, q) :=
        axis.over_of_lt rfl (by omega) (by omega)
      have hover' : axis.Over (axis.line p) (axis.place v - 1) (w, v) :=
        axis.over_of_lt (hvwline.symm.trans hline) (by omega) (by omega)
      have hwp := eq_of_over hwv hpq hover' hover
      subst hwp
      exact Or.inr (Option.some.inj (hwv.symm.trans hpq))

theorem eq_end_of_between (hpq : ((Edges.ofVertices (oddCorners boxes)).along axis)[p]? = some q)
    (hv : v ∈ oddCorners boxes) (hline : axis.line v = axis.line p)
    (hlow : min (axis.place p) (axis.place q) ≤ axis.place v)
    (hhigh : axis.place v ≤ max (axis.place p) (axis.place q)) : v = p ∨ v = q := by
  have hsound := sound_ofVertices boxes axis
  have hsame := hsound.same_line p q hpq
  have hne : axis.place p ≠ axis.place q := fun h => hsound.ne p q hpq (axis.ext hsame h)
  rcases Int.lt_or_gt_of_ne hne with hlt | hgt
  · exact eq_end_of_onwards hpq hlt hv hline (by omega) (by omega)
  · have hqp := hsound.symm p q hpq
    exact (eq_end_of_onwards hqp hgt hv (hline.trans hsame) (by omega) (by omega)).symm

/-- Edges on one line that meet are the same edge. -/
theorem eq_of_meet (hpq : ((Edges.ofVertices (oddCorners boxes)).along axis)[p]? = some q)
    (hpq' : ((Edges.ofVertices (oddCorners boxes)).along axis)[p']? = some q')
    (hline : axis.line p = axis.line p')
    (hmeet : min (axis.place p) (axis.place q) ≤ max (axis.place p') (axis.place q'))
    (hmeet' : min (axis.place p') (axis.place q') ≤ max (axis.place p) (axis.place q)) :
    p' = p ∧ q' = q ∨ p' = q ∧ q' = p := by
  have hsound := sound_ofVertices boxes axis
  have hqp := hsound.symm p q hpq
  have hqp' := hsound.symm p' q' hpq'
  have hsame := hsound.same_line p q hpq
  have hsame' := hsound.same_line p' q' hpq'
  have hshared : (p' = p ∨ p' = q) ∨ q' = p ∨ q' = q := by
    have hp := (hsound.defined p).mpr ⟨q, hpq⟩
    have hq := (hsound.defined q).mpr ⟨p, hqp⟩
    have hp' := (hsound.defined p').mpr ⟨q', hpq'⟩
    have hq' := (hsound.defined q').mpr ⟨p', hqp'⟩
    -- an end of one of the edges lies on the other
    by_cases hfirst : min (axis.place p) (axis.place q) ≤ axis.place p' ∧
        axis.place p' ≤ max (axis.place p) (axis.place q)
    · exact Or.inl (eq_end_of_between hpq hp' hline.symm hfirst.1 hfirst.2)
    by_cases hsecond : min (axis.place p) (axis.place q) ≤ axis.place q' ∧
        axis.place q' ≤ max (axis.place p) (axis.place q)
    · exact Or.inr (eq_end_of_between hpq hq' (hsame'.symm.trans hline.symm) hsecond.1 hsecond.2)
    rcases eq_end_of_between hpq' hp hline (by omega) (by omega) with h | h
    · exact Or.inl (Or.inl h.symm)
    · exact Or.inr (Or.inl h.symm)
  rcases hshared with (h | h) | h | h
  · subst h
    exact Or.inl ⟨rfl, Option.some.inj (hpq'.symm.trans hpq)⟩
  · subst h
    exact Or.inr ⟨rfl, Option.some.inj (hpq'.symm.trans hqp)⟩
  · subst h
    exact Or.inr ⟨Option.some.inj (hqp'.symm.trans hpq), rfl⟩
  · subst h
    exact Or.inl ⟨Option.some.inj (hqp'.symm.trans hqp), rfl⟩

end Lines

/-! ### Sides that share a vertex -/

section Shared

variable {boxes : List Box} {axis axis' : Axis} {side side' : Point × Point}

/-- Each side of the boundary follows an edge along one axis, and the next one turns. -/
theorem exists_next (h : side ∈ (boundary boxes).flatMap sides) :
    ∃ axis, ((Edges.ofVertices (oddCorners boxes)).along axis)[side.1]? = some side.2 ∧
      ∃ polygon ∈ boundary boxes, ∃ next ∈ (boundary boxes).flatMap sides,
        Consecutive polygon side next ∧ next.1 = side.2 ∧
          ((Edges.ofVertices (oddCorners boxes)).along axis.turn)[next.1]? = some next.2 := by
  obtain ⟨polygon, hpolygon, hside⟩ := List.mem_flatMap.mp h
  have houtlines := outlines_of_mem_boundary hpolygon
  obtain ⟨axis, next, halong, hnext, hfst, hturn⟩ := houtlines.next_side hside
  have hmem : next ∈ (boundary boxes).flatMap sides := by
    obtain ⟨k, -, hk⟩ := hnext
    exact List.mem_flatMap.mpr ⟨polygon, hpolygon, List.mem_of_getElem? hk⟩
  exact ⟨axis, halong, polygon, hpolygon, next, hmem, hnext, hfst, hturn⟩

theorem axis_unique (h : ((Edges.ofVertices (oddCorners boxes)).along axis)[side.1]? = some side.2)
    (h' : ((Edges.ofVertices (oddCorners boxes)).along axis')[side.1]? = some side.2) :
    axis = axis' := by
  have hsound := sound_ofVertices boxes
  have hline := (hsound axis).same_line _ _ h
  have hline' := (hsound axis').same_line _ _ h'
  have hne := (hsound axis).ne _ _ h
  by_cases haxis : axis = axis'
  · exact haxis
  · -- both coordinates of the ends would be the same
    have hplace : axis.place side.1 = axis.place side.2 := by
      cases axis <;> cases axis' <;> first | exact hline' | exact absurd rfl haxis
    exact absurd (axis.ext hline hplace) hne

theorem follows_of_snd_eq_fst (h : side ∈ (boundary boxes).flatMap sides)
    (h' : side' ∈ (boundary boxes).flatMap sides)
    (halong : ((Edges.ofVertices (oddCorners boxes)).along axis)[side.1]? = some side.2)
    (hshared : side.2 = side'.1) :
    (∃ polygon ∈ boundary boxes, Consecutive polygon side side') ∧
      ((Edges.ofVertices (oddCorners boxes)).along axis.turn)[side'.1]? = some side'.2 := by
  obtain ⟨found, hfound, polygon, hpolygon, next, hmem, hnext, hfst, hturn⟩ := exists_next h
  obtain rfl := eq_of_fst_eq hmem h' (hfst.trans hshared)
  obtain rfl := axis_unique hfound halong
  exact ⟨⟨polygon, hpolygon, hnext⟩, hturn⟩

theorem eq_of_snd_eq (h : side ∈ (boundary boxes).flatMap sides)
    (h' : side' ∈ (boundary boxes).flatMap sides) (hsnd : side.2 = side'.2) : side = side' := by
  obtain ⟨axis, halong, _, _, next, hmem, _, hfst, hturn⟩ := exists_next h
  obtain ⟨axis', halong', -⟩ := exists_next h'
  obtain ⟨-, hturn'⟩ := follows_of_snd_eq_fst h' hmem halong' (hsnd.symm.trans hfst.symm)
  have haxis : axis.turn = axis'.turn := axis_unique hturn hturn'
  have haxis : axis = axis' := by
    cases axis <;> cases axis' <;> first | rfl | cases haxis
  subst haxis
  have hsound := sound_ofVertices boxes axis
  have hback := hsound.symm _ _ halong
  have hback' := hsound.symm _ _ halong'
  rw [hsnd] at hback
  exact Prod.ext (Option.some.inj (hback.symm.trans hback')) hsnd

end Shared

end Redraw.Outline
