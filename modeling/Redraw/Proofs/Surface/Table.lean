import Redraw.Proofs.Ending
import Redraw.Surface.Recorder

namespace Redraw

theorem Handle.compare_lt_iff (h k : Handle) : compare h k = .lt ↔ h.id < k.id :=
  Nat.compare_eq_lt

namespace Recorder

variable {r r' r'' : Recorder} {handle k : Handle} {handles : List Handle} {shape shape' : StoredShape}

/-! ### What can happen to a table -/

/-- The shape at a handle is now `shape`, and no other shape has changed. -/
structure Placed (r r' : Recorder) (handle : Handle) (shape : StoredShape) : Prop where
  shape? : ∀ k, r'.shape? k = if k = handle then some shape else r.shape? k
  supported : r'.supported = r.supported
  removed : r'.removed = r.removed

/-- A shape that was there is written. -/
structure Rewritten (r r' : Recorder) (handle : Handle) (shape : StoredShape) : Prop
    extends Placed r r' handle shape where
  nextId : r'.nextId = r.nextId

/-- A shape is added under the next handle. -/
structure Created (r r' : Recorder) (handle : Handle) (shape : StoredShape) : Prop
    extends Placed r r' handle shape where
  handle_eq : handle = ⟨r.nextId⟩
  nextId : r'.nextId = r.nextId + 1

/-- The shapes at the handles were removed, in this order. -/
structure Removed (r r' : Recorder) (handles : List Handle) : Prop where
  shape? : ∀ k, r'.shape? k = if k ∈ handles then none else r.shape? k
  nextId : r'.nextId = r.nextId
  supported : r'.supported = r.supported
  removed : r'.removed = handles.reverse ++ r.removed

theorem Placed.here (h : Placed r r' handle shape) : r'.shape? handle = some shape := by
  rw [h.shape?, if_pos rfl]

theorem Placed.elsewhere (h : Placed r r' handle shape) (hk : k ≠ handle) :
    r'.shape? k = r.shape? k := by
  rw [h.shape?, if_neg hk]

theorem Placed.found (h : Placed r r' handle shape) (hfound : r'.shape? k = some shape') :
    k = handle ∧ shape' = shape ∨ r.shape? k = some shape' := by
  by_cases hk : k = handle
  · rw [hk, h.here] at hfound
    exact Or.inl ⟨hk, (Option.some.inj hfound).symm⟩
  · rw [h.elsewhere hk] at hfound
    exact Or.inr hfound

theorem Rewritten.refl (h : r.shape? handle = some shape) : Rewritten r r handle shape := by
  refine ⟨⟨?_, rfl, rfl⟩, rfl⟩
  intro k
  split
  · next hk => rw [hk, h]
  · rfl

theorem Rewritten.trans (h : Rewritten r r' handle shape) (h' : Rewritten r' r'' handle shape') :
    Rewritten r r'' handle shape' := by
  refine ⟨⟨?_, h'.supported.trans h.supported, h'.removed.trans h.removed⟩,
    h'.nextId.trans h.nextId⟩
  intro k
  by_cases hk : k = handle
  · rw [hk, h'.here, if_pos rfl]
  · rw [h'.elsewhere hk, h.elsewhere hk, if_neg hk]

theorem Rewritten.isSome_shape? (h : Rewritten r r' handle shape)
    (hlive : (r.shape? handle).isSome = true) (k : Handle) :
    (r'.shape? k).isSome = (r.shape? k).isSome := by
  by_cases hk : k = handle
  · rw [hk, h.here, hlive]
    rfl
  · rw [h.elsewhere hk]

theorem Removed.refl (r : Recorder) : Removed r r [] := by
  refine ⟨?_, rfl, rfl, rfl⟩
  intro k
  rw [if_neg List.not_mem_nil]

theorem Removed.cons (h : Removed r r' [handle]) (h' : Removed r' r'' handles) :
    Removed r r'' (handle :: handles) := by
  refine ⟨?_, h'.nextId.trans h.nextId, h'.supported.trans h.supported, ?_⟩
  · intro k
    rw [h'.shape?, h.shape?]
    simp only [List.mem_cons, List.not_mem_nil, or_false]
    by_cases hk : k ∈ handles <;> simp [hk]
  · rw [h'.removed, h.removed, @List.reverse_cons _ handle handles, List.append_assoc]
    rfl

theorem Removed.shape?_of_not_mem (h : Removed r r' handles) (hk : k ∉ handles) :
    r'.shape? k = r.shape? k := by
  rw [h.shape?, if_neg hk]

theorem Removed.shape?_of_mem (h : Removed r r' handles) (hk : k ∈ handles) :
    r'.shape? k = none := by
  rw [h.shape?, if_pos hk]

theorem Removed.found (h : Removed r r' handles) (hfound : r'.shape? k = some shape) :
    r.shape? k = some shape := by
  rw [h.shape?] at hfound
  split at hfound
  · cases hfound
  · exact hfound

/-! ### The table after a single change -/

theorem shape?_insert (shapes : Std.TreeMap Handle StoredShape) :
    (shapes.insert handle shape)[k]? = if k = handle then some shape else shapes[k]? := by
  simp only [Std.TreeMap.getElem?_insert, Std.LawfulEqCmp.compare_eq_iff_eq, @eq_comm _ k]

theorem shape?_erase (shapes : Std.TreeMap Handle StoredShape) :
    (shapes.erase handle)[k]? = if k ∈ [handle] then none else shapes[k]? := by
  simp only [Std.TreeMap.getElem?_erase, Std.LawfulEqCmp.compare_eq_iff_eq, List.mem_singleton,
    @eq_comm _ k]

/-! ### Answered calls -/

theorem create_ok {g : Geometry} {s : Style} (h : create g s r = .ok handle r') :
    fault? g = none ∧ r.unsupported? s = none ∧ Created r r' handle ⟨g, s⟩ := by
  unfold create at h
  split at h
  · cases h
  · cases h
  · next hfault hkeys =>
    cases h
    exact ⟨hfault, hkeys, ⟨fun k => shape?_insert r.shapes, rfl, rfl⟩, rfl, rfl⟩

theorem geometry_ok {g : Geometry} (h : geometry handle r = .ok g r') :
    r' = r ∧ ∃ shape, r.shape? handle = some shape ∧ shape.geometry = g := by
  unfold geometry at h
  split at h
  · next shape hshape =>
    cases h
    exact ⟨rfl, shape, hshape, rfl⟩
  · cases h

theorem setGeometry_ok {g : Geometry} (h : setGeometry handle g r = .ok () r') :
    fault? g = none ∧ ∃ shape, r.shape? handle = some shape ∧ shape.geometry.family = g.family ∧
      Rewritten r r' handle { shape with geometry := g } := by
  unfold setGeometry at h
  split at h
  · cases h
  · cases h
  · next shape hfault hshape =>
    split at h
    · next hfamily =>
      cases h
      exact ⟨hfault, shape, hshape, hfamily, ⟨fun k => shape?_insert r.shapes, rfl, rfl⟩, rfl⟩
    · cases h

theorem style_ok {key : StyleKey} {value : Option StyleValue}
    (h : style handle key r = .ok value r') :
    r' = r ∧ ∃ shape, r.shape? handle = some shape ∧ shape.style.get? key = value := by
  unfold style at h
  split at h
  · cases h
  · cases h
  · next shape _ hshape =>
    cases h
    exact ⟨rfl, shape, hshape, rfl⟩

theorem setStyle_ok {key : StyleKey} {value : StyleValue}
    (h : setStyle handle key value r = .ok () r') :
    ∃ shape, r.shape? handle = some shape ∧
      Rewritten r r' handle { shape with style := shape.style.set key value } := by
  unfold setStyle at h
  split at h
  · cases h
  · cases h
  · next shape _ hshape =>
    cases h
    exact ⟨shape, hshape, ⟨fun k => shape?_insert r.shapes, rfl, rfl⟩, rfl⟩

theorem remove_ok (h : remove handle r = .ok () r') : Removed r r' [handle] := by
  unfold remove at h
  split at h
  · cases h
  · cases h
    exact ⟨fun k => shape?_erase r.shapes, rfl, rfl, rfl⟩

theorem remove_of_live (h : r.shape? handle = some shape) : ∃ r', remove handle r = .ok () r' := by
  unfold remove
  rw [h]
  exact ⟨_, rfl⟩

theorem setField_eq (handle : Handle) (field : RectField) (value : Float) :
    (Surface.setField handle field value : EStateM SurfaceError Recorder Unit) =
      geometry handle >>= fun
        | .rect held => setGeometry handle (.rect (held.set field value))
        | _ => throw (.invalidGeometry (.notARectangle handle)) := rfl

theorem setField_ok {field : RectField} {value : Float}
    (h : Surface.setField handle field value r = .ok () r') :
    ∃ shape held, r.shape? handle = some shape ∧ shape.geometry = .rect held ∧
      fault? (.rect (held.set field value)) = none ∧
        Rewritten r r' handle { shape with geometry := .rect (held.set field value) } := by
  rw [setField_eq] at h
  obtain ⟨g, r₁, hread, h⟩ := ok_of_bind h
  obtain ⟨hr₁, shape, hshape, hg⟩ := geometry_ok hread
  rw [hr₁] at h
  cases g with
  | rect held =>
    obtain ⟨hfault, shape', hshape', _, hwritten⟩ := setGeometry_ok h
    rw [hshape] at hshape'
    cases hshape'
    exact ⟨shape, held, hshape, hg, hfault, hwritten⟩
  | ellipse => cases h
  | polygon => cases h

/-! ### Live shapes -/

theorem mem_liveShapes_iff (r : Recorder) (handle : Handle) (shape : StoredShape) :
    (handle, shape) ∈ r.liveShapes ↔ r.shape? handle = some shape :=
  Std.TreeMap.mem_toList_iff_getElem?_eq_some

theorem mem_liveHandles_iff (r : Recorder) (handle : Handle) :
    handle ∈ r.liveShapes.map Prod.fst ↔ (r.shape? handle).isSome = true := by
  rw [List.mem_map, Option.isSome_iff_exists]
  constructor
  · intro hsome
    obtain ⟨⟨k, shape⟩, hmem, rfl⟩ := hsome
    exact ⟨shape, (mem_liveShapes_iff r k shape).mp hmem⟩
  · intro hsome
    obtain ⟨shape, hshape⟩ := hsome
    exact ⟨(handle, shape), (mem_liveShapes_iff r handle shape).mpr hshape, rfl⟩

theorem liveHandles_increasing (r : Recorder) :
    (r.liveShapes.map Prod.fst).Pairwise fun h k => h.id < k.id := by
  have hordered : r.shapes.keys.Pairwise fun h k => compare h k = .lt := Std.TreeMap.ordered_keys
  rw [← Std.TreeMap.map_fst_toList_eq_keys] at hordered
  exact hordered.imp fun {h k} hlt => (Handle.compare_lt_iff h k).mp hlt

theorem nodup_of_increasing (h : handles.Pairwise fun h k => h.id < k.id) : handles.Nodup := by
  apply h.imp
  intro a b hlt heq
  rw [heq] at hlt
  exact Nat.lt_irrefl _ hlt

theorem liveHandles_eq (hincreasing : handles.Pairwise fun h k => h.id < k.id)
    (hlive : ∀ k, k ∈ handles ↔ (r.shape? k).isSome = true) :
    r.liveShapes.map Prod.fst = handles := by
  have hperm : (r.liveShapes.map Prod.fst).Perm handles := by
    rw [List.perm_ext_iff_of_nodup (nodup_of_increasing r.liveHandles_increasing)
      (nodup_of_increasing hincreasing)]
    intro k
    rw [mem_liveHandles_iff, hlive]
  refine hperm.eq_of_pairwise ?_ r.liveHandles_increasing hincreasing
  intro a b _ _ hlt hgt
  exact absurd hlt (Nat.lt_asymm hgt)

/-- The live shape that was made last. -/
def newest? (r : Recorder) : Option Handle := (r.liveShapes.map Prod.fst).getLast?

theorem isSome_shape?_of_newest (h : r.newest? = some handle) :
    (r.shape? handle).isSome = true :=
  (mem_liveHandles_iff r handle).mp (List.mem_of_getLast? h)

theorem liveCount_eq (r : Recorder) : r.liveCount = (r.liveShapes.map Prod.fst).length := by
  rw [List.length_map]
  exact Std.TreeMap.length_toList.symm

end Recorder

end Redraw
