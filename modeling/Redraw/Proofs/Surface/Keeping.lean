import Mathlib.Tactic.ByContra
import Redraw.Proofs.Surface.Recording

namespace Redraw

/-! ### Geometries that are accepted -/

namespace Geometry

def numbers : Geometry → List Float
  | .rect r => [r.x, r.y, r.width, r.height]
  | .ellipse centerX centerY width height => [centerX, centerY, width, height]
  | .polygon points _ => points.flatMap fun p => [p.1, p.2]

/-- Some number is not finite, or a size is below zero. -/
def Invalid (g : Geometry) : Prop :=
  (∃ x, x ∈ g.numbers ∧ x.isFinite = false) ∨
    ∃ size, g.size? = some size ∧ (size.1 < 0.0 ∨ size.2 < 0.0)

theorem isFinite_iff (g : Geometry) : g.isFinite = true ↔ ∀ x, x ∈ g.numbers → x.isFinite = true := by
  cases g with
  | rect r => simp [isFinite, numbers, and_assoc]
  | ellipse => simp [isFinite, numbers, and_assoc]
  | polygon points =>
    simp only [isFinite, numbers, List.all_eq_true, List.mem_flatMap, Bool.and_eq_true]
    constructor
    · rintro h x ⟨p, hp, hx⟩
      rcases List.mem_cons.mp hx with rfl | hx
      · exact (h p hp).1
      · rw [List.mem_singleton.mp hx]
        exact (h p hp).2
    · intro h p hp
      exact ⟨h p.1 ⟨p, hp, List.mem_cons_self⟩,
        h p.2 ⟨p, hp, List.mem_cons_of_mem _ List.mem_cons_self⟩⟩

end Geometry

namespace Recorder

theorem fault?_eq_none_iff (g : Geometry) : fault? g = none ↔
    g.isFinite = true ∧ ∀ size, g.size? = some size → ¬size.1 < 0.0 ∧ ¬size.2 < 0.0 := by
  unfold fault?
  cases hfinite : g.isFinite with
  | false => simp
  | true =>
    cases hsize : g.size? with
    | none => simp
    | some size => simp [not_or]

theorem invalid_iff (g : Geometry) : g.Invalid ↔ fault? g ≠ none := by
  rw [Ne, fault?_eq_none_iff, g.isFinite_iff]
  unfold Geometry.Invalid
  constructor
  · rintro (⟨x, hx, hinfinite⟩ | ⟨size, hsize, hnegative⟩) ⟨hfinite, hsizes⟩
    · rw [hfinite x hx] at hinfinite
      cases hinfinite
    · rcases hnegative with hwidth | hheight
      · exact (hsizes size hsize).1 hwidth
      · exact (hsizes size hsize).2 hheight
  · intro hnot
    by_contra hvalid
    rw [not_or] at hvalid
    refine hnot ⟨?_, ?_⟩
    · intro x hx
      rw [← Bool.not_eq_false]
      exact fun hinfinite => hvalid.1 ⟨x, hx, hinfinite⟩
    · intro size hsize
      exact ⟨fun hwidth => hvalid.2 ⟨size, hsize, .inl hwidth⟩,
        fun hheight => hvalid.2 ⟨size, hsize, .inr hheight⟩⟩

end Recorder

def Stats.count (s : Stats) : SurfaceCall → Stats
  | .create _ => { s with created := s.created + 1 }
  | .setGeometry _ => { s with geometryWrites := s.geometryWrites + 1 }
  | .setStyle _ _ => { s with styleWrites := s.styleWrites + 1 }
  | .remove _ => { s with removed := s.removed + 1 }
  | .geometry _ | .style _ _ => s

namespace Recorder

variable {r r' : Recorder} {handle : Handle} {shape : StoredShape}

/-! ### Properties that calls keep -/

/-- No answered call breaks the property; refused calls change nothing. -/
structure Stable (B : Recorder → Prop) : Prop where
  create : ∀ {g s handle r r'}, create g s r = .ok handle r' → B r → B r'
  setGeometry : ∀ {handle g r r'}, setGeometry handle g r = .ok () r' → B r → B r'
  setStyle : ∀ {handle key value r r'}, setStyle handle key value r = .ok () r' → B r → B r'
  remove : ∀ {handle r r'}, remove handle r = .ok () r' → B r → B r'

/-! ### What a recorder counts -/

section Counts

variable {g : Geometry} {s : Style} {key : StyleKey}

theorem create_stats (h : create g s r = .ok handle r') :
    r'.stats = r.stats.count (.create g.family) := by
  unfold create at h
  split at h <;> cases h
  rfl

theorem geometry_stats (h : geometry handle r = .ok g r') :
    r'.stats = r.stats.count (.geometry handle) := by
  rw [(geometry_ok h).1]
  rfl

theorem setGeometry_stats (h : setGeometry handle g r = .ok () r') :
    r'.stats = r.stats.count (.setGeometry handle) := by
  unfold setGeometry at h
  split at h
  · cases h
  · cases h
  · split at h <;> cases h
    rfl

theorem style_stats {value : Option StyleValue} (h : style handle key r = .ok value r') :
    r'.stats = r.stats.count (.style handle key) := by
  rw [(style_ok h).1]
  rfl

theorem setStyle_stats {value : StyleValue} (h : setStyle handle key value r = .ok () r') :
    r'.stats = r.stats.count (.setStyle handle key) := by
  unfold setStyle at h
  split at h <;> cases h
  rfl

theorem remove_stats (h : remove handle r = .ok () r') :
    r'.stats = r.stats.count (.remove handle) := by
  unfold remove at h
  split at h <;> cases h
  rfl

end Counts

/-- Handles are given out one by one, each for a shape that is counted as created. -/
theorem stable_counted : Stable fun r => r.stats.created = r.nextId where
  create := by
    intro g s handle r r' hrun hcount
    obtain ⟨_, _, hcreated⟩ := create_ok hrun
    rw [create_stats hrun, hcreated.nextId]
    exact congrArg (· + 1) hcount
  setGeometry := by
    intro handle g r r' hrun hcount
    obtain ⟨_, _, _, _, hwritten⟩ := setGeometry_ok hrun
    rw [setGeometry_stats hrun, hwritten.nextId]
    exact hcount
  setStyle := by
    intro handle key value r r' hrun hcount
    obtain ⟨_, _, hwritten⟩ := setStyle_ok hrun
    rw [setStyle_stats hrun, hwritten.nextId]
    exact hcount
  remove := by
    intro handle r r' hrun hcount
    rw [remove_stats hrun, (remove_ok hrun).nextId]
    exact hcount

/-! ### Created and removed shapes -/

/-- Every shape that was created is live or was removed. -/
structure Balanced (r : Recorder) : Prop where
  below : ∀ k, (r.shape? k).isSome = true → k.id < r.nextId
  count : r.stats.created = r.liveCount + r.stats.removed

theorem contains_eq (r : Recorder) (handle : Handle) :
    r.shapes.contains handle = (r.shape? handle).isSome := by
  rw [Bool.eq_iff_iff, Std.TreeMap.contains_iff_mem]
  exact Std.TreeMap.mem_iff_isSome_getElem?

theorem liveCount_pos (hlive : (r.shape? handle).isSome = true) : 0 < r.liveCount := by
  rw [liveCount_eq]
  exact List.length_pos_of_mem ((mem_liveHandles_iff r handle).mpr hlive)

theorem Balanced.write (h : Balanced r) (hwritten : Rewritten r r' handle shape)
    (hlive : (r.shape? handle).isSome = true) (hcreated : r'.stats.created = r.stats.created)
    (hremoved : r'.stats.removed = r.stats.removed) (hcount : r'.liveCount = r.liveCount) :
    Balanced r' := by
  refine ⟨?_, ?_⟩
  · intro k hk
    rw [hwritten.isSome_shape? hlive] at hk
    rw [hwritten.nextId]
    exact h.below k hk
  · rw [hcreated, hremoved, hcount]
    exact h.count

theorem size_insert_of_live (hlive : (r.shape? handle).isSome = true) (shape : StoredShape) :
    (r.shapes.insert handle shape).size = r.liveCount := by
  rw [Std.TreeMap.size_insert, contains_eq, if_pos hlive]
  rfl

theorem stable_balanced : Stable Balanced where
  create := by
    intro g s handle r r' hrun h
    obtain ⟨_, _, hcreated⟩ := create_ok hrun
    have hfresh : r.shapes.contains ⟨r.nextId⟩ = false := by
      rw [contains_eq, Bool.eq_false_iff]
      intro hlive
      exact Nat.lt_irrefl _ (h.below _ hlive)
    unfold create at hrun
    split at hrun <;> cases hrun
    refine ⟨?_, ?_⟩
    · intro k hk
      rw [hcreated.nextId]
      by_cases hsame : k = ⟨r.nextId⟩
      · rw [hsame]
        exact Nat.lt_succ_self _
      · rw [hcreated.elsewhere hsame] at hk
        exact Nat.lt_succ_of_lt (h.below k hk)
    · show r.stats.created + 1 = (r.shapes.insert ⟨r.nextId⟩ ⟨g, s⟩).size + r.stats.removed
      have hcount := h.count
      unfold liveCount at hcount
      rw [Std.TreeMap.size_insert, hfresh, if_neg Bool.false_ne_true]
      omega
  setGeometry := by
    intro handle g r r' hrun h
    obtain ⟨hfault, shape, hshape, hfamily, hwritten⟩ := setGeometry_ok hrun
    have hlive : (r.shape? handle).isSome = true := by rw [hshape]; rfl
    simp only [setGeometry, hfault, hshape, if_pos hfamily] at hrun
    cases hrun
    exact h.write hwritten hlive rfl rfl (size_insert_of_live hlive _)
  setStyle := by
    intro handle key value r r' hrun h
    obtain ⟨shape, hshape, hwritten⟩ := setStyle_ok hrun
    have hlive : (r.shape? handle).isSome = true := by rw [hshape]; rfl
    unfold setStyle at hrun
    split at hrun <;> cases hrun
    exact h.write hwritten hlive rfl rfl (size_insert_of_live hlive _)
  remove := by
    intro handle r r' hrun h
    have hremoved := remove_ok hrun
    have hcount := h.count
    unfold remove at hrun
    split at hrun
    · cases hrun
    · next shape hshape =>
      cases hrun
      have hlive : (r.shape? handle).isSome = true := by rw [hshape]; rfl
      refine ⟨?_, ?_⟩
      · intro k hk
        rw [hremoved.shape?] at hk
        split at hk
        · cases hk
        · exact h.below k hk
      · show r.stats.created = (r.shapes.erase handle).size + (r.stats.removed + 1)
        have hpos := liveCount_pos hlive
        unfold liveCount at hcount hpos
        rw [Std.TreeMap.size_erase, contains_eq, if_pos hlive]
        omega

/-! ### Geometries that are held -/

/-- The surface takes these attributes, and every geometry it holds was accepted. -/
structure Vetted (supported : Option (List StyleKey)) (r : Recorder) : Prop where
  supported : r.supported = supported
  valid : ∀ k shape, r.shape? k = some shape → fault? shape.geometry = none

theorem Vetted.placed {supported : Option (List StyleKey)} (h : r.Vetted supported)
    (hplaced : Placed r r' handle shape) (hvalid : fault? shape.geometry = none) :
    r'.Vetted supported := by
  refine ⟨hplaced.supported.trans h.supported, ?_⟩
  intro k held hheld
  rcases hplaced.found hheld with ⟨-, rfl⟩ | hbefore
  · exact hvalid
  · exact h.valid k held hbefore

theorem stable_vetted (supported : Option (List StyleKey)) :
    Stable (Vetted supported) where
  create hrun h :=
    have ⟨hfault, _, hcreated⟩ := create_ok hrun
    h.placed hcreated.toPlaced hfault
  setGeometry hrun h :=
    have ⟨hfault, _, _, _, hwritten⟩ := setGeometry_ok hrun
    h.placed hwritten.toPlaced hfault
  setStyle hrun h :=
    have ⟨shape, hshape, hwritten⟩ := setStyle_ok hrun
    h.placed hwritten.toPlaced (h.valid _ shape hshape)
  remove := by
    intro handle r r' hrun h
    have hremoved := remove_ok hrun
    exact ⟨hremoved.supported.trans h.supported, fun k shape hshape =>
      h.valid k shape (hremoved.found hshape)⟩

end Recorder

end Redraw
