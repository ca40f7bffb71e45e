import Redraw.Proofs.Cache.Plan

namespace Redraw

open CachedShape

theorem Geometry.family_eq_of_kind_beq {g g' : Geometry} (h : (g.kind == g'.kind) = true) :
    g.family = g'.family := by
  cases g <;> cases g' <;> first | rfl | cases h

/-! ### Rectangles, number by number -/

/-- A rectangle may have the number in the field. -/
def RectField.Allows (field : RectField) (x : Float) : Prop :=
  x.isFinite = true ∧ (field = .width ∨ field = .height → ¬x < 0.0)

theorem RectField.Allows.congr {field : RectField} {x y : Float} (h : field.Allows x)
    (heq : (x == y) = true) : field.Allows y := by
  refine ⟨(Number.isFinite_congr heq).symm.trans h.1, ?_⟩
  intro hsize hnegative
  exact h.2 hsize ((Number.lt_congr_left heq).mpr hnegative)

theorem Recorder.fault?_rect_eq_none_iff (r : Rect) :
    fault? (.rect r) = none ↔ ∀ field : RectField, field.Allows (r.get field) := by
  rw [fault?_eq_none_iff]
  simp only [Geometry.isFinite, Geometry.size?, Option.some.injEq, forall_eq', Bool.and_eq_true]
  constructor
  · rintro ⟨⟨⟨⟨hx, hy⟩, hw⟩, hh⟩, hwidth, hheight⟩ field
    cases field with
    | x => exact ⟨hx, by rintro (h | h) <;> cases h⟩
    | y => exact ⟨hy, by rintro (h | h) <;> cases h⟩
    | width => exact ⟨hw, fun _ => hwidth⟩
    | height => exact ⟨hh, fun _ => hheight⟩
  · intro h
    exact ⟨⟨⟨⟨(h .x).1, (h .y).1⟩, (h .width).1⟩, (h .height).1⟩, (h .width).2 (.inl rfl),
      (h .height).2 (.inr rfl)⟩

theorem Recorder.fault?_set_eq_none_iff {r : Rect} (h : fault? (.rect r) = none) (field : RectField)
    (x : Float) : fault? (.rect (r.set field x)) = none ↔ field.Allows x := by
  rw [fault?_rect_eq_none_iff] at h ⊢
  constructor
  · intro hall
    have hfield := hall field
    rwa [Rect.get_set, if_pos rfl] at hfield
  · intro hx other
    rw [Rect.get_set]
    split
    · next heq =>
      rw [heq]
      exact hx
    · exact h other

/-! ### Calls that a recorder refuses -/

namespace Recorder

variable {r : Recorder} {handle : Handle} {shape : StoredShape} {g : Geometry} {held : Rect}
  {field : RectField} {key : StyleKey}

/-- The first of the keys that the surface does not take. -/
def refusedKey? (r : Recorder) (keys : List StyleKey) : Option StyleKey :=
  keys.find? fun key => !r.supports key

theorem unsupported?_eq (r : Recorder) (s : Style) : r.unsupported? s = r.refusedKey? s.keys := rfl

theorem refusedKey?_congr {r' : Recorder} (h : r'.supported = r.supported) (keys : List StyleKey) :
    r'.refusedKey? keys = r.refusedKey? keys := by
  have hsupports : r'.supports = r.supports := by
    funext key
    unfold supports
    rw [h]
  unfold refusedKey?
  rw [hsupports]

theorem refusedKey?_cons (r : Recorder) (key : StyleKey) (keys : List StyleKey) :
    r.refusedKey? (key :: keys) = if r.supports key then r.refusedKey? keys else some key := by
  unfold refusedKey?
  rw [List.find?_cons]
  cases r.supports key <;> rfl

theorem geometry_answers (hshape : r.shape? handle = some shape) :
    Ends (geometry handle) r (fun _ _ => True) fun _ _ => False := by
  unfold Ends geometry
  rw [hshape]
  trivial

theorem setGeometry_decides (hshape : r.shape? handle = some shape)
    (hfamily : shape.geometry.family = g.family) :
    Ends (setGeometry handle g) r (fun _ _ => fault? g = none)
      fun e _ => fault? g ≠ none ∧ ∃ fault, e = .invalidGeometry fault := by
  unfold Ends setGeometry
  rw [hshape]
  cases hfault : fault? g with
  | some fault => exact ⟨nofun, fault, rfl⟩
  | none =>
    dsimp only
    rw [if_pos hfamily]

theorem setField_decides {value : Float} (hshape : r.shape? handle = some shape)
    (hheld : shape.geometry = .rect held) (hvalid : fault? (.rect held) = none) :
    Ends (Surface.setField handle field value) r (fun _ _ => field.Allows value)
      fun e _ => ¬field.Allows value ∧ ∃ fault, e = .invalidGeometry fault := by
  have hread : geometry handle r = .ok (.rect held) r := by
    rw [← hheld, geometry, hshape]
  have hfamily : shape.geometry.family = (Geometry.rect (held.set field value)).family := by
    rw [hheld]
    rfl
  rw [setField_eq, ← fault?_set_eq_none_iff hvalid]
  exact Ends.of_eq (bind_of_ok hread) (setGeometry_decides hshape hfamily)

theorem style_decides (hshape : r.shape? handle = some shape) :
    Ends (style handle key) r (fun _ _ => r.supports key = true)
      fun e _ => r.supports key = false ∧ e = .unsupportedStyle key := by
  unfold Ends style
  rw [hshape]
  cases hkey : r.supports key with
  | true => rfl
  | false => exact ⟨rfl, rfl⟩

theorem setStyle_answers {value : StyleValue} (hshape : r.shape? handle = some shape)
    (hkey : r.supports key = true) :
    Ends (setStyle handle key value) r (fun _ _ => True) fun _ _ => False := by
  unfold Ends setStyle
  rw [hshape, hkey]
  trivial

end Recorder

namespace Cache

variable {c : Cache Recorder} {handle : Handle} {shape : StoredShape} {g : Geometry} {s : Style}

/-! ### Attributes, key by key -/

/-- The step is refused exactly if the surface does not take one of the keys, and then for the first of
them. -/
def KeysDecide (r : Recorder) (step : CacheM Recorder Bool) (c : Cache Recorder)
    (keys : List StyleKey) : Prop :=
  Ends step c (fun _ _ => r.refusedKey? keys = none)
    fun e _ => ∃ key, r.refusedKey? keys = some key ∧ e = .surface (.unsupportedStyle key)

theorem KeysDecide.congr {r r' : Recorder} {step : CacheM Recorder Bool} {keys : List StyleKey}
    (h : KeysDecide r' step c keys) (hsupported : r'.supported = r.supported) :
    KeysDecide r step c keys := by
  unfold KeysDecide at h
  rwa [Recorder.refusedKey?_congr hsupported] at h

theorem applyEntries_decides (entries : List (StyleKey × StyleValue))
    (hshape : c.table.shape? handle = some shape) :
    KeysDecide c.table (applyEntries handle entries) c (entries.map Prod.fst) := by
  induction entries generalizing c shape with
  | nil => exact Ends.pure rfl
  | cons entry rest ih =>
    obtain ⟨key, value⟩ := entry
    have hread : Ends (onSurface (Surface.style handle key)) c
        (fun _ _ => c.table.supports key = true)
        fun e _ => c.table.supports key = false ∧ e = .surface (.unsupportedStyle key) :=
      onSurface_ends ((Recorder.style_decides hshape).imp (fun _ _ h => h)
        fun _ _ h => ⟨h.1, congrArg _ h.2⟩)
    unfold KeysDecide
    rw [List.map_cons, Recorder.refusedKey?_cons]
    unfold applyEntries
    refine Ends.bind ((hread.and (style_ends hshape)).imp ?_ ?_)
    · rintro held c₁ ⟨hkey, ⟨_, hwritten₁⟩, _⟩
      rw [if_pos hkey]
      split
      · exact (ih hwritten₁.here).congr hwritten₁.supported
      · have hkey₁ : c₁.table.supports key = true := by
          unfold Recorder.supports at hkey ⊢
          rwa [hwritten₁.supported]
        have hwrite : Ends (onSurface (Surface.setStyle handle key value)) c₁ (fun _ _ => True)
            fun _ _ => False := onSurface_ends (Recorder.setStyle_answers hwritten₁.here hkey₁)
        refine Ends.bind ((hwrite.and (setStyle_ends hwritten₁.here)).imp ?_ fun _ _ h => h.1.elim)
        rintro _ c₂ ⟨_, _, hwritten₂⟩
        have hlater := (ih hwritten₂.here).congr (hwritten₁.trans hwritten₂).supported
        refine Ends.seq hlater ?_
        intro _ c₃ hnone
        exact Ends.pure hnone
    · rintro e c₁ ⟨⟨hkey, he⟩, _⟩
      rw [hkey]
      exact ⟨key, rfl, he⟩

theorem applyStyle_decides (hshape : c.table.shape? handle = some shape) :
    KeysDecide c.table (applyStyle handle s) c s.keys := applyEntries_decides s.entries hshape

/-! ### Numbers, field by field -/

def OfGeometry (e : CacheError) : Prop := ∃ fault, e = .surface (.invalidGeometry fault)

theorem applyFields_decides {current held : Rect} (wanted : Rect) (fields : List RectField)
    (hdistinct : fields.Nodup) (hshape : c.table.shape? handle = some shape)
    (hheld : shape.geometry = .rect held) (hvalid : Recorder.fault? (.rect held) = none)
    (hcurrent : ∀ field, field ∈ fields → held.get field = current.get field) :
    Ends (applyFields handle current wanted fields) c
      (fun _ _ => ∀ field : RectField, field ∈ fields → field.Allows (wanted.get field))
      fun e _ => Recorder.fault? (.rect wanted) ≠ none ∧ OfGeometry e := by
  induction fields generalizing c shape held with
  | nil =>
    apply Ends.pure
    intro field hmem
    cases hmem
  | cons field rest ih =>
    obtain ⟨hfield, hrest⟩ := List.nodup_cons.mp hdistinct
    have hlater : ∀ other, other ∈ rest → held.get other = current.get other :=
      fun other hmem => hcurrent other (List.mem_cons_of_mem _ hmem)
    unfold applyFields
    split
    · -- an equal number is as good as the one that is held
      next heq =>
      rw [← hcurrent field List.mem_cons_self] at heq
      have hheld' := (Recorder.fault?_rect_eq_none_iff held).mp hvalid field
      refine (ih hrest hshape hheld hvalid hlater).imp_ok ?_
      intro _ c₁ hall
      exact List.forall_mem_cons.mpr ⟨hheld'.congr heq, hall⟩
    · have hwrite : Ends (onSurface (Surface.setField handle field (wanted.get field))) c
          (fun _ _ => field.Allows (wanted.get field))
          fun e _ => Recorder.fault? (.rect wanted) ≠ none ∧ OfGeometry e := by
        apply onSurface_ends
        refine (Recorder.setField_decides hshape hheld hvalid).imp (fun _ _ h => h) ?_
        rintro _ _ ⟨hnot, fault, rfl⟩
        refine ⟨?_, fault, rfl⟩
        rw [Ne, Recorder.fault?_rect_eq_none_iff]
        exact fun hall => hnot (hall field)
      refine Ends.bind ((hwrite.and (setField_ends hshape hheld)).imp ?_ fun _ _ h => h.1)
      rintro _ c₁ ⟨hallows, hvalid₁, _, hwritten₁⟩
      have hlater₁ : ∀ other, other ∈ rest →
          (held.set field (wanted.get field)).get other = current.get other := by
        intro other hmem
        have hne : other ≠ field := fun heq => hfield (heq ▸ hmem)
        rw [Rect.get_set, if_neg hne]
        exact hlater other hmem
      refine Ends.bind ((ih hrest hwritten₁.here rfl hvalid₁ hlater₁).imp_ok ?_)
      intro _ c₂ hall
      exact Ends.pure (List.forall_mem_cons.mpr ⟨hallows, hall⟩)

/-! ### Whole requests -/

/-- The step is refused for the geometry if that is invalid, else for the first key of the style that
the surface does not take, else it is answered. -/
def Judged {α : Type} (r : Recorder) (step : CacheM Recorder α) (c : Cache Recorder) (g : Geometry)
    (s : Style) : Prop :=
  Ends step c (fun _ _ => Recorder.fault? g = none ∧ r.refusedKey? s.keys = none)
    fun e _ => (Recorder.fault? g ≠ none ∧ OfGeometry e) ∨
      (Recorder.fault? g = none ∧ ∃ key, r.refusedKey? s.keys = some key ∧
        e = .surface (.unsupportedStyle key))

theorem Judged.congr {α : Type} {r r' : Recorder} {step : CacheM Recorder α}
    (h : Judged r' step c g s) (hsupported : r'.supported = r.supported) : Judged r step c g s := by
  unfold Judged at h
  rwa [Recorder.refusedKey?_congr hsupported] at h

theorem KeysDecide.judged {r : Recorder} {step : CacheM Recorder Bool}
    (h : KeysDecide r step c s.keys) (hvalid : Recorder.fault? g = none) : Judged r step c g s :=
  h.imp (fun _ _ hnone => ⟨hvalid, hnone⟩) fun _ _ hsome => .inr ⟨hvalid, hsome⟩

theorem updateRect_judged {wanted : Rect} (hshape : c.table.shape? handle = some shape)
    (hkind : (shape.geometry.kind == .rect) = true)
    (hvalid : Recorder.fault? shape.geometry = none) :
    Judged c.table (updateRect handle wanted s) c (.rect wanted) s := by
  have hread : Ends (onSurface (Surface.geometry handle)) c (fun _ _ => True) fun _ _ => False :=
    onSurface_ends (Recorder.geometry_answers hshape)
  unfold Judged updateRect
  refine Ends.bind ((hread.and (geometry_ends hshape)).imp ?_ fun _ _ h => h.1.elim)
  intro held c₁ ⟨_, ⟨_, hwritten₁⟩, hheld⟩
  cases held with
  | ellipse =>
    rw [hheld] at hkind
    cases hkind
  | polygon =>
    rw [hheld] at hkind
    cases hkind
  | rect current =>
    rw [hheld] at hvalid
    have hfields := applyFields_decides wanted RectField.all (by decide) hwritten₁.here hheld
      hvalid fun _ _ => rfl
    refine Ends.bind ((hfields.and (applyFields_ends wanted RectField.all (by decide)
      hwritten₁.here hheld fun _ _ => rfl)).imp ?_ fun _ _ h => .inl h.1)
    intro _ c₂ ⟨hallows, _, held, hwritten₂, _⟩
    have haccepted : Recorder.fault? (.rect wanted) = none := by
      rw [Recorder.fault?_rect_eq_none_iff]
      intro field
      exact hallows field (by cases field <;> decide)
    have hstyled := ((applyStyle_decides (s := s) hwritten₂.here).congr
      (hwritten₁.trans hwritten₂).supported).judged haccepted
    refine Ends.bind (hstyled.imp_ok ?_)
    intro _ c₃ hnone
    exact Ends.pure hnone

theorem rewrite_judged (hshape : c.table.shape? handle = some shape)
    (hfamily : shape.geometry.family = g.family) :
    Judged c.table (onSurface (Surface.setGeometry handle g) >>= fun _ =>
      applyStyle handle s >>= fun _ => pure true) c g s := by
  have hwrite : Ends (onSurface (Surface.setGeometry handle g)) c
      (fun _ _ => Recorder.fault? g = none)
      fun e _ => Recorder.fault? g ≠ none ∧ OfGeometry e := by
    apply onSurface_ends
    refine (Recorder.setGeometry_decides hshape hfamily).imp (fun _ _ h => h) ?_
    rintro _ _ ⟨hfault, fault, rfl⟩
    exact ⟨hfault, fault, rfl⟩
  refine Ends.bind ((hwrite.and (setGeometry_ends hshape)).imp ?_ fun _ _ h => .inl h.1)
  intro _ c₁ ⟨haccepted, _, _, hwritten₁⟩
  have hstyled := ((applyStyle_decides (s := s) hwritten₁.here).congr
    hwritten₁.supported).judged haccepted
  refine Ends.bind (hstyled.imp_ok ?_)
  intro _ c₂ hnone
  exact Ends.pure hnone

theorem update_judged (hshape : c.table.shape? handle = some shape)
    (hkind : (shape.geometry.kind == g.kind) = true)
    (hvalid : Recorder.fault? shape.geometry = none) : Judged c.table (update handle g s) c g s := by
  have hfamily := Geometry.family_eq_of_kind_beq hkind
  cases g with
  | rect wanted => exact updateRect_judged hshape hkind hvalid
  | ellipse => exact rewrite_judged hshape hfamily
  | polygon => exact rewrite_judged hshape hfamily

theorem create_judged (c : Cache Recorder) :
    Judged c.table (onSurface (Surface.create g s)) c g s := by
  apply onSurface_ends
  show Ends (Recorder.create g s) c.table _ _
  unfold Ends Recorder.create
  rw [Recorder.unsupported?_eq]
  cases hfault : Recorder.fault? g with
  | some fault => exact .inl ⟨nofun, fault, rfl⟩
  | none =>
    cases hkey : c.table.refusedKey? s.keys with
    | some key => exact .inr ⟨rfl, key, rfl, rfl⟩
    | none => exact ⟨rfl, rfl⟩

theorem add_judged (howning : Owning c)
    (hvetted : ∀ k shape, c.table.shape? k = some shape → Recorder.fault? shape.geometry = none)
    (hdrawing : c.isDrawing = true) : Judged c.table (add g s) c g s := by
  unfold Judged
  refine add_rule ?_ ?_ ?_
  · intro hclosed
    rw [hdrawing] at hclosed
    cases hclosed
  · intro _ entry rest hwaiting hkind
    obtain ⟨shape, hshape, hheld⟩ := howning.meets hwaiting hkind
    exact update_judged hshape hheld (hvetted _ _ hshape)
  · intro _ _ journal
    refine (releasePrevious_ends howning.owns howning.yields journal).imp ?_ fun _ _ h => h.elim
    intro _ c₁ hreleased
    exact (create_judged c₁).congr hreleased.table.supported

end Cache

/-! ### Any run -/

namespace Cache

theorem vetted_runAll (supported : Option (List StyleKey)) (ops : List Op) :
    (runAll ops (onEmpty supported)).surface.Vetted supported := by
  refine runAll_stable (Recorder.stable_vetted supported) ops (owning_onEmpty supported) ⟨rfl, ?_⟩
  intro k shape hshape
  have hnone := shape?_onEmpty supported k
  cases hnone.symm.trans hshape

/-- Whatever was done with a cache on a recorder, a request within a frame is refused for its geometry
exactly if that is invalid, else for the first attribute, in the order of the keys, that the surface
does not take, and else it is answered. This does not depend on what the cache holds, so it is the same
for a request that meets a shape of its kind, that misses, or that finds no shape waiting. Opening a
frame when none is open, closing it and tearing everything down never fail. -/
theorem add_outcome (supported : Option (List StyleKey)) (ops : List Op) :
    let c := runAll ops (onEmpty supported)
    let r : Recorder := { supported := supported }
    (c.isDrawing = true → ∀ g s,
      (g.Invalid → ∃ fault c', add g s c = .error (.surface (.invalidGeometry fault)) c') ∧
      (¬g.Invalid → ∀ key, r.refusedKey? s.keys = some key →
        ∃ c', add g s c = .error (.surface (.unsupportedStyle key)) c') ∧
      (¬g.Invalid → r.refusedKey? s.keys = none → ∃ handle c', add g s c = .ok handle c')) ∧
    (c.isDrawing = false → ∃ c', clear c = .ok () c') ∧
    (∃ c', flush c = .ok () c') ∧ ∃ c', teardown c = .ok () c' := by
  intro c r
  have howning : Owning c := (owning_onEmpty supported).runAll ops
  have hvetted : c.surface.Vetted supported := vetted_runAll supported ops
  refine ⟨?_, ?_, ?_, ?_⟩
  · intro hdrawing g s
    have hjudged : Judged r (add g s) c g s :=
      (add_judged howning hvetted.valid hdrawing).congr hvetted.supported
    rw [Recorder.invalid_iff, not_not]
    cases hrun : add g s c with
    | ok handle c' =>
      obtain ⟨hfault, hnone⟩ := hjudged.of_ok hrun
      refine ⟨fun hinvalid => absurd hfault hinvalid, ?_, fun _ _ => ⟨handle, c', rfl⟩⟩
      intro _ key hkey
      cases hnone.symm.trans hkey
    | error e c' =>
      rcases hjudged.of_error hrun with ⟨hinvalid, fault, rfl⟩ | ⟨hfault, key, hkey, rfl⟩
      · exact ⟨fun _ => ⟨fault, c', rfl⟩, fun hfault => absurd hfault hinvalid,
          fun hfault => absurd hfault hinvalid⟩
      · refine ⟨fun hinvalid => absurd hfault hinvalid, ?_, ?_⟩
        · intro _ other hother
          cases hkey.symm.trans hother
          exact ⟨c', rfl⟩
        · intro _ hnone
          cases hkey.symm.trans hnone
  · intro hidle
    have hclear := clear_ends c
    rw [hidle] at hclear
    obtain ⟨_, c', hrun, _⟩ := (hclear.imp (fun _ _ h => h) fun _ _ h => by cases h.1).answers
    exact ⟨c', hrun⟩
  · obtain ⟨_, c', hrun, _⟩ := (flush_ends howning).answers
    exact ⟨c', hrun⟩
  · obtain ⟨_, c', hrun, _⟩ := (teardown_ends howning).answers
    exact ⟨c', hrun⟩

/-- A square waits on a surface that takes no attribute but the fill. -/
def plainSquare : List Op := [.clear, .add (.rect ⟨0.0, 0.0, 1.0, 1.0⟩) {}, .flush, .clear]

theorem add_outcome_plainSquare :
    (runAll plainSquare (onEmpty (some [.fill]))).isDrawing = true ∧
      ∃ c', add (.rect ⟨2.0, 0.0, 1.0, 1.0⟩)
        { fill := some (.bool true), lineWidth := some (.number 1.0) }
        (runAll plainSquare (onEmpty (some [.fill]))) =
          .error (.surface (.unsupportedStyle .lineWidth)) c' := by
  have hdrawing : (runAll plainSquare (onEmpty (some [.fill]))).isDrawing = true := by
    decide +kernel
  have hvalid : Recorder.fault? (.rect ⟨2.0, 0.0, 1.0, 1.0⟩) = none :=
    Option.isNone_iff_eq_none.mp (by decide +kernel)
  refine ⟨hdrawing, ((add_outcome (some [.fill]) plainSquare).1 hdrawing _ _).2.1 ?_ _ ?_⟩
  · rw [Recorder.invalid_iff, not_not]
    exact hvalid
  · decide +kernel

end Cache

end Redraw
