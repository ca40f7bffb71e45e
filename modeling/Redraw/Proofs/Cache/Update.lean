import Redraw.Cache
import Redraw.Proofs.Equality
import Redraw.Proofs.Surface.Recording

namespace Redraw

theorem Geometry.Shows.kind_beq {g g' : Geometry} (h : g.Shows g') : (g.kind == g'.kind) = true := by
  cases g <;> cases g' <;> first | exact absurd h id | rfl | skip
  exact Bool.and_eq_true_iff.mpr h.2.2

namespace Style

def keys (s : Style) : List StyleKey := s.entries.map Prod.fst

theorem keys_eq_filter (s : Style) : s.keys = StyleKey.all.filter fun key => (s.get? key).isSome := by
  unfold keys entries
  rw [List.map_filterMap, ← List.filterMap_eq_filter]
  congr 1
  funext key
  cases hvalue : s.get? key <;> simp [Option.guard, hvalue]

theorem keys_nodup (s : Style) : s.keys.Nodup := by
  rw [keys_eq_filter]
  exact List.Pairwise.filter _ (by decide)

theorem mem_keys_iff (s : Style) (key : StyleKey) : key ∈ s.keys ↔ (s.get? key).isSome = true := by
  rw [keys_eq_filter, List.mem_filter]
  exact and_iff_right (StyleKey.mem_all key)

/-- A style wears a value under a key: the value itself, or one that is equal to it. -/
def Wears (s : Style) (key : StyleKey) (value : StyleValue) : Prop :=
  ∃ held, s.get? key = some held ∧ (held = value ∨ (held == value) = true)

end Style

/-- A shape that a request has been drawn with. -/
structure StoredShape.Fits (shape : StoredShape) (geometry : Geometry) (style : Style) : Prop where
  shows : shape.geometry.Shows geometry
  wears : ∀ key value, style.get? key = some value → shape.style.Wears key value

namespace Cache

variable {σ : Type}

theorem onSurface_ends {α : Type} {c : Cache σ} {act : EStateM SurfaceError σ α} {ok : α → Cache σ → Prop}
    {fail : CacheError → Cache σ → Prop}
    (h : Ends act c.surface (fun a surface => ok a { c with surface := surface })
      fun e surface => fail (.surface e) { c with surface := surface }) :
    Ends (onSurface act) c ok fail := by
  unfold Ends at h ⊢
  unfold onSurface
  cases hrun : act c.surface with
  | ok a surface =>
    rw [hrun] at h
    exact h
  | error e surface =>
    rw [hrun] at h
    exact h

variable [Surface σ] [Recording σ]

def table (c : Cache σ) : Recorder := Recording.view.table c.surface

/-! ### Calls on the surface -/

/-- Only the surface was worked on, and no removal was asked for. -/
structure Worked (c c' : Cache σ) : Prop where
  active : c'.active = c.active
  previous : c'.previous = c.previous
  phase : c'.phase = c.phase
  still : Recording.view.Still c.surface c'.surface

variable {c c' c'' : Cache σ} {handle : Handle} {shape : StoredShape}

theorem Worked.refl (c : Cache σ) : Worked c c := ⟨rfl, rfl, rfl, View.Still.refl _⟩

theorem Worked.trans (h : Worked c c') (h' : Worked c' c'') : Worked c c'' :=
  ⟨h'.active.trans h.active, h'.previous.trans h.previous, h'.phase.trans h.phase,
    h.still.trans h'.still⟩

theorem call_ends {α : Type} {act : EStateM SurfaceError σ α}
    {model : EStateM SurfaceError Recorder α} (h : Recording.view.Follows act model)
    (c : Cache σ) :
    Ends (onSurface act) c (fun a c' => Worked c c' ∧ model c.table = .ok a c'.table)
      fun _ c' => Worked c c' ∧ c'.table = c.table := by
  refine onSurface_ends ((h c.surface).imp ?_ ?_)
  · intro a surface ⟨hrun, hstill⟩
    exact ⟨⟨rfl, rfl, rfl, hstill⟩, hrun⟩
  · intro e surface ⟨htable, hstill⟩
    exact ⟨⟨rfl, rfl, rfl, hstill⟩, htable⟩

theorem Worked.rewritten (hworked : Worked c c') (htable : c'.table = c.table)
    (hshape : c.table.shape? handle = some shape) :
    Worked c c' ∧ c.table.Rewritten c'.table handle shape := by
  refine ⟨hworked, ?_⟩
  rw [htable]
  exact .refl hshape

theorem geometry_ends (hshape : c.table.shape? handle = some shape) :
    Ends (onSurface (Surface.geometry handle)) c
      (fun g c' => (Worked c c' ∧ c.table.Rewritten c'.table handle shape) ∧ shape.geometry = g)
      fun _ c' => Worked c c' ∧ c.table.Rewritten c'.table handle shape := by
  refine (call_ends (Recording.geometry handle) c).imp ?_ ?_
  · intro g c' ⟨hworked, hread⟩
    obtain ⟨htable, shape₀, hshape₀, hg⟩ := Recorder.geometry_ok hread
    rw [hshape] at hshape₀
    cases hshape₀
    exact ⟨hworked.rewritten htable hshape, hg⟩
  · intro _ c' ⟨hworked, htable⟩
    exact hworked.rewritten htable hshape

theorem setGeometry_ends {g : Geometry} (hshape : c.table.shape? handle = some shape) :
    Ends (onSurface (Surface.setGeometry handle g)) c
      (fun _ c' => Recorder.fault? g = none ∧ Worked c c' ∧
        c.table.Rewritten c'.table handle { shape with geometry := g })
      fun _ c' => Worked c c' ∧ c.table.Rewritten c'.table handle shape := by
  refine (call_ends (Recording.setGeometry handle g) c).imp ?_ ?_
  · intro _ c' ⟨hworked, hwrite⟩
    obtain ⟨hfault, shape₀, hshape₀, _, hwritten⟩ := Recorder.setGeometry_ok hwrite
    rw [hshape] at hshape₀
    cases hshape₀
    exact ⟨hfault, hworked, hwritten⟩
  · intro _ c' ⟨hworked, htable⟩
    exact hworked.rewritten htable hshape

theorem style_ends {key : StyleKey} (hshape : c.table.shape? handle = some shape) :
    Ends (onSurface (Surface.style handle key)) c
      (fun value c' => (Worked c c' ∧ c.table.Rewritten c'.table handle shape) ∧
        shape.style.get? key = value)
      fun _ c' => Worked c c' ∧ c.table.Rewritten c'.table handle shape := by
  refine (call_ends (Recording.style handle key) c).imp ?_ ?_
  · intro value c' ⟨hworked, hread⟩
    obtain ⟨htable, shape₀, hshape₀, hvalue⟩ := Recorder.style_ok hread
    rw [hshape] at hshape₀
    cases hshape₀
    exact ⟨hworked.rewritten htable hshape, hvalue⟩
  · intro _ c' ⟨hworked, htable⟩
    exact hworked.rewritten htable hshape

theorem setStyle_ends {key : StyleKey} {value : StyleValue}
    (hshape : c.table.shape? handle = some shape) :
    Ends (onSurface (Surface.setStyle handle key value)) c
      (fun _ c' => Worked c c' ∧
        c.table.Rewritten c'.table handle { shape with style := shape.style.set key value })
      fun _ c' => Worked c c' ∧ c.table.Rewritten c'.table handle shape := by
  refine (call_ends (Recording.setStyle handle key value) c).imp ?_ ?_
  · intro _ c' ⟨hworked, hwrite⟩
    obtain ⟨shape₀, hshape₀, hwritten⟩ := Recorder.setStyle_ok hwrite
    rw [hshape] at hshape₀
    cases hshape₀
    exact ⟨hworked, hwritten⟩
  · intro _ c' ⟨hworked, htable⟩
    exact hworked.rewritten htable hshape

theorem setField_ends {field : RectField} {value : Float} {held : Rect}
    (hshape : c.table.shape? handle = some shape) (hheld : shape.geometry = .rect held) :
    Ends (onSurface (Surface.setField handle field value)) c
      (fun _ c' => Recorder.fault? (.rect (held.set field value)) = none ∧ Worked c c' ∧
        c.table.Rewritten c'.table handle { shape with geometry := .rect (held.set field value) })
      fun _ c' => Worked c c' ∧ c.table.Rewritten c'.table handle shape := by
  refine (call_ends (Recording.setField handle field value) c).imp ?_ ?_
  · intro _ c' ⟨hworked, hwrite⟩
    obtain ⟨shape₀, held₀, hshape₀, hheld₀, hfault, hwritten⟩ := Recorder.setField_ok hwrite
    rw [hshape] at hshape₀
    cases hshape₀
    rw [hheld] at hheld₀
    cases hheld₀
    exact ⟨hfault, hworked, hwritten⟩
  · intro _ c' ⟨hworked, htable⟩
    exact hworked.rewritten htable hshape

/-! ### Attributes -/

/-- The shape wears the entries and is otherwise as before. -/
structure Dressed (entries : List (StyleKey × StyleValue)) (before after : StoredShape) : Prop where
  geometry : after.geometry = before.geometry
  wears : ∀ key value, (key, value) ∈ entries → after.style.Wears key value
  others : ∀ key, key ∉ entries.map Prod.fst → after.style.get? key = before.style.get? key

theorem Dressed.cons {key : StyleKey} {value held : StyleValue}
    {rest : List (StyleKey × StyleValue)} {before mid after : StoredShape}
    (h : Dressed rest mid after) (hkey : key ∉ rest.map Prod.fst)
    (hgeometry : mid.geometry = before.geometry) (hheld : mid.style.get? key = some held)
    (hvalue : held = value ∨ (held == value) = true)
    (hmid : ∀ other, other ≠ key → mid.style.get? other = before.style.get? other) :
    Dressed ((key, value) :: rest) before after := by
  refine ⟨h.geometry.trans hgeometry, ?_, ?_⟩
  · intro k v hmem
    rcases List.mem_cons.mp hmem with heq | hrest
    · cases heq
      exact ⟨held, (h.others key hkey).trans hheld, hvalue⟩
    · exact h.wears k v hrest
  · intro k hk
    rw [List.map_cons, List.mem_cons, not_or] at hk
    exact (h.others k hk.2).trans (hmid k hk.1)

theorem applyEntries_ends (entries : List (StyleKey × StyleValue))
    (hdistinct : (entries.map Prod.fst).Nodup) (hshape : c.table.shape? handle = some shape) :
    Ends (applyEntries handle entries) c
      (fun _ c' => Worked c c' ∧ ∃ shape', c.table.Rewritten c'.table handle shape' ∧
        Dressed entries shape shape')
      fun _ c' => Worked c c' ∧ ∃ shape', c.table.Rewritten c'.table handle shape' ∧
        shape'.geometry = shape.geometry := by
  induction entries generalizing c shape with
  | nil =>
    refine Ends.pure ⟨Worked.refl c, shape, .refl hshape, rfl, ?_, fun _ _ => rfl⟩
    intro key value hmem
    cases hmem
  | cons entry rest ih =>
    obtain ⟨key, value⟩ := entry
    obtain ⟨hkey, hrest⟩ := List.nodup_cons.mp hdistinct
    unfold applyEntries
    refine Ends.bind ((style_ends hshape).imp ?_ ?_)
    · intro read c₁ ⟨⟨hworked₁, hwritten₁⟩, hread⟩
      split
      · -- the value is there already
        next heq =>
        refine (ih hrest hwritten₁.here).imp ?_ ?_
        · intro _ c₂ ⟨hworked, shape', hwritten, hdressed⟩
          refine ⟨hworked₁.trans hworked, shape', hwritten₁.trans hwritten, ?_⟩
          cases read with
          | none => cases heq
          | some held => exact hdressed.cons hkey rfl hread (Or.inr heq) fun _ _ => rfl
        · intro _ c₂ ⟨hworked, shape', hwritten, hgeometry⟩
          exact ⟨hworked₁.trans hworked, shape', hwritten₁.trans hwritten, hgeometry⟩
      · refine Ends.bind ((setStyle_ends hwritten₁.here).imp ?_ ?_)
        · intro _ c₂ ⟨hworked₂, hwritten₂⟩
          have hworked₁₂ := hworked₁.trans hworked₂
          have hwritten₁₂ := hwritten₁.trans hwritten₂
          refine Ends.bind ((ih hrest hwritten₂.here).imp ?_ ?_)
          · intro _ c₃ ⟨hworked, shape', hwritten, hdressed⟩
            refine Ends.pure ⟨hworked₁₂.trans hworked, shape', hwritten₁₂.trans hwritten, ?_⟩
            refine hdressed.cons hkey rfl (Style.get?_set_self _ _ _) (Or.inl rfl) ?_
            intro other hother
            exact (Style.get?_set _ _ _ _).trans (if_neg hother)
          · intro _ c₃ ⟨hworked, shape', hwritten, hgeometry⟩
            exact ⟨hworked₁₂.trans hworked, shape', hwritten₁₂.trans hwritten, hgeometry⟩
        · intro _ c₂ ⟨hworked₂, hwritten₂⟩
          exact ⟨hworked₁.trans hworked₂, shape, hwritten₁.trans hwritten₂, rfl⟩
    · intro _ c₁ ⟨hworked₁, hwritten₁⟩
      exact ⟨hworked₁, shape, hwritten₁, rfl⟩

/-! ### Numbers of a rectangle -/

/-- The numbers in the fields are those that were asked for; the others are as before. -/
structure Moved (wanted : Rect) (fields : List RectField) (before after : Rect) : Prop where
  shows : ∀ field, field ∈ fields → (after.get field == wanted.get field) = true
  others : ∀ field, field ∉ fields → after.get field = before.get field

theorem Moved.cons {wanted before mid after : Rect} {field : RectField} {rest : List RectField}
    (h : Moved wanted rest mid after) (hfield : field ∉ rest)
    (hhere : (mid.get field == wanted.get field) = true)
    (hmid : ∀ other, other ≠ field → mid.get other = before.get other) :
    Moved wanted (field :: rest) before after := by
  refine ⟨?_, ?_⟩
  · intro other hmem
    rcases List.mem_cons.mp hmem with rfl | hrest
    · rw [h.others other hfield]
      exact hhere
    · exact h.shows other hrest
  · intro other hnot
    rw [List.mem_cons, not_or] at hnot
    rw [h.others other hnot.2, hmid other hnot.1]

theorem applyFields_ends {current held : Rect} (wanted : Rect) (fields : List RectField)
    (hdistinct : fields.Nodup) (hshape : c.table.shape? handle = some shape)
    (hheld : shape.geometry = .rect held)
    (hcurrent : ∀ field, field ∈ fields → held.get field = current.get field) :
    Ends (applyFields handle current wanted fields) c
      (fun _ c' => Worked c c' ∧ ∃ held',
        c.table.Rewritten c'.table handle { shape with geometry := .rect held' } ∧
        Moved wanted fields held held')
      fun _ c' => Worked c c' ∧ ∃ held',
        c.table.Rewritten c'.table handle { shape with geometry := .rect held' } := by
  have hself : shape = { shape with geometry := .rect held } := by rw [← hheld]
  induction fields generalizing c shape held with
  | nil =>
    refine Ends.pure ⟨Worked.refl c, held, ?_, ?_, fun _ _ => rfl⟩
    · rw [← hself]
      exact .refl hshape
    · intro field hmem
      cases hmem
  | cons field rest ih =>
    obtain ⟨hfield, hrest⟩ := List.nodup_cons.mp hdistinct
    have hlater : ∀ other, other ∈ rest → held.get other = current.get other :=
      fun other hmem => hcurrent other (List.mem_cons_of_mem _ hmem)
    unfold applyFields
    split
    · -- the number is there already
      next heq =>
      rw [← hcurrent field List.mem_cons_self] at heq
      refine (ih hrest hshape hheld hlater hself).imp_ok ?_
      intro _ c₁ ⟨hworked, held', hwritten, hmoved⟩
      exact ⟨hworked, held', hwritten, hmoved.cons hfield heq fun _ _ => rfl⟩
    · refine Ends.bind ((setField_ends hshape hheld).imp ?_ ?_)
      · intro _ c₁ ⟨hfault, hworked₁, hwritten₁⟩
        have hother : ∀ other, other ≠ field →
            (held.set field (wanted.get field)).get other = held.get other := by
          intro other hne
          rw [Rect.get_set, if_neg hne]
        have hset : ((held.set field (wanted.get field)).get field == wanted.get field) = true := by
          have hshows := Geometry.shows_self hfault field
          rwa [Rect.get_set, if_pos rfl] at hshows ⊢
        refine Ends.bind ((ih hrest hwritten₁.here rfl ?_ rfl).imp ?_ ?_)
        · intro other hmem
          rw [hother other fun heq => hfield (heq ▸ hmem)]
          exact hlater other hmem
        · intro _ c₂ ⟨hworked, held', hwritten, hmoved⟩
          exact Ends.pure ⟨hworked₁.trans hworked, held', hwritten₁.trans hwritten,
            hmoved.cons hfield hset hother⟩
        · intro _ c₂ ⟨hworked, held', hwritten⟩
          exact ⟨hworked₁.trans hworked, held', hwritten₁.trans hwritten⟩
      · intro _ c₁ ⟨hworked₁, hwritten₁⟩
        refine ⟨hworked₁, held, ?_⟩
        rw [← hself]
        exact hwritten₁

/-! ### The whole shape -/

/-- The shape fits the request, and the attributes nobody asked for are the old ones. -/
structure Updated (old : Style) (geometry : Geometry) (style : Style) (shape : StoredShape) :
    Prop where
  fits : shape.Fits geometry style
  others : ∀ key, style.get? key = none → shape.style.get? key = old.get? key

theorem Updated.mem_keys_iff {old style : Style} {geometry : Geometry}
    (h : Updated old geometry style shape) (key : StyleKey) :
    key ∈ shape.style.keys ↔ key ∈ old.keys ∨ key ∈ style.keys := by
  simp only [Style.mem_keys_iff]
  cases hkey : style.get? key with
  | none =>
    rw [h.others key hkey]
    simp
  | some value =>
    obtain ⟨held, hheld, _⟩ := h.fits.wears key value hkey
    rw [hheld]
    simp

/-- Only the shape at the handle is written: to fit the request, or at least to be of its kind. -/
def Brings (step : CacheM σ Bool) (c : Cache σ) (handle : Handle) (old : Style) (g : Geometry)
    (s : Style) : Prop :=
  Ends step c
    (fun _ c' => Worked c c' ∧ ∃ shape, c.table.Rewritten c'.table handle shape ∧
      Updated old g s shape)
    fun _ c' => Worked c c' ∧ ∃ shape, c.table.Rewritten c'.table handle shape ∧
      (shape.geometry.kind == g.kind) = true

variable {step : CacheM σ Bool} {old s : Style} {g : Geometry}

theorem Brings.after (hworked : Worked c c') (hwritten : c.table.Rewritten c'.table handle shape)
    (h : Brings step c' handle old g s) :
    Ends step c'
      (fun _ c'' => Worked c c'' ∧ ∃ shape, c.table.Rewritten c''.table handle shape ∧
        Updated old g s shape)
      fun _ c'' => Worked c c'' ∧ ∃ shape, c.table.Rewritten c''.table handle shape ∧
        (shape.geometry.kind == g.kind) = true := by
  apply h.imp
  · intro _ c'' ⟨hworked', shape', hwritten', hupdated⟩
    exact ⟨hworked.trans hworked', shape', hwritten.trans hwritten', hupdated⟩
  · intro _ c'' ⟨hworked', shape', hwritten', hkind⟩
    exact ⟨hworked.trans hworked', shape', hwritten.trans hwritten', hkind⟩

theorem applyStyle_brings (hshape : c.table.shape? handle = some shape)
    (hshows : shape.geometry.Shows g) : Brings (applyStyle handle s) c handle shape.style g s := by
  refine (applyEntries_ends s.entries s.keys_nodup hshape).imp ?_ ?_
  · intro _ c' ⟨hworked, shape', hwritten, hdressed⟩
    refine ⟨hworked, shape', hwritten, ⟨?_, ?_⟩, ?_⟩
    · rw [hdressed.geometry]
      exact hshows
    · intro key value hvalue
      exact hdressed.wears key value ((s.mem_entries_iff key value).mpr hvalue)
    · intro key hnone
      apply hdressed.others key
      show key ∉ s.keys
      rw [s.mem_keys_iff, hnone]
      exact Bool.false_ne_true
  · intro _ c' ⟨hworked, shape', hwritten, hgeometry⟩
    refine ⟨hworked, shape', hwritten, ?_⟩
    rw [hgeometry]
    exact hshows.kind_beq

theorem updateRect_brings {wanted : Rect} (hshape : c.table.shape? handle = some shape)
    (hkind : (shape.geometry.kind == .rect) = true) :
    Brings (updateRect handle wanted s) c handle shape.style (.rect wanted) s := by
  unfold updateRect
  refine Ends.bind ((geometry_ends hshape).imp ?_ ?_)
  · intro held c₁ ⟨⟨hworked₁, hwritten₁⟩, hheld⟩
    cases held with
    | ellipse =>
      rw [hheld] at hkind
      cases hkind
    | polygon =>
      rw [hheld] at hkind
      cases hkind
    | rect current =>
      refine Ends.bind ((applyFields_ends wanted RectField.all (by decide) hwritten₁.here hheld
        fun _ _ => rfl).imp ?_ ?_)
      · intro _ c₂ ⟨hworked₂, held, hwritten₂, hmoved⟩
        have hshows : (Geometry.rect held).Shows (.rect wanted) := by
          intro field
          exact hmoved.shows field (by cases field <;> decide)
        refine Ends.bind (((applyStyle_brings hwritten₂.here hshows).after
          (hworked₁.trans hworked₂) (hwritten₁.trans hwritten₂)).imp_ok ?_)
        intro _ c₃ h
        exact Ends.pure h
      · intro _ c₂ ⟨hworked₂, held, hwritten₂⟩
        exact ⟨hworked₁.trans hworked₂, _, hwritten₁.trans hwritten₂, rfl⟩
  · intro _ c₁ ⟨hworked₁, hwritten₁⟩
    exact ⟨hworked₁, shape, hwritten₁, hkind⟩

theorem rewrite_brings (hshape : c.table.shape? handle = some shape)
    (hkind : (shape.geometry.kind == g.kind) = true) :
    Brings (onSurface (Surface.setGeometry handle g) >>= fun _ =>
        applyStyle handle s >>= fun _ => pure true)
      c handle shape.style g s := by
  refine Ends.bind ((setGeometry_ends hshape).imp ?_ ?_)
  · intro _ c₁ ⟨hfault, hworked₁, hwritten₁⟩
    have hshows := Geometry.shows_self hfault
    refine Ends.seq ((applyStyle_brings hwritten₁.here hshows).after hworked₁ hwritten₁) ?_
    intro _ c₂ h
    exact Ends.pure h
  · intro _ c₁ ⟨hworked₁, hwritten₁⟩
    exact ⟨hworked₁, shape, hwritten₁, hkind⟩

theorem update_brings (hshape : c.table.shape? handle = some shape)
    (hkind : (shape.geometry.kind == g.kind) = true) :
    Brings (update handle g s) c handle shape.style g s := by
  cases g with
  | rect wanted => exact updateRect_brings hshape hkind
  | ellipse => exact rewrite_brings hshape hkind
  | polygon => exact rewrite_brings hshape hkind

end Cache

end Redraw
