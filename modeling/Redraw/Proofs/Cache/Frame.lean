import Redraw.Proofs.Cache.Run

namespace Redraw

open CachedShape

/-- An answered request, with the handle of its shape. -/
structure Claim where
  handle : Handle
  geometry : Geometry
  style : Style

namespace Cache

variable {σ : Type} [Surface σ] [Recording σ] {c c' : Cache σ} {g : Geometry} {s : Style} {k : Handle}

/-! ### Shapes of this frame are left alone -/

theorem Owning.not_pending (h : Owning c) (hk : k ∈ handles c.active.toList) :
    k ∉ handles c.pending := by
  have hnodup := h.owns.nodup
  unfold owned at hnodup
  rw [handles_append] at hnodup
  intro hpending
  exact (List.nodup_append.mp hnodup).2.2 k hk k hpending rfl

theorem Owning.mem_owned (_ : Owning c) (hk : k ∈ handles c.active.toList) :
    k ∈ handles c.owned := by
  unfold owned
  rw [handles_append]
  exact List.mem_append_left _ hk

theorem Owning.removed_keeps (h : Owning c) (hk : k ∈ handles c.active.toList) {r : Recorder}
    (hremoved : c.table.Removed r (handles c.pending).reverse) :
    r.shape? k = c.table.shape? k := by
  refine hremoved.shape?_of_not_mem ?_
  rw [List.mem_reverse]
  exact h.not_pending hk

theorem Owning.added_keeps {handle : Handle} (h : Owning c) (hadded : Added c g s handle c')
    (hk : k ∈ handles c.active.toList) : c'.table.shape? k = c.table.shape? k := by
  cases hadded with
  | reused entry rest shape shape' hwaiting hhandle _ _ _ _ _ _ hwritten _ =>
    apply hwritten.elsewhere
    intro heq
    apply h.not_pending hk
    rw [pending_of_some hwaiting, heq, ← hhandle]
    exact List.mem_cons_self
  | made mid hreleased _ _ _ _ _ hcreated =>
    rw [hcreated.elsewhere, h.removed_keeps hk hreleased.table]
    intro heq
    have hlt := h.owns.below k (h.mem_owned hk)
    rw [heq, hcreated.handle_eq, hreleased.table.nextId] at hlt
    exact Nat.lt_irrefl _ hlt

theorem Owning.refused_keeps (h : Owning c) (hrefused : Refused c g c')
    (hk : k ∈ handles c.active.toList) : c'.table.shape? k = c.table.shape? k := by
  cases hrefused with
  | outside _ hsame => rw [hsame]
  | kept entry rest shape hwaiting _ _ _ _ hwritten _ =>
    apply hwritten.elsewhere
    intro heq
    apply h.not_pending hk
    rw [pending_of_some hwaiting, heq]
    exact List.mem_cons_self
  | missed mid hreleased _ htable => rw [htable, h.removed_keeps hk hreleased.table]

/-! ### Shapes and requests -/

theorem Added.active_eq {handle : Handle} (h : Added c g s handle c') :
    c'.active = c.active.push ⟨g.kind, handle⟩ := by
  cases h with
  | reused _ _ _ _ _ _ _ hactive _ _ _ _ _ _ => exact hactive
  | made _ _ _ hactive _ _ _ _ => exact hactive

theorem Added.phase_eq {handle : Handle} (h : Added c g s handle c') : c'.phase = c.phase := by
  cases h with
  | reused _ _ _ _ _ _ _ _ _ hphase _ _ _ _ => exact hphase
  | made _ _ _ _ _ hphase _ _ => exact hphase

theorem Added.isDrawing_eq {handle : Handle} (h : Added c g s handle c') :
    c'.isDrawing = c.isDrawing := by
  unfold isDrawing
  rw [h.phase_eq]

theorem Added.fits {handle : Handle} (h : Added c g s handle c') :
    ∃ shape, c'.table.shape? handle = some shape ∧ shape.Fits g s := by
  cases h with
  | reused entry rest shape shape' _ _ _ _ _ _ _ _ hwritten hupdated =>
    exact ⟨shape', hwritten.here, hupdated.fits⟩
  | made mid _ haccepted _ _ _ _ hcreated =>
    refine ⟨⟨g, s⟩, hcreated.here, Geometry.shows_self haccepted, ?_⟩
    intro key value hvalue
    exact ⟨value, hvalue, Or.inl rfl⟩

theorem Refused.active_eq (h : Refused c g c') : c'.active = c.active := by
  cases h with
  | outside _ hsame => rw [hsame]
  | kept _ _ _ _ hactive _ _ _ _ _ => exact hactive
  | missed mid hreleased hworked _ => exact hworked.active.trans hreleased.active

theorem Refused.phase_eq (h : Refused c g c') : c'.phase = c.phase := by
  cases h with
  | outside _ hsame => rw [hsame]
  | kept _ _ _ _ _ _ hphase _ _ _ => exact hphase
  | missed mid hreleased hworked _ => exact hworked.phase.trans hreleased.phase

theorem Refused.isDrawing_eq (h : Refused c g c') : c'.isDrawing = c.isDrawing := by
  unfold isDrawing
  rw [h.phase_eq]

/-- The shapes of this frame are those of the requests, in their order, and fit them. -/
structure Showing (c : Cache σ) (claims : List Claim) : Prop where
  order : handles c.active.toList = claims.map Claim.handle
  fits : ∀ claim, claim ∈ claims → ∃ shape, c.table.shape? claim.handle = some shape ∧
    shape.Fits claim.geometry claim.style

variable {claims : List Claim}

theorem Showing.mem_active (h : Showing c claims) {claim : Claim} (hclaim : claim ∈ claims) :
    claim.handle ∈ handles c.active.toList := by
  rw [h.order]
  exact List.mem_map_of_mem hclaim

theorem Showing.keep (h : Showing c claims) (hactive : c'.active = c.active)
    (hkeeps : ∀ k, k ∈ handles c.active.toList → c'.table.shape? k = c.table.shape? k) :
    Showing c' claims := by
  refine ⟨by rw [hactive]; exact h.order, ?_⟩
  intro claim hclaim
  rw [hkeeps claim.handle (h.mem_active hclaim)]
  exact h.fits claim hclaim

theorem Showing.add {handle : Handle} (h : Showing c claims) (howning : Owning c)
    (hadded : Added c g s handle c') : Showing c' (claims ++ [⟨handle, g, s⟩]) := by
  constructor
  · rw [hadded.active_eq, Array.toList_push, handles_append, h.order, List.map_append]
    rfl
  · intro claim hclaim
    rcases List.mem_append.mp hclaim with hold | hnew
    · rw [howning.added_keeps hadded (h.mem_active hold)]
      exact h.fits claim hold
    · rw [List.mem_singleton.mp hnew]
      exact hadded.fits

theorem Showing.nil (hactive : c.active = #[]) : Showing c [] := by
  refine ⟨by rw [hactive]; rfl, ?_⟩
  intro claim hclaim
  cases hclaim

/-- After a frame its shapes are all there is. -/
theorem Showing.liveHandles_eq (h : Showing c claims) (howning : Owning c)
    (hidle : c.isDrawing = false) :
    c.table.liveShapes.map Prod.fst = claims.map Claim.handle := by
  rw [howning.owns.liveHandles_eq, ← h.order]
  unfold owned
  rw [howning.idle hidle, List.append_nil]

theorem flush_showing (h : Showing c claims) (howning : Owning c) (hdrawing : c.isDrawing = true) :
    Ends flush c
      (fun _ c' => Owning c' ∧ c'.isDrawing = false ∧ Showing c' claims ∧
        c.table.Removed c'.table (handles c.pending).reverse)
      fun _ _ => False := by
  refine (flush_ends howning).imp_ok ?_
  intro _ c' hcases
  rcases hcases with ⟨hidle, _⟩ | ⟨_, hreleased⟩
  · rw [hdrawing] at hidle
    cases hidle
  · refine ⟨hreleased.owning rfl howning.owns howning.asked, ?_, ?_, hreleased.table⟩
    · unfold isDrawing
      rw [hreleased.phase]
      rfl
    · exact h.keep hreleased.active fun k hk => howning.removed_keeps hk hreleased.table

end Cache

/-! ### Sessions -/

/-- A cache at work, with the requests answered since it was last cleared. -/
structure Session (σ : Type) where
  cache : Cache σ
  claims : List Claim := []

namespace Session

variable {σ : Type} [Surface σ]

def record (claims : List Claim) : Cache.Op → Option Handle → List Claim
  | .clear, _ => []
  | .add geometry style, some handle => claims ++ [⟨handle, geometry, style⟩]
  | _, _ => claims

def step (session : Session σ) (op : Cache.Op) : Session σ :=
  match op.run session.cache with
  | .ok answer c => ⟨c, record session.claims op answer⟩
  | .error _ c => ⟨c, session.claims⟩

def run (session : Session σ) (ops : List Cache.Op) : Session σ := ops.foldl step session

variable [Recording σ] {session : Session σ}

/-- The cache owns its shapes and, within a frame, shows what was answered. -/
structure Sound (session : Session σ) : Prop where
  owning : session.cache.Owning
  showing : session.cache.isDrawing = true → session.cache.Showing session.claims

theorem op_ends (h : Sound session) (op : Cache.Op) :
    Ends op.run session.cache (fun answer c' => Sound ⟨c', record session.claims op answer⟩)
      fun _ c' => Sound ⟨c', session.claims⟩ := by
  cases op with
  | beginFrame =>
    refine Ends.bind (Ends.modify (Ends.pure ⟨h.owning.beginFrame, ?_⟩))
    intro hdrawing
    exact ⟨(h.showing hdrawing).order, (h.showing hdrawing).fits⟩
  | clear =>
    refine Ends.bind ((Cache.clear_ends session.cache).imp ?_ ?_)
    · intro _ c' hsome
      obtain ⟨hidle, rfl⟩ := hsome
      exact Ends.pure ⟨h.owning.clear hidle, fun _ => .nil rfl⟩
    · intro _ c' hsome
      obtain ⟨_, rfl⟩ := hsome
      exact h
  | flush =>
    refine Ends.bind ((Cache.flush_ends h.owning).imp ?_ fun _ _ h => h.elim)
    intro _ c' hcases
    rcases hcases with ⟨_, rfl⟩ | ⟨_, hreleased⟩
    · exact Ends.pure h
    · refine Ends.pure ⟨hreleased.owning rfl h.owning.owns h.owning.asked, ?_⟩
      intro hdrawing
      unfold Cache.isDrawing at hdrawing
      rw [hreleased.phase] at hdrawing
      cases hdrawing
  | teardown =>
    refine Ends.bind ((Cache.teardown_ends h.owning).imp ?_ fun _ _ h => h.elim)
    intro _ c' hsome
    obtain ⟨howning, _, hidle, _⟩ := hsome
    refine Ends.pure ⟨howning, ?_⟩
    intro hdrawing
    rw [hidle] at hdrawing
    cases hdrawing
  | add g s =>
    refine Ends.map ((Cache.add_ends h.owning).imp ?_ ?_)
    · intro handle c' ⟨hdrawing, hadded⟩
      exact ⟨h.owning.added hdrawing hadded, fun _ => (h.showing hdrawing).add h.owning hadded⟩
    · intro _ c' hrefused
      refine ⟨h.owning.refused hrefused, ?_⟩
      intro hdrawing
      have hopen : session.cache.isDrawing = true := hrefused.isDrawing_eq.symm.trans hdrawing
      exact (h.showing hopen).keep hrefused.active_eq fun k hk => h.owning.refused_keeps hrefused hk

theorem Sound.step (h : Sound session) (op : Cache.Op) : Sound (session.step op) := by
  have hends := op_ends h op
  unfold Session.step
  split
  · next hrun => exact hends.of_ok hrun
  · next hrun => exact hends.of_error hrun

theorem Sound.run (h : Sound session) (ops : List Cache.Op) : Sound (session.run ops) := by
  induction ops generalizing session with
  | nil => exact h
  | cons op rest ih => exact ih (h.step op)

def fresh (supported : Option (List StyleKey)) : Session Recorder :=
  { cache := Cache.onEmpty supported }

theorem sound_fresh (supported : Option (List StyleKey)) : Sound (fresh supported) := by
  refine ⟨Cache.owning_onEmpty supported, ?_⟩
  intro hdrawing
  cases hdrawing

/-- The flush that ends a frame leaves exactly the shapes of the requests answered in it, in their
order, and every shape fits its request. -/
theorem flush_shows_claims (supported : Option (List StyleKey)) (ops : List Cache.Op)
    (hdrawing : ((fresh supported).run ops).cache.isDrawing = true) :
    ∃ c', Cache.flush ((fresh supported).run ops).cache = .ok () c' ∧
      c'.surface.liveShapes.map Prod.fst = ((fresh supported).run ops).claims.map Claim.handle ∧
      ∀ claim, claim ∈ ((fresh supported).run ops).claims →
        ∃ shape, c'.surface.shape? claim.handle = some shape ∧
          shape.Fits claim.geometry claim.style := by
  have hsound := (sound_fresh supported).run ops
  have hshowing := hsound.showing hdrawing
  obtain ⟨_, c', hrun, howning', hidle, hshowing', _⟩ :=
    (Cache.flush_showing hshowing hsound.owning hdrawing).answers
  exact ⟨c', hrun, hshowing'.liveHandles_eq howning' hidle, hshowing'.fits⟩

/-- A rectangle that is moved in the second frame, before a request that is refused. -/
def movedThenRefused : List Cache.Op :=
  [.clear, .add (.rect ⟨0.0, 0.0, 1.0, 1.0⟩) { fill := some (.bool false) }, .flush, .clear,
    .add (.rect ⟨2.0, 0.0, 1.0, 1.0⟩) {}, .add (.ellipse 0.0 0.0 (-1.0) 1.0) {}]

theorem flush_shows_claims_movedThenRefused :
    ((fresh none).run movedThenRefused).cache.isDrawing = true ∧
      ∃ c', Cache.flush ((fresh none).run movedThenRefused).cache = .ok () c' ∧
        c'.surface.liveShapes.map Prod.fst =
          ((fresh none).run movedThenRefused).claims.map Claim.handle ∧
        ∀ claim, claim ∈ ((fresh none).run movedThenRefused).claims →
          ∃ shape, c'.surface.shape? claim.handle = some shape ∧
            shape.Fits claim.geometry claim.style := by
  have hdrawing : ((fresh none).run movedThenRefused).cache.isDrawing = true := by
    decide +kernel
  exact ⟨hdrawing, flush_shows_claims none movedThenRefused hdrawing⟩

end Session

end Redraw
