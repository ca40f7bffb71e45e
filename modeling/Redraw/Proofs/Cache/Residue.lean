import Redraw.Proofs.Cache.Frame

/-!
# What earlier frames leave behind

An update writes the attributes of its request and takes none away.
-/

namespace Redraw

open CachedShape

structure Request where
  geometry : Geometry
  style : Style

namespace Cache

variable {σ : Type} [Surface σ]

/-! ### Whole frames -/

def addEach : List Request → CacheM σ (List Claim)
  | [] => pure []
  | request :: rest => do
    let handle ← add request.geometry request.style
    let claims ← addEach rest
    return ⟨handle, request.geometry, request.style⟩ :: claims

def drawFrame (requests : List Request) : CacheM σ (List Claim) := do
  beginFrame
  clear
  let claims ← addEach requests
  flush
  return claims

/-- Draws frame after frame and lists all that was answered. -/
def drawFrames : List (List Request) → CacheM σ (List Claim)
  | [] => pure []
  | requests :: rest => do
    let claims ← drawFrame requests
    let later ← drawFrames rest
    return claims ++ later

/-- Opening an idle cache cannot fail, so a frame ends as its requests and the flush after them do. -/
theorem drawFrame_rule {c : Cache σ} {requests : List Request}
    {ok : List Claim → Cache σ → Prop} {fail : CacheError → Cache σ → Prop} (hidle : c.isDrawing = false)
    (h : Ends (addEach requests) c.opened
      (fun now c₁ => Ends flush c₁ (fun _ c₂ => ok now c₂) fail) fail) :
    Ends (drawFrame requests) c ok fail := by
  unfold drawFrame
  refine Ends.bind (Ends.modify (Ends.bind ((clear_ends _).imp ?_ ?_)))
  · rintro _ c₁ ⟨_, rfl⟩
    exact Ends.bind (h.imp_ok fun now c₂ hflush => Ends.bind (hflush.imp_ok fun _ c₃ hok =>
      Ends.pure hok))
  · rintro _ c₁ ⟨hdrawing, _⟩
    cases hidle.symm.trans hdrawing

/-! ### Attributes pile up -/

/-- A request answered with this handle named the attribute. -/
def Named (claims : List Claim) (k : Handle) (key : StyleKey) : Prop :=
  ∃ claim, claim ∈ claims ∧ claim.handle = k ∧ key ∈ claim.style.keys

theorem named_append (claims later : List Claim) (k : Handle) (key : StyleKey) :
    Named (claims ++ later) k key ↔ Named claims k key ∨ Named later k key := by
  constructor
  · intro hsome
    obtain ⟨claim, hclaim, hrest⟩ := hsome
    rcases List.mem_append.mp hclaim with hmem | hmem
    · exact Or.inl ⟨claim, hmem, hrest⟩
    · exact Or.inr ⟨claim, hmem, hrest⟩
  · intro hcases
    rcases hcases with ⟨claim, hmem, hrest⟩ | ⟨claim, hmem, hrest⟩
    · exact ⟨claim, List.mem_append_left _ hmem, hrest⟩
    · exact ⟨claim, List.mem_append_right _ hmem, hrest⟩

theorem named_singleton (claim : Claim) (k : Handle) (key : StyleKey) :
    Named [claim] k key ↔ claim.handle = k ∧ key ∈ claim.style.keys := by
  constructor
  · intro hsome
    obtain ⟨old, hmem, hrest⟩ := hsome
    rw [List.mem_singleton.mp hmem] at hrest
    exact hrest
  · intro hrest
    exact ⟨claim, List.mem_cons_self, hrest⟩

/-- The attributes of each shape are those of the requests that were answered with it. -/
structure Inked (claims : List Claim) (r : Recorder) : Prop where
  keys : ∀ k shape, r.shape? k = some shape →
    ∀ key, key ∈ shape.style.keys ↔ Named claims k key
  below : ∀ claim, claim ∈ claims → claim.handle.id < r.nextId

variable {claims shown now : List Claim} {claim : Claim} {r r' : Recorder}
  {shape shape' : StoredShape}

theorem Inked.not_named (h : Inked claims r) {k : Handle} (hk : r.nextId ≤ k.id) (key : StyleKey) :
    ¬Named claims k key := by
  intro hsome
  obtain ⟨claim, hclaim, heq, _⟩ := hsome
  have hlt := h.below claim hclaim
  rw [heq] at hlt
  omega

theorem Inked.removed {removed : List Handle} (h : Inked claims r)
    (hremoved : r.Removed r' removed) : Inked claims r' := by
  refine ⟨?_, ?_⟩
  · intro k shape hshape
    exact h.keys k shape (hremoved.found hshape)
  · intro claim hclaim
    rw [hremoved.nextId]
    exact h.below claim hclaim

theorem Inked.snoc (h : Inked claims r) (hhere : r'.shape? claim.handle = some shape)
    (helsewhere : ∀ k, k ≠ claim.handle → r'.shape? k = r.shape? k)
    (hkeys : ∀ key, key ∈ shape.style.keys ↔
      Named claims claim.handle key ∨ key ∈ claim.style.keys)
    (hnext : r.nextId ≤ r'.nextId) (hbelow : claim.handle.id < r'.nextId) :
    Inked (claims ++ [claim]) r' := by
  refine ⟨?_, ?_⟩
  · intro k held hk key
    rw [named_append, named_singleton]
    by_cases hsame : claim.handle = k
    · subst hsame
      rw [hhere] at hk
      cases hk
      rw [hkeys, and_iff_right rfl]
    · rw [helsewhere k (Ne.symm hsame)] at hk
      rw [h.keys k held hk]
      exact (or_iff_left fun hnew => hsame hnew.1).symm
  · intro old hold
    rcases List.mem_append.mp hold with hmem | hmem
    · exact Nat.lt_of_lt_of_le (h.below old hmem) hnext
    · rw [List.mem_singleton.mp hmem]
      exact hbelow

variable [Recording σ] {c c' : Cache σ} {g : Geometry} {s : Style}

theorem Inked.added {handle : Handle} (h : Inked claims c.table) (howning : Owning c)
    (hadded : Added c g s handle c') : Inked (claims ++ [⟨handle, g, s⟩]) c'.table := by
  cases hadded with
  | reused entry rest shape shape' hwaiting hhandle _ _ _ _ _ hheld hwritten hupdated =>
    have hmem : handle ∈ handles c.owned := by
      rw [howning.owns.mem_iff, hheld]
      rfl
    refine h.snoc hwritten.here (fun k hk => hwritten.elsewhere hk) ?_ ?_ ?_
    · intro key
      rw [hupdated.mem_keys_iff, h.keys handle shape hheld]
    · exact Nat.le_of_eq hwritten.nextId.symm
    · rw [hwritten.nextId]
      exact howning.owns.below handle hmem
  | made mid hreleased _ _ _ _ _ hcreated =>
    have hmid : Inked claims mid.table := h.removed hreleased.table
    have hid : handle.id = mid.table.nextId := congrArg Handle.id hcreated.handle_eq
    refine hmid.snoc hcreated.here (fun k hk => hcreated.elsewhere hk) ?_ ?_ ?_
    · intro key
      exact (or_iff_right (hmid.not_named (Nat.le_of_eq hid.symm) key)).symm
    · rw [hcreated.nextId]
      exact Nat.le_succ _
    · rw [hcreated.nextId, hid]
      exact Nat.lt_succ_self _

/-! ### Frames that succeed -/

/-- What answered requests have done, by what the first of them has done and what the others have. -/
theorem addEach_induct {P : List Request → Cache σ → List Claim → Cache σ → Prop}
    (nil : ∀ c, P [] c [] c)
    (cons : ∀ {request rest handle now} {c c₁ c₂ : Cache σ}, Owning c →
      add request.geometry request.style c = .ok handle c₁ →
      Added c request.geometry request.style handle c₁ → P rest c₁ now c₂ →
      P (request :: rest) c (⟨handle, request.geometry, request.style⟩ :: now) c₂)
    (requests : List Request) (howning : Owning c) (hdrawing : c.isDrawing = true) :
    Ends (addEach requests) c
      (fun now c' => Owning c' ∧ c'.isDrawing = true ∧ P requests c now c') fun _ _ => True := by
  induction requests generalizing c with
  | nil => exact Ends.pure ⟨howning, hdrawing, nil c⟩
  | cons request rest ih =>
    unfold addEach
    refine Ends.bind (Ends.intro ?_ fun _ _ _ => trivial)
    intro handle c₁ hrun
    obtain ⟨_, hadded⟩ := (add_ends howning).of_ok hrun
    have hdrawing₁ : c₁.isDrawing = true := hadded.isDrawing_eq.trans hdrawing
    refine Ends.seq (ih (howning.added hdrawing hadded) hdrawing₁) ?_
    intro now c₂ ⟨howning₂, hdrawing₂, hlater⟩
    exact Ends.pure ⟨howning₂, hdrawing₂, cons howning hrun hadded hlater⟩

theorem addEach_showing (requests : List Request) (howning : Owning c)
    (hdrawing : c.isDrawing = true) (hshowing : Showing c shown) :
    Ends (addEach requests) c
      (fun now c' => Owning c' ∧ c'.isDrawing = true ∧ Showing c' (shown ++ now))
      fun _ _ => True := by
  have hends := addEach_induct
    (P := fun _ c now c' => ∀ shown, Showing c shown → Showing c' (shown ++ now))
    (fun c shown hshowing => by rwa [List.append_nil])
    (fun howning _ hadded hlater shown hshowing => by
      have hshowing' := hlater _ (hshowing.add howning hadded)
      rwa [List.append_assoc] at hshowing')
    requests howning hdrawing
  exact hends.imp_ok fun now c' ⟨howning', hdrawing', h⟩ => ⟨howning', hdrawing', h shown hshowing⟩

theorem addEach_inked (requests : List Request) (howning : Owning c)
    (hdrawing : c.isDrawing = true) (hinked : Inked claims c.table) :
    Ends (addEach requests) c (fun now c' => Inked (claims ++ now) c'.table) fun _ _ => True := by
  have hends := addEach_induct
    (P := fun _ c now c' => ∀ claims, Inked claims c.table → Inked (claims ++ now) c'.table)
    (fun c claims hinked => by rwa [List.append_nil])
    (fun howning _ hadded hlater claims hinked => by
      have hinked' := hlater _ (hinked.added howning hadded)
      rwa [List.append_assoc] at hinked')
    requests howning hdrawing
  exact hends.imp_ok fun now c' ⟨_, _, h⟩ => h claims hinked

theorem drawFrame_ends (requests : List Request) (howning : Owning c) (hidle : c.isDrawing = false)
    (hinked : Inked claims c.table) :
    Ends (drawFrame requests) c
      (fun now c' => Owning c' ∧ c'.isDrawing = false ∧ Showing c' now ∧
        Inked (claims ++ now) c'.table)
      fun _ _ => True := by
  have hopened := howning.clear hidle
  have hadds := (addEach_showing requests hopened rfl (.nil rfl)).and
    (addEach_inked requests hopened rfl hinked)
  refine drawFrame_rule hidle (hadds.imp ?_ fun _ _ _ => trivial)
  intro now c₁ ⟨⟨howning₁, hdrawing₁, hshowing₁⟩, hinked₁⟩
  refine (flush_showing hshowing₁ howning₁ hdrawing₁).imp ?_ fun _ _ _ => trivial
  intro _ c₂ ⟨howning₂, hidle₂, hshowing₂, hremoved⟩
  exact ⟨howning₂, hidle₂, hshowing₂, hinked₁.removed hremoved⟩

theorem drawFrames_ends (frames : List (List Request)) (howning : Owning c)
    (hidle : c.isDrawing = false) (hinked : Inked claims c.table) :
    Ends (drawFrames frames) c
      (fun now c' => Owning c' ∧ c'.isDrawing = false ∧ Inked (claims ++ now) c'.table)
      fun _ _ => True := by
  induction frames generalizing c claims with
  | nil =>
    refine Ends.pure ⟨howning, hidle, ?_⟩
    rw [List.append_nil]
    exact hinked
  | cons requests rest ih =>
    unfold drawFrames
    refine Ends.bind ((drawFrame_ends requests howning hidle hinked).imp ?_ fun _ _ _ => trivial)
    intro now c₁ ⟨howning₁, hidle₁, _, hinked₁⟩
    refine Ends.bind ((ih howning₁ hidle₁ hinked₁).imp ?_ fun _ _ _ => trivial)
    intro later c₂ ⟨howning₂, hidle₂, hinked₂⟩
    refine Ends.pure ⟨howning₂, hidle₂, ?_⟩
    rw [List.append_assoc] at hinked₂
    exact hinked₂

/-! ### The dress of a shape -/

theorem claim_eq_of_handle_eq {claims : List Claim} (h : (claims.map Claim.handle).Nodup)
    {claim other : Claim} (hclaim : claim ∈ claims) (hother : other ∈ claims)
    (heq : claim.handle = other.handle) : claim = other := by
  induction claims with
  | nil => cases hclaim
  | cons first rest ih =>
    obtain ⟨hfirst, hrest⟩ := List.nodup_cons.mp h
    rcases List.mem_cons.mp hclaim with rfl | hmem
    · rcases List.mem_cons.mp hother with rfl | hmem
      · rfl
      · exact absurd (heq ▸ List.mem_map_of_mem hmem) hfirst
    · rcases List.mem_cons.mp hother with rfl | hmem'
      · exact absurd (heq ▸ List.mem_map_of_mem hmem) hfirst
      · exact ih hrest hmem hmem'

theorem Style.keys_eq_iff (s t : Style) : s.keys = t.keys ↔ ∀ key, key ∈ s.keys ↔ key ∈ t.keys := by
  constructor
  · intro h key
    rw [h]
  · intro h
    rw [s.keys_eq_filter, t.keys_eq_filter]
    apply List.filter_congr
    intro key _
    have hkey := h key
    rwa [s.mem_keys_iff, t.mem_keys_iff, ← Bool.eq_iff_iff] at hkey

/-- After a frame a shape has exactly the attributes of its request if, and only if, every earlier
request that was answered with the same shape named none but these. -/
theorem style_keys_eq_iff (supported : Option (List StyleKey)) (past : List (List Request))
    (requests : List Request) {earlier now : List Claim} {c c' : Cache Recorder}
    (hpast : drawFrames past (onEmpty supported) = .ok earlier c)
    (hnow : drawFrame requests c = .ok now c') :
    c'.surface.liveShapes.map Prod.fst = now.map Claim.handle ∧
      ∀ claim, claim ∈ now → ∃ shape, c'.surface.shape? claim.handle = some shape ∧
        (shape.style.keys = claim.style.keys ↔
          ∀ old, old ∈ earlier → old.handle = claim.handle → old.style.keys ⊆ claim.style.keys) := by
  have hinked : Inked [] (onEmpty supported).table := by
    refine ⟨?_, fun claim hclaim => by cases hclaim⟩
    intro k shape hshape
    rw [shape?_onEmpty] at hshape
    cases hshape
  obtain ⟨howning, hidle, hearlier⟩ := (drawFrames_ends past (owning_onEmpty supported) rfl hinked).of_ok hpast
  obtain ⟨howning', hidle', hshowing, hall⟩ :=
    (drawFrame_ends requests howning hidle hearlier).of_ok hnow
  have hlive := hshowing.liveHandles_eq howning' hidle'
  refine ⟨hlive, ?_⟩
  intro claim hclaim
  obtain ⟨shape, hshape, _⟩ := hshowing.fits claim hclaim
  refine ⟨shape, hshape, ?_⟩
  have hnodup : (now.map Claim.handle).Nodup := by
    rw [← hlive]
    exact Recorder.nodup_of_increasing (Recorder.liveHandles_increasing _)
  have hown : ∀ key, Named now claim.handle key ↔ key ∈ claim.style.keys := by
    intro key
    constructor
    · intro hsome
      obtain ⟨other, hother, heq, hkey⟩ := hsome
      rw [claim_eq_of_handle_eq hnodup hclaim hother heq.symm]
      exact hkey
    · intro hkey
      exact ⟨claim, hclaim, rfl, hkey⟩
  have hkeys : ∀ key, key ∈ shape.style.keys ↔
      Named earlier claim.handle key ∨ key ∈ claim.style.keys := by
    intro key
    rw [hall.keys claim.handle shape hshape key, List.nil_append, named_append, hown]
  rw [Style.keys_eq_iff]
  constructor
  · intro hsame old hold heq key hkey
    exact (hsame key).mp ((hkeys key).mpr (Or.inl ⟨old, hold, heq, hkey⟩))
  · intro hcovered key
    rw [hkeys]
    apply or_iff_right_of_imp
    intro hsome
    obtain ⟨old, hold, heq, hkey⟩ := hsome
    exact hcovered old hold heq hkey

/-- A rectangle that is not to be filled, and then a canvas painted with the same shape. -/
def unfilled : Request :=
  ⟨.rect ⟨0.0, 0.0, 1.0, 1.0⟩, { fill := some (.bool false) }⟩

def painted : Request :=
  ⟨.rect ⟨0.0, 0.0, 1.0, 1.0⟩, { faceColor := some (.color .white) }⟩

theorem style_keys_eq_iff_painted :
    ∃ earlier c now c', drawFrames [[painted]] (onEmpty none) = .ok earlier c ∧
      drawFrame [painted] c = .ok now c' ∧
      c'.surface.liveShapes.map Prod.fst = now.map Claim.handle ∧
      ∀ claim, claim ∈ now → ∃ shape, c'.surface.shape? claim.handle = some shape ∧
        (shape.style.keys = claim.style.keys ↔
          ∀ old, old ∈ earlier → old.handle = claim.handle → old.style.keys ⊆ claim.style.keys) :=
  ⟨_, _, _, _, rfl, rfl, style_keys_eq_iff none [[painted]] [painted] rfl rfl⟩

/-- The shape of the second frame is still not to be filled, though its request says nothing of it. -/
theorem fill_survives :
    ∃ earlier c now c', drawFrames [[unfilled]] (onEmpty none) = .ok earlier c ∧
      drawFrame [painted] c = .ok now c' ∧
      ∃ claim shape, claim ∈ now ∧ c'.surface.shape? claim.handle = some shape ∧
        StyleKey.fill ∈ shape.style.keys ∧ StyleKey.fill ∉ claim.style.keys :=
  ⟨_, _, _, _, rfl, rfl, _, _, List.mem_cons_self, rfl, by decide, by decide⟩

end Cache

end Redraw
