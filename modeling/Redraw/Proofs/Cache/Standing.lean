import Mathlib.Data.List.Forall2
import Redraw.Proofs.Cache.Repeat

namespace Redraw

/-- The later request asks for the same shape once more, or it moves an ellipse or a polygon. -/
inductive Request.Follows : Request → Request → Prop
  | same {request : Request} (hnumbers : ∀ x, x ∈ request.style.numbers → x.isNaN = false) :
      Follows request request
  | moved {earlier later : Request} (hkind : (earlier.geometry.kind == later.geometry.kind) = true)
      (hfamily : later.geometry.family ≠ .rect) : Follows earlier later

def Request.moves (request : Request) : Bool := request.geometry.family != .rect

namespace Cache

variable {c : Cache Recorder} {before : List Claim} {requests : List Request} {claim : Claim}
  {request : Request}

/-! ### Requests one by one -/

theorem agree_of_follows {shape : StoredShape} (hfits : shape.Fits claim.geometry claim.style)
    (h : claim.request.Follows request) : agree (claim.entry, request) = true := by
  cases h with
  | same =>
    -- the kind is equal to itself since the surface holds a shape of it
    have hheld := hfits.shows.kind_beq
    exact ShapeKind.beq_trans (ShapeKind.beq_symm hheld) hheld
  | moved hkind => exact hkind

theorem isTouched_of_follows {r : Recorder} {shape : StoredShape}
    (hshape : r.shape? claim.handle = some shape) (hfits : shape.Fits claim.geometry claim.style)
    (h : claim.request.Follows request) : isTouched r (claim.entry, request) = request.moves := by
  cases h with
  | same hnumbers =>
    have hwrites := updateWrites_fitting hfits hnumbers
    rw [isTouched_of_live hshape, pairWrites_of_live hshape]
    show (!(updateWrites claim.handle shape claim.request).isEmpty) = (claim.geometry.family != .rect)
    rw [hwrites]
    cases claim.geometry.family != .rect <;> rfl
  | moved _ hfamily =>
    have hmoves : (request.geometry.family != .rect) = true := bne_iff_ne.mpr hfamily
    unfold isTouched Request.moves
    rw [hmoves, Bool.true_or]

theorem meetings_of_follows {r : Recorder}
    (hfits : ∀ claim, claim ∈ before → ∃ shape, r.shape? claim.handle = some shape ∧
      shape.Fits claim.geometry claim.style)
    (h : List.Forall₂ (fun claim request => claim.request.Follows request) before requests) :
    meetings (before.map Claim.entry) requests =
      (before.zip requests).map fun pair => (pair.1.entry, pair.2) := by
  have hzip : (before.map Claim.entry).zip requests =
      (before.zip requests).map fun pair => (pair.1.entry, pair.2) := List.zip_map_left
  unfold meetings
  rw [hzip, List.takeWhile_eq_self_iff]
  intro pair hpair
  obtain ⟨⟨claim, request⟩, hmem, rfl⟩ := List.mem_map.mp hpair
  obtain ⟨shape, -, hfit⟩ := hfits claim (List.of_mem_zip hmem).1
  exact agree_of_follows hfit ((List.forall₂_iff_zip.mp h).2 hmem)

/-! ### Whole frames -/

/-- Between two frames: the cache shows the claims of the last one, and no shapes but these were ever
made. -/
structure Standing (c : Cache Recorder) (now : List Claim) : Prop where
  observed : ∃ p, Observed c p
  idle : c.isDrawing = false
  showing : Showing c now
  active : c.active.toList = now.map Claim.entry
  counted : c.surface.stats.created = c.surface.nextId
  made : c.surface.nextId = now.length
  kept : c.surface.removed = []

theorem standing_onEmpty : Standing (onEmpty none) [] := by
  obtain ⟨p, -, hobserved⟩ := observed_runAll none []
  exact ⟨⟨p, hobserved⟩, rfl, .nil rfl, rfl, rfl, rfl, rfl⟩

theorem Standing.note (h : Standing c before) (event : Event) :
    Standing { c with journal := event :: c.journal } before := by
  obtain ⟨p, hholds, howning, hobserved⟩ := h.observed
  refine ⟨⟨p, hholds, ?_, ?_⟩, h.idle, ⟨h.showing.order, h.showing.fits⟩, h.active,
    h.counted, h.made, h.kept⟩
  · exact ⟨howning.owns, howning.asked, howning.yields, howning.idle⟩
  · exact ⟨hobserved.owns, hobserved.asked, hobserved.yields, hobserved.idle⟩

theorem Standing.size (h : Standing c before) : c.active.size = before.length := by
  have hlength := congrArg List.length h.active
  rwa [List.length_map, Array.length_toList] at hlength

theorem Standing.mem_redrawn_iff (h : Standing c before) (first : Bool) (k : Handle) :
    k ∈ (before.filter fun claim => first || claim.request.moves).map Claim.handle ↔
      ∃ shape, c.surface.shape? k = some shape ∧
        (first = true ∨ shape.geometry.family ≠ .rect) := by
  have hfamily : ∀ claim, claim ∈ before → ∃ shape, c.surface.shape? claim.handle = some shape ∧
      shape.geometry.family = claim.geometry.family := by
    intro claim hclaim
    obtain ⟨shape, hshape, hfit⟩ := h.showing.fits claim hclaim
    exact ⟨shape, hshape, Geometry.family_eq_of_kind_beq hfit.shows.kind_beq⟩
  have hredrawn : ∀ claim : Claim, (first || claim.request.moves) = true ↔
      first = true ∨ claim.geometry.family ≠ .rect := by
    intro claim
    rw [Bool.or_eq_true]
    exact or_congr_right bne_iff_ne
  constructor
  · intro hmem
    obtain ⟨claim, hclaim, rfl⟩ := List.mem_map.mp hmem
    obtain ⟨hclaim, hfirst⟩ := List.mem_filter.mp hclaim
    obtain ⟨shape, hshape, hsame⟩ := hfamily claim hclaim
    exact ⟨shape, hshape, hsame ▸ (hredrawn claim).mp hfirst⟩
  · rintro ⟨shape, hshape, hfirst⟩
    obtain ⟨p, hobserved⟩ := h.observed
    have hlive : k ∈ CachedShape.handles c.owned := by
      rw [hobserved.owning.owns.mem_iff]
      exact Option.isSome_iff_exists.mpr ⟨shape, hshape⟩
    unfold owned at hlive
    rw [hobserved.owning.idle h.idle, List.append_nil, h.showing.order] at hlive
    obtain ⟨claim, hclaim, rfl⟩ := List.mem_map.mp hlive
    obtain ⟨held, hheld, hsame⟩ := hfamily claim hclaim
    cases hshape.symm.trans hheld
    exact List.mem_map_of_mem (List.mem_filter.mpr ⟨hclaim, (hredrawn claim).mpr (hsame ▸ hfirst)⟩)

/-- A frame that makes as many shapes as the scene still lacks, and uses all others again. -/
theorem Standing.drawFrame (h : Standing c before)
    (hagreeing : agreeing c.active.toList requests = before.length) :
    Ends (drawFrame requests) c
      (fun now c' => Standing c' now ∧ now.map Claim.request = requests ∧
        now.map Claim.handle = before.map Claim.handle ++
          fresh before.length (requests.length - before.length) ∧
        c'.touched.toList =
          ((meetings c.active.toList requests).filter (isTouched c.surface)).map
              (fun pair => pair.1.handle) ++
            fresh before.length (requests.length - before.length))
      fun _ _ => True := by
  obtain ⟨p, hobserved⟩ := h.observed
  have hlive : c.activeHandles = before.map Claim.handle := h.showing.order
  have hsurvive := stable_of_matches (drawFrame_matches Recorder.stable_counted.twin requests
    hobserved.owning (.self h.counted))
  apply Ends.intro _ fun _ _ _ => trivial
  intro now c' hrun
  obtain ⟨p', hobserved', -, -, -, htouched⟩ := hobserved.frame h.idle hrun
  obtain ⟨-, hidle, hshowing, hrequests, hactive⟩ :=
    (drawFrame_shows hobserved.owning h.idle).of_ok hrun
  obtain ⟨hanswers, -, hnext, hremoved⟩ :=
    (drawFrame_continues requests hobserved.owning h.idle).of_ok hrun
  have htable : c.table.nextId = before.length := h.made
  have hlength : before.length ≤ requests.length := hagreeing ▸ (agreeing_le _ _).2
  have hnow : now.length = requests.length := by rw [← hrequests, List.length_map]
  rw [hagreeing, hlive] at hanswers hremoved
  rw [List.take_of_length_le (by simp), htable] at hanswers
  rw [List.drop_eq_nil_of_le (by simp)] at hremoved
  rw [hagreeing, htable] at hnext
  rw [hagreeing, h.made] at htouched
  refine ⟨⟨⟨p', hobserved'⟩, hidle, hshowing, hactive, hsurvive.of_ok hrun, ?_, ?_⟩, hrequests,
    hanswers, htouched⟩
  · show c'.table.nextId = now.length
    omega
  · exact hremoved.trans h.kept

theorem Standing.first (h : Standing c []) :
    Ends (Cache.drawFrame requests) c
      (fun now c' => Standing c' now ∧ now.map Claim.request = requests ∧
        c'.touched.toList = now.map Claim.handle)
      fun _ _ => True := by
  have hnone : agreeing c.active.toList requests = 0 := by
    rw [h.active]
    rfl
  refine (h.drawFrame hnone).imp_ok ?_
  intro now c' ⟨hstanding, hrequests, hanswers, htouched⟩
  refine ⟨hstanding, hrequests, ?_⟩
  rw [htouched, meetings_eq_nil hnone, hanswers]
  rfl

/-- A frame whose requests follow those of the frame before makes nothing and removes nothing, and only
the shapes that move are to be redrawn. -/
theorem Standing.next (h : Standing c before)
    (hfollows : List.Forall₂ (fun claim request => claim.request.Follows request) before requests) :
    Ends (Cache.drawFrame requests) c
      (fun now c' => Standing c' now ∧ now.map Claim.request = requests ∧
        c'.touched.toList = (now.filter fun claim => claim.request.moves).map Claim.handle)
      fun _ _ => True := by
  have hlength : before.length = requests.length := hfollows.length_eq
  have hmeetings := meetings_of_follows h.showing.fits hfollows
  rw [← h.active] at hmeetings
  have hagreeing : agreeing c.active.toList requests = before.length := by
    show (meetings c.active.toList requests).length = _
    rw [hmeetings, List.length_map, List.length_zip, ← hlength, Nat.min_self]
  refine (h.drawFrame hagreeing).imp_ok ?_
  intro now c' ⟨hstanding, hrequests, hanswers, htouched⟩
  have hnothing : fresh before.length (requests.length - before.length) = [] := by
    rw [hlength, Nat.sub_self]
    rfl
  rw [hnothing, List.append_nil] at hanswers htouched
  refine ⟨hstanding, hrequests, ?_⟩
  have hzip : (before.zip requests).map (fun pair => (pair.1.handle, pair.2)) =
      now.map fun claim => (claim.handle, claim.request) := by
    have hnow : (now.map fun claim => (claim.handle, claim.request)) =
        (before.map Claim.handle).zip requests := by
      rw [← hanswers, ← hrequests]
      exact List.zip_map'.symm
    rw [hnow]
    exact List.zip_map_left.symm
  have hmoves : ∀ pair, pair ∈ before.zip requests →
      isTouched c.surface (pair.1.entry, pair.2) = pair.2.moves := by
    intro ⟨claim, request⟩ hmem
    obtain ⟨shape, hshape, hfit⟩ := h.showing.fits claim (List.of_mem_zip hmem).1
    exact isTouched_of_follows hshape hfit ((List.forall₂_iff_zip.mp hfollows).2 hmem)
  calc c'.touched.toList
      = ((before.zip requests).filter fun pair => pair.2.moves).map fun pair => pair.1.handle := by
        rw [htouched, hmeetings, List.filter_map, List.map_map]
        congr 1
        exact List.filter_congr hmoves
    _ = (((before.zip requests).map fun pair => (pair.1.handle, pair.2)).filter
          fun pair => pair.2.moves).map Prod.fst := by
        rw [List.filter_map, List.map_map]
        rfl
    _ = (now.filter fun claim => claim.request.moves).map Claim.handle := by
        rw [hzip, List.filter_map, List.map_map]
        rfl

/-! ### Removals -/

theorem removeAll_keepsCreated (created : Nat) (entries : List CachedShape) :
    Keeps (fun c : Cache Recorder => c.surface.stats.created = created) (removeAll entries) := by
  induction entries with
  | nil => exact .pure ()
  | cons entry rest ih =>
    refine .bind ?_ fun _ => ih
    intro c hc
    apply onSurface_ends
    apply Ends.intro
    · intro _ r hrun
      have hstats := Recorder.remove_stats hrun
      show r.stats.created = created
      rw [hstats]
      exact hc
    · intro _ r hrun
      show r.stats.created = created
      rw [Recorder.remove_error hrun]
      exact hc

theorem teardown_keepsCreated (created : Nat) :
    Keeps (fun c : Cache Recorder => c.surface.stats.created = created) teardown := by
  unfold teardown releasePrevious
  refine .bind ?_ fun _ => .bind .get fun c => .bind (.modify fun _ hc => hc) fun _ =>
    .bind (removeAll_keepsCreated created _) fun _ => .modify fun _ hc => hc
  exact .bind .get fun c => .bind (.modify fun _ hc => hc) fun _ => removeAll_keepsCreated created _

end Cache

end Redraw
