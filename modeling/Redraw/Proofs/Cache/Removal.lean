import Redraw.Proofs.Cache.Twin

namespace Redraw

open CachedShape

/-! ### Removals under observation -/

/-- A removal that was asked for, and the newest shape there was then. -/
structure Removal where
  handle : Handle
  newest : Option Handle

/-- A recorder that notes the removals it is asked for. -/
structure Watch where
  inner : Recorder
  /-- The latest removal first -/
  log : List Removal := []

namespace Watch

def pass {α : Type} (act : EStateM SurfaceError Recorder α) : EStateM SurfaceError Watch α := fun w =>
  match act w.inner with
  | .ok a inner => .ok a { w with inner := inner }
  | .error e inner => .error e { w with inner := inner }

def noted (w : Watch) (handle : Handle) : Watch :=
  { w with log := ⟨handle, w.inner.newest?⟩ :: w.log }

instance : Surface Watch where
  create g s := pass (Surface.create g s)
  geometry handle := pass (Surface.geometry handle)
  setGeometry handle g := pass (Surface.setGeometry handle g)
  style handle key := pass (Surface.style handle key)
  setStyle handle key value := pass (Surface.setStyle handle key value)
  setField handle field value := pass (Surface.setField handle field value)
  remove handle := fun w => pass (Surface.remove handle) (w.noted handle)

/-- The watch holds the recorder, and every removal was that of the newest shape. -/
structure Shows (r : Recorder) (w : Watch) : Prop where
  inner : w.inner = r
  handles : w.log.map Removal.handle = r.removed
  newest : ∀ removal, removal ∈ w.log → removal.newest = some removal.handle

variable {r : Recorder} {w : Watch}

theorem pass_ok {α : Type} {act : EStateM SurfaceError Recorder α} {a : α}
    (h : act w.inner = .ok a r) : pass act w = .ok a { w with inner := r } := by
  unfold pass
  rw [h]

theorem pass_error {α : Type} {act : EStateM SurfaceError Recorder α} {e : SurfaceError}
    (h : act w.inner = .error e r) : pass act w = .error e { w with inner := r } := by
  unfold pass
  rw [h]

theorem Shows.still {r' : Recorder} (h : Shows r w) (hstill : Recorder.selfView.Still r r') :
    Shows r' { w with inner := r' } :=
  ⟨rfl, h.handles.trans hstill.asked.symm, h.newest⟩

theorem pass_matches {α : Type} {act : EStateM SurfaceError Recorder α}
    (hact : Recorder.selfView.Follows act act) (h : Shows r w) :
    Matches Shows act (pass act) r w := by
  have hinner := h.inner
  subst hinner
  apply Ends.intro
  · intro a r' hrun
    exact ⟨_, pass_ok hrun, h.still ((hact w.inner).of_ok hrun).2⟩
  · intro e r' hrun
    exact ⟨_, pass_error hrun, h.still ((hact w.inner).of_error hrun).2⟩

theorem remove_matches {handle : Handle} (hnewest : r.newest? = some handle) (h : Shows r w) :
    Matches Shows (Surface.remove handle) (Surface.remove handle) r w := by
  have hinner := h.inner
  subst hinner
  obtain ⟨shape, hshape⟩ := Option.isSome_iff_exists.mp (Recorder.isSome_shape?_of_newest hnewest)
  obtain ⟨r', hrun⟩ := Recorder.remove_of_live hshape
  apply Ends.intro
  · intro _ r₁ hrun₁
    cases hrun.symm.trans hrun₁
    refine ⟨{ w.noted handle with inner := r' }, @pass_ok _ (w.noted handle) _ _ _ hrun, rfl, ?_, ?_⟩
    · rw [(Recorder.remove_ok hrun).removed, ← h.handles]
      rfl
    · intro removal hmem
      rcases List.mem_cons.mp hmem with rfl | hold
      · exact hnewest
      · exact h.newest removal hold
  · intro e r₁ herror
    cases hrun.symm.trans herror

theorem twin : Twin Shows where
  create h g s := pass_matches (@Recording.create Recorder _ _ g s) h
  geometry h k := pass_matches (@Recording.geometry Recorder _ _ k) h
  setGeometry h k g := pass_matches (@Recording.setGeometry Recorder _ _ k g) h
  style h k key := pass_matches (@Recording.style Recorder _ _ k key) h
  setStyle h k key value := pass_matches (@Recording.setStyle Recorder _ _ k key value) h
  setField h k field value := pass_matches (@Recording.setField Recorder _ _ k field value) h
  remove h _ hnewest := remove_matches hnewest h

end Watch

namespace Cache

def onWatch (supported : Option (List StyleKey)) : Cache Watch :=
  { surface := { inner := { supported := supported } } }

/-! ### The removals of one operation -/

section OneOperation

variable {σ : Type} [Surface σ] [Recording σ] {c c' : Cache σ} {g : Geometry} {s : Style}

/-- The last of the owned shapes were removed, newest first. -/
def GaveUp (c c' : Cache σ) : Prop :=
  ∃ kept given, c.owned = kept ++ given ∧ c'.table.removed = handles given ++ c.table.removed

theorem GaveUp.nothing (h : c'.table.removed = c.table.removed) : GaveUp c c' :=
  ⟨c.owned, [], (List.append_nil _).symm, h⟩

theorem GaveUp.waiting (h : c.table.Removed c'.table (handles c.pending).reverse) : GaveUp c c' := by
  refine ⟨c.active.toList, c.pending, rfl, ?_⟩
  rw [h.removed, List.reverse_reverse]

theorem GaveUp.trans_eq {c'' : Cache σ} (h : GaveUp c c')
    (hsame : c''.table.removed = c'.table.removed) : GaveUp c c'' := by
  obtain ⟨kept, given, howned, hremoved⟩ := h
  exact ⟨kept, given, howned, hsame.trans hremoved⟩

theorem Added.gaveUp {handle : Handle} (h : Added c g s handle c') : GaveUp c c' := by
  cases h with
  | reused _ _ _ _ _ _ _ _ _ _ _ _ hwritten _ => exact .nothing hwritten.removed
  | made mid hreleased _ _ _ _ _ hcreated =>
    exact (GaveUp.waiting hreleased.table).trans_eq hcreated.removed

theorem Refused.gaveUp (h : Refused c g c') : GaveUp c c' := by
  cases h with
  | outside _ hsame =>
    rw [hsame]
    exact .nothing rfl
  | kept _ _ _ _ _ _ _ _ hwritten _ => exact .nothing hwritten.removed
  | missed mid hreleased _ htable =>
    exact (GaveUp.waiting hreleased.table).trans_eq (congrArg Recorder.removed htable)

theorem Op.run_gaveUp (h : Owning c) (op : Op) :
    Ends op.run c (fun _ c' => GaveUp c c') fun _ c' => GaveUp c c' := by
  cases op with
  | beginFrame => exact Ends.bind (Ends.modify (Ends.pure (.nothing rfl)))
  | clear =>
    refine Ends.bind ((clear_ends c).imp ?_ ?_)
    · intro _ c' hsome
      obtain ⟨_, rfl⟩ := hsome
      exact Ends.pure (.nothing rfl)
    · intro _ c' hsome
      obtain ⟨_, rfl⟩ := hsome
      exact .nothing rfl
  | flush =>
    refine Ends.bind ((flush_ends h).imp ?_ fun _ _ h => h.elim)
    intro _ c' hcases
    rcases hcases with ⟨_, rfl⟩ | ⟨_, hreleased⟩
    · exact Ends.pure (.nothing rfl)
    · exact Ends.pure (.waiting hreleased.table)
  | teardown =>
    refine Ends.bind ((teardown_ends h).imp ?_ fun _ _ h => h.elim)
    intro _ c' ⟨_, _, _, hremoved⟩
    exact Ends.pure ⟨[], c.owned, rfl, hremoved⟩
  | add g s =>
    refine Ends.map ((add_ends h).imp ?_ ?_)
    · intro _ c' ⟨_, hadded⟩
      exact hadded.gaveUp
    · intro _ c' hrefused
      exact hrefused.gaveUp

theorem Owning.gaveUp (h : Owning c) (op : Op) : GaveUp c (op.after c) := by
  have hends := Op.run_gaveUp h op
  unfold Op.after
  split
  · next hrun => exact hends.of_ok hrun
  · next hrun => exact hends.of_error hrun

end OneOperation

/-- A cache on a recorder owns its shapes oldest first. Whatever is done with it, every removal it asks
for is that of the newest shape there is; that an observer notes the removals changes nothing else. The
removals of one operation go from newer to older shapes. -/
theorem removals_newest_first (supported : Option (List StyleKey)) (ops : List Op) :
    (handles (runAll ops (onEmpty supported)).owned).Pairwise (fun h k => h.id < k.id) ∧
      (∃ log, runAll ops (onWatch supported) = (runAll ops (onEmpty supported)).onto
          ⟨(runAll ops (onEmpty supported)).surface, log⟩ ∧
        log.map Removal.handle = (runAll ops (onEmpty supported)).surface.removed ∧
        ∀ removal, removal ∈ log → removal.newest = some removal.handle) ∧
      ∀ op : Op, ∃ gone,
        (op.after (runAll ops (onEmpty supported))).surface.removals =
          (runAll ops (onEmpty supported)).surface.removals ++ gone ∧
        gone.Pairwise fun h k => k.id < h.id := by
  have howning := (owning_onEmpty supported).runAll ops
  have hpaired : Paired Watch.Shows (onEmpty supported) (onWatch supported) :=
    ⟨(onWatch supported).surface, ⟨rfl, rfl, fun _ hmem => nomatch hmem⟩, rfl⟩
  refine ⟨howning.owns.increasing, ?_, ?_⟩
  · obtain ⟨⟨inner, log⟩, ⟨hinner, hhandles, hnewest⟩, hrun⟩ :=
      hpaired.runAll Watch.twin ops (owning_onEmpty supported)
    subst hinner
    exact ⟨log, hrun, hhandles, hnewest⟩
  · intro op
    obtain ⟨kept, given, howned, hremoved⟩ := howning.gaveUp op
    have hlog : (op.after (runAll ops (onEmpty supported))).surface.removed =
        handles given ++ (runAll ops (onEmpty supported)).surface.removed := hremoved
    have hincreasing := howning.owns.increasing
    rw [howned, handles_append] at hincreasing
    refine ⟨(handles given).reverse, ?_, ?_⟩
    · unfold Recorder.removals
      rw [hlog, List.reverse_append]
    · rw [List.pairwise_reverse]
      exact (List.pairwise_append.mp hincreasing).2.1

/-- A surplus shape, two that are given up on a miss, and a teardown in the middle of a frame. -/
example :
    let square : Op := .add (.rect ⟨0.0, 0.0, 1.0, 1.0⟩) {}
    let dot : Op := .add (.polygon [(0.0, 0.0)] true) {}
    ((runAll [.clear, square, square, square, square, .flush, .clear, square, square, square, .flush,
      .clear, square, dot, .teardown] (onWatch none)).surface.log.reverse.map Removal.handle) =
        [⟨3⟩, ⟨2⟩, ⟨1⟩, ⟨4⟩, ⟨0⟩] := by decide +kernel

end Cache

end Redraw
