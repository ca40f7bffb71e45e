import Redraw.Proofs.Ending
import Redraw.Proofs.Surface.Table
import Redraw.Surface.Probe

/-!
# Surfaces that record

A surface records if there is a table of shapes inside on which each call does what it does on a
`Recorder`, or nothing at all when it is refused.
-/

namespace Redraw

/-- What is seen of a surface from outside. -/
structure View (σ : Type) where
  table : σ → Recorder
  /-- The handles that were to be removed, the latest first -/
  asked : σ → List Handle
  /-- The surface refuses no removal -/
  Yields : σ → Prop

namespace View

variable {σ α β : Type} (v : View σ) {x y z : σ}

/-- No removal was asked for between the two states. -/
structure Still (x y : σ) : Prop where
  asked : v.asked y = v.asked x
  yields : v.Yields x → v.Yields y

/-- The call does on the table what the recorder does; refused, it leaves the table alone. -/
def Follows (act : EStateM SurfaceError σ α) (model : EStateM SurfaceError Recorder α) : Prop :=
  ∀ x, Ends act x (fun a y => model (v.table x) = .ok a (v.table y) ∧ v.Still x y)
    fun _ y => v.table y = v.table x ∧ v.Still x y

/-- A live shape is removed, and that is noted. -/
def Removes (remove : Handle → EStateM SurfaceError σ Unit) : Prop :=
  ∀ handle x, v.Yields x → ((v.table x).shape? handle).isSome = true →
    Ends (remove handle) x
      (fun _ y => (v.table x).Removed (v.table y) [handle] ∧ v.asked y = handle :: v.asked x ∧
        v.Yields y)
      fun _ _ => False

variable {v}

theorem Still.refl (x : σ) : v.Still x x := ⟨rfl, id⟩

theorem Still.trans (h : v.Still x y) (h' : v.Still y z) : v.Still x z :=
  ⟨h'.asked.trans h.asked, fun hx => h'.yields (h.yields hx)⟩

theorem Follows.throw (e : SurfaceError) :
    v.Follows (throw e : EStateM SurfaceError σ α) (throw e : EStateM SurfaceError Recorder α) := by
  intro x
  exact Ends.throw ⟨rfl, Still.refl x⟩

theorem Follows.bind_read {act : EStateM SurfaceError σ α} {model : EStateM SurfaceError Recorder α}
    {next : α → EStateM SurfaceError σ β} {next' : α → EStateM SurfaceError Recorder β}
    (hact : v.Follows act model) (hreads : ∀ {a r r'}, model r = .ok a r' → r' = r)
    (hnext : ∀ a, v.Follows (next a) (next' a)) : v.Follows (act >>= next) (model >>= next') := by
  intro x
  refine Ends.bind ((hact x).imp ?_ fun e y h => h)
  intro a y ⟨hrun, hstill⟩
  have htable : v.table y = v.table x := hreads hrun
  refine (hnext a y).imp ?_ ?_
  · intro b z ⟨hrun', hstill'⟩
    refine ⟨?_, hstill.trans hstill'⟩
    rw [bind_of_ok hrun]
    exact hrun'
  · intro e z ⟨htable', hstill'⟩
    exact ⟨htable'.trans htable, hstill.trans hstill'⟩

end View

/-- A surface whose calls can be followed on a table. -/
class Recording (σ : Type) [Surface σ] where
  view : View σ
  create : ∀ g s, view.Follows (Surface.create g s) (Recorder.create g s)
  geometry : ∀ handle, view.Follows (Surface.geometry handle) (Recorder.geometry handle)
  setGeometry : ∀ handle g,
    view.Follows (Surface.setGeometry handle g) (Recorder.setGeometry handle g)
  style : ∀ handle key, view.Follows (Surface.style handle key) (Recorder.style handle key)
  setStyle : ∀ handle key value,
    view.Follows (Surface.setStyle handle key value) (Recorder.setStyle handle key value)
  setField : ∀ handle field value,
    view.Follows (Surface.setField handle field value) (Surface.setField handle field value)
  remove : view.Removes Surface.remove

namespace Recorder

/-! ### The recorder itself -/

def selfView : View Recorder where
  table := id
  asked := removed
  Yields _ := True

theorem selfView_follows {α : Type} {call : EStateM SurfaceError Recorder α}
    (hok : ∀ {a r r'}, call r = .ok a r' → r'.removed = r.removed)
    (herror : ∀ {e r r'}, call r = .error e r' → r' = r) : selfView.Follows call call := by
  intro r
  apply Ends.intro
  · intro a r' hrun
    exact ⟨hrun, hok hrun, id⟩
  · intro e r' hrun
    rw [herror hrun]
    exact ⟨rfl, View.Still.refl r⟩

theorem geometry_error {handle : Handle} {r r' : Recorder} {e : SurfaceError}
    (h : geometry handle r = .error e r') : r' = r := by
  unfold geometry at h
  split at h <;> cases h
  rfl

theorem style_error {handle : Handle} {key : StyleKey} {r r' : Recorder} {e : SurfaceError}
    (h : style handle key r = .error e r') : r' = r := by
  unfold style at h
  split at h <;> cases h <;> rfl

theorem selfView_geometry (handle : Handle) :
    selfView.Follows (geometry handle) (geometry handle) :=
  selfView_follows (fun hrun => congrArg removed (geometry_ok hrun).1) geometry_error

theorem selfView_setGeometry (handle : Handle) (g : Geometry) :
    selfView.Follows (setGeometry handle g) (setGeometry handle g) := by
  refine selfView_follows ?_ setGeometry_error
  intro _ r r' hrun
  obtain ⟨_, _, _, _, hwritten⟩ := setGeometry_ok hrun
  exact hwritten.removed

theorem setField_follows {σ : Type} {v : View σ} {handle : Handle} {field : RectField} {value : Float}
    {read : EStateM SurfaceError σ Geometry} {write : Geometry → EStateM SurfaceError σ Unit}
    (hread : v.Follows read (geometry handle))
    (hwrite : ∀ g, v.Follows (write g) (setGeometry handle g)) :
    v.Follows
      (read >>= fun
        | .rect held => write (.rect (held.set field value))
        | _ => throw (.invalidGeometry (.notARectangle handle)))
      (Surface.setField handle field value) := by
  rw [setField_eq]
  refine hread.bind_read (fun hrun => (geometry_ok hrun).1) ?_
  intro g
  cases g with
  | rect held => exact hwrite _
  | ellipse => exact View.Follows.throw _
  | polygon => exact View.Follows.throw _

instance : Recording Recorder where
  view := selfView
  create _ _ := selfView_follows (fun hrun => (create_ok hrun).2.2.removed) create_error
  geometry := selfView_geometry
  setGeometry := selfView_setGeometry
  style _ _ := selfView_follows (fun hrun => congrArg removed (style_ok hrun).1) style_error
  setStyle _ _ _ := by
    refine selfView_follows ?_ setStyle_error
    intro _ r r' hrun
    obtain ⟨_, _, hwritten⟩ := setStyle_ok hrun
    exact hwritten.removed
  setField handle _ _ := setField_follows (selfView_geometry handle) (selfView_setGeometry handle)
  remove := by
    intro handle r _ hlive
    obtain ⟨shape, hshape⟩ := Option.isSome_iff_exists.mp hlive
    obtain ⟨r', hrun⟩ := remove_of_live hshape
    apply Ends.intro
    · intro _ r₁ hrun₁
      have hremoved := remove_ok hrun₁
      exact ⟨hremoved, hremoved.removed, trivial⟩
    · intro e r₁ herror
      cases hrun.symm.trans herror

end Recorder

namespace SurfaceCall

def removed? : SurfaceCall → Option Handle
  | remove handle => some handle
  | _ => none

end SurfaceCall

namespace Probe

/-! ### A probe around a recorder -/

def removalCalls {σ : Type} (p : Probe σ) : List Handle := p.calls.filterMap SurfaceCall.removed?

def innerView : View (Probe Recorder) where
  table := inner
  asked := removalCalls
  Yields p := ∀ number, p.refuses .remove number = false

/-- A call that goes through ends as the call inside does. -/
theorem observe_ends {σ α : Type} {call : SurfaceCall} {act : EStateM SurfaceError σ α}
    {p : Probe σ} {ok : α → Probe σ → Prop} {fail : SurfaceError → Probe σ → Prop}
    (hrefused : ∀ e, p.refuses call.op (p.counts.get call.op) = true →
      fail e { p with counts := p.counts.count call.op, calls := call :: p.calls })
    (hpassed : p.refuses call.op (p.counts.get call.op) = false →
      Ends act p.inner
        (fun a inner => ok a ⟨inner, p.refuses, p.counts.count call.op, call :: p.calls⟩)
        fun e inner => fail e ⟨inner, p.refuses, p.counts.count call.op, call :: p.calls⟩) :
    Ends (observe call act) p ok fail := by
  unfold Ends observe
  dsimp only
  cases hnumber : p.refuses call.op (p.counts.get call.op) with
  | true =>
    rw [if_pos rfl]
    exact hrefused _ hnumber
  | false =>
    rw [if_neg Bool.false_ne_true]
    have hact := hpassed hnumber
    unfold Ends at hact
    cases hrun : act p.inner with
    | ok a inner =>
      rw [hrun] at hact
      exact hact
    | error e inner =>
      rw [hrun] at hact
      exact hact

theorem innerView_follows {α : Type} {call : SurfaceCall} {act : EStateM SurfaceError Recorder α}
    (hcall : call.removed? = none) (hact : Recorder.selfView.Follows act act) :
    innerView.Follows (observe call act) act := by
  intro p
  have hstill : ∀ (inner : Recorder) counts,
      innerView.Still p ⟨inner, p.refuses, counts, call :: p.calls⟩ := by
    intro inner counts
    refine ⟨?_, id⟩
    show List.filterMap _ (call :: p.calls) = _
    rw [List.filterMap_cons_none hcall]
    rfl
  apply observe_ends
  · intro e _
    exact ⟨rfl, hstill _ _⟩
  · intro _
    refine (hact p.inner).imp ?_ ?_
    · intro a inner ⟨hrun, _⟩
      exact ⟨hrun, hstill _ _⟩
    · intro e inner ⟨htable, _⟩
      exact ⟨htable, hstill _ _⟩

theorem innerView_geometry (handle : Handle) :
    innerView.Follows (Surface.geometry handle) (Recorder.geometry handle) :=
  innerView_follows rfl (Recorder.selfView_geometry handle)

theorem innerView_setGeometry (handle : Handle) (g : Geometry) :
    innerView.Follows (Surface.setGeometry handle g) (Recorder.setGeometry handle g) :=
  innerView_follows rfl (Recorder.selfView_setGeometry handle g)

theorem innerView_removes : innerView.Removes Surface.remove := by
  intro handle p hyields hlive
  apply observe_ends
  · intro e hrefused
    exact Bool.false_ne_true ((hyields _).symm.trans hrefused)
  · intro _
    refine (@Recording.remove Recorder _ _ handle p.inner trivial hlive).imp_ok ?_
    intro _ inner ⟨hremoved, _, _⟩
    have hasked : (SurfaceCall.remove handle :: p.calls).filterMap SurfaceCall.removed? =
        handle :: removalCalls p := List.filterMap_cons_some rfl
    exact ⟨hremoved, hasked, hyields⟩

instance : Recording (Probe Recorder) where
  view := innerView
  create g s := innerView_follows rfl (@Recording.create Recorder _ _ g s)
  geometry := innerView_geometry
  setGeometry := innerView_setGeometry
  style handle key := innerView_follows rfl (@Recording.style Recorder _ _ handle key)
  setStyle handle key value :=
    innerView_follows rfl (@Recording.setStyle Recorder _ _ handle key value)
  setField handle _ _ :=
    Recorder.setField_follows (innerView_geometry handle) (innerView_setGeometry handle)
  remove := innerView_removes

end Probe

end Redraw
