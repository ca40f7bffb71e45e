import Redraw.Sketch.Script
import Redraw.Proofs.Ending

namespace Redraw

theorem Keeps.of_bind_pure {ε σ α β : Type} {P : σ → Prop} {step : EStateM ε σ α} {f : α → β}
    (h : Keeps P (step >>= fun a => pure (f a))) : Keeps P step := by
  intro s hs
  apply Ends.intro
  · intro a s' hrun
    exact (h s hs).of_ok (bind_of_ok hrun)
  · intro e s' hrun
    exact (h s hs).of_error (bind_of_error hrun)

variable {τ σ α : Type}

/-! ### Steps inside a larger state -/

theorem Context.onCache_ends {c : Context σ} {step : CacheM σ α} {ok : α → Context σ → Prop}
    {fail : CacheError → Context σ → Prop}
    (h : Ends step c.cache (fun a cache => ok a { c with cache := cache })
      fun e cache => fail e { c with cache := cache }) : Ends (Context.onCache step) c ok fail := by
  unfold Ends at h ⊢
  unfold Context.onCache
  cases hrun : step c.cache <;> rw [hrun] at h <;> exact h

theorem SceneM.onContext_ends {s : Scene τ σ} {step : ContextM σ α} {ok : α → Scene τ σ → Prop}
    {fail : SketchError → Scene τ σ → Prop}
    (h : Ends step s.context (fun a context => ok a { s with context := context })
      fun e context => fail (.cache e) { s with context := context }) :
    Ends (SceneM.onContext step) s ok fail := by
  unfold Ends at h ⊢
  unfold SceneM.onContext
  cases hrun : step s.context <;> rw [hrun] at h <;> exact h

namespace Context

variable {E : Effect (Context σ)} {F : Effect (Cache σ)}

theorem onCache_allows {step : CacheM σ α} (h : F.Allows step) :
    (F.on Context.cache).Allows (onCache step) := fun c => onCache_ends (h c.cache)

theorem whenHeard_allows {step : ContextM σ Unit} (h : E.Allows step) :
    E.Allows (whenHeard step) := by
  unfold whenHeard
  refine .bind .get fun c => ?_
  cases c.muted with
  | true => exact .pure ()
  | false => exact h

theorem unlessMuted_cache {change : Context σ → Context σ} (h : ∀ c, (change c).cache = c.cache)
    (c : Context σ) : (unlessMuted change c).cache = c.cache := by
  unfold unlessMuted
  split
  · rfl
  · exact h c

/-! ### Drawing -/

variable [Surface σ] (hadd : ∀ g s, F.Allows (Cache.add g s))
include hadd

theorem addAll_allows (style : Style) (geometries : List Geometry) :
    F.Allows (addAll style geometries) := by
  induction geometries with
  | nil => exact .pure ()
  | cons g rest ih => exact (hadd g style).bind fun _ => ih

theorem flushBatch_allows : (F.on Context.cache).Allows (flushBatch (σ := σ)) := by
  unfold flushBatch
  refine .bind .get fun c => ?_
  split
  · exact .pure ()
  · refine .bind (.modify fun _ => F.refl _) fun _ => ?_
    exact onCache_allows (addAll_allows hadd _ _)

theorem drawNow_allows (g : Geometry) (s : Style) :
    (F.on Context.cache).Allows (drawNow (σ := σ) g s) := by
  unfold drawNow
  refine (flushBatch_allows hadd).bind fun _ => ?_
  exact (onCache_allows (hadd g s)).bind fun _ => .pure ()

theorem enqueue_allows (style : Style) (grid : Nat) (r : Rect) :
    (F.on Context.cache).Allows (enqueue (σ := σ) style grid r) := by
  have hpush : (F.on Context.cache).Allows
      (modify fun c => { c with batch := c.batch.push (Batch.cornersOf grid r) } : ContextM σ Unit) :=
    .modify fun _ => F.refl _
  unfold enqueue
  refine .bind .get fun c => ?_
  split
  · refine (flushBatch_allows hadd).bind fun _ => ?_
    exact .bind (.modify fun _ => F.refl _) fun _ => hpush
  · exact hpush

theorem rect_allows (r : Rect) : (F.on Context.cache).Allows (rect (σ := σ) r) := by
  refine whenHeard_allows (.bind .get fun c => ?_)
  have hdraw := drawNow_allows hadd (.rect r) c.shapeStyle
  dsimp only
  cases c.grid with
  | none =>
    split
    · exact .bind (.throw _) fun _ => hdraw
    · exact hdraw
  | some grid =>
    have hqueue : (F.on Context.cache).Allows
        (if mergeable c.shapeStyle grid r then enqueue c.shapeStyle grid r
          else drawNow (.rect r) c.shapeStyle) := by
      split
      · exact enqueue_allows hadd _ _ _
      · exact hdraw
    split
    · exact .bind (.throw _) fun _ => hqueue
    · exact hqueue

end Context

/-! ### Commands -/

namespace Command

def restarts : Command → Bool
  | beginFrame | teardown => true
  | _ => false

variable {F : Effect (Cache σ)}

theorem onContext_allows {step : ContextM σ Unit} (h : (F.on Context.cache).Allows step) :
    (F.on fun s : Scene τ σ => s.context.cache).Allows (SceneM.onContext step) :=
  fun s => SceneM.onContext_ends (h s.context)

variable [Surface σ]

/-- A command reaches the cache by requests and by flushing it, unless it opens a frame or removes
everything. -/
theorem run_allows (hadd : ∀ g s, F.Allows (Cache.add g s)) (hflush : F.Allows Cache.flush)
    (command : Command) (hrestarts : command.restarts = false) :
    (F.on fun s : Scene τ σ => s.context.cache).Allows command.run := by
  have hchange : ∀ {f : Context σ → Context σ}, (∀ c, (f c).cache = c.cache) →
      (F.on fun s : Scene τ σ => s.context.cache).Allows
        (SceneM.change (Context.unlessMuted f)) := by
    intro f hf
    refine .modify fun s => ?_
    show F.ok s.context.cache (Context.unlessMuted f s.context).cache
    rw [Context.unlessMuted_cache hf]
    exact F.refl _
  cases command with
  | beginFrame => cases hrestarts
  | teardown => cases hrestarts
  | endFrame =>
    refine onContext_allows (Context.whenHeard_allows ?_)
    exact (Context.flushBatch_allows hadd).bind fun _ => Context.onCache_allows hflush
  | fill => exact hchange fun _ => rfl
  | noFill => exact hchange fun _ => rfl
  | stroke => exact hchange fun _ => rfl
  | noStroke => exact hchange fun _ => rfl
  | strokeWeight => exact hchange fun _ => rfl
  | noSmooth => exact hchange fun _ => rfl
  | beginShape => exact hchange fun _ => rfl
  | vertex => exact hchange fun _ => rfl
  | background =>
    refine onContext_allows (Context.whenHeard_allows (.bind .get fun _ => ?_))
    exact Context.drawNow_allows hadd _ _
  | rect r => exact onContext_allows (Context.rect_allows hadd r)
  | ellipse =>
    refine onContext_allows (Context.whenHeard_allows (.bind .get fun _ => ?_))
    exact Context.drawNow_allows hadd _ _
  | endShape =>
    refine onContext_allows (.bind .get fun _ => .bind (.modify fun _ => F.refl _) fun _ => ?_)
    refine Context.whenHeard_allows (.bind .get fun _ => ?_)
    exact Context.drawNow_allows hadd _ _
  | setBatching => exact .modify fun _ => F.refl _
  | setMuted => exact .modify fun _ => F.refl _
  | fillComponents components =>
    refine .bind ?_ fun color => hchange fun _ => rfl
    unfold SceneM.colorOf
    split
    · exact .pure _
    · exact .throw _
  | fail => exact .throw _

end Command

/-! ### Lasting properties -/

namespace Context

variable [Surface σ]

/-- No command breaks the property, and neither does a note in the journal. -/
structure Lasting (P : Context σ → Prop) : Prop where
  command : ∀ {τ : Type} (command : Command),
    Keeps (fun s : Scene τ σ => P s.context) command.run
  note : ∀ c event, P c → P { c with cache := { c.cache with journal := event :: c.cache.journal } }

end Context

/-- No operation breaks the property, and neither does a note in the journal. -/
structure Cache.Lasting [Surface σ] (Q : Cache σ → Prop) : Prop where
  op : ∀ op : Cache.Op, Keeps Q op.run
  note : ∀ c event, Q c → Q { c with journal := event :: c.journal }

section OfCache

variable [Surface σ] {Q : Cache σ → Prop}

theorem lasting_of_cache (h : Cache.Lasting Q) :
    Context.Lasting fun c : Context σ => Q c.cache := by
  have hadd : ∀ g s, (Effect.keeping Q).Allows (Cache.add g s) := fun g s =>
    Effect.keeping_allows_iff.mpr (h.op (.add g s)).of_bind_pure
  have hflush : (Effect.keeping Q).Allows Cache.flush :=
    Effect.keeping_allows_iff.mpr (h.op .flush).of_bind_pure
  have hbegin : (Effect.keeping Q).Allows Cache.beginFrame :=
    Effect.keeping_allows_iff.mpr (h.op .beginFrame).of_bind_pure
  have hclear : (Effect.keeping Q).Allows Cache.clear :=
    Effect.keeping_allows_iff.mpr (h.op .clear).of_bind_pure
  have hteardown : (Effect.keeping Q).Allows Cache.teardown :=
    Effect.keeping_allows_iff.mpr (h.op .teardown).of_bind_pure
  refine ⟨?_, fun c event hc => h.note c.cache event hc⟩
  intro τ command
  apply Effect.keeping_allows_iff.mp
  show ((Effect.keeping Q).on fun s : Scene τ σ => s.context.cache).Allows command.run
  cases hrestarts : command.restarts with
  | false => exact Command.run_allows hadd hflush command hrestarts
  | true =>
    cases command with
    | beginFrame =>
      refine Command.onContext_allows (Context.whenHeard_allows ?_)
      exact (Context.onCache_allows hbegin).bind fun _ => Context.onCache_allows hclear
    | teardown =>
      refine Command.onContext_allows (.bind (.modify fun _ => Effect.refl (.keeping Q) _) fun _ => ?_)
      exact Context.onCache_allows hteardown
    | _ => cases hrestarts

end OfCache

end Redraw
