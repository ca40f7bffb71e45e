import Redraw.Proofs.Cache.Journal
import Redraw.Proofs.Context.Lasting
import Redraw.Proofs.Context.Muting

/-!
# Contexts that go on alike

Drawing reads neither the journal nor vertices from before the shape was begun.
-/

namespace Redraw

variable {τ τ' σ α β : Type}

namespace Context

def echo (c : Context σ) (journal : List Event) (vertices : Array Vertex) : Context σ :=
  { c with cache := { c.cache with journal := journal }, vertices := vertices }

/-- Both contexts are heard, and the other one is the same but for its journal and its vertices. Once a
shape has been begun on both, the vertices are the same as well. -/
def Echoes (begun : Bool) (c d : Context σ) : Prop :=
  c.muted = false ∧ ∃ journal vertices, (begun = true → vertices = c.vertices) ∧
    d = c.echo journal vertices

def OnlyVertices (c c' : Context σ) : Prop := ∃ vertices, c' = { c with vertices := vertices }

/-- The step reads neither the journal nor the vertices. -/
def Repeats (step : ContextM σ α) : Prop :=
  ∀ begun (c d : Context σ), c.Echoes begun d → Matches (Echoes begun) step step c d

theorem Echoes.weaken {begun : Bool} {c d : Context σ} (h : c.Echoes begun d) : c.Echoes false d := by
  obtain ⟨hheard, journal, vertices, -, hd⟩ := h
  exact ⟨hheard, journal, vertices, nofun, hd⟩

theorem Echoes.heard {begun : Bool} {c d : Context σ} (h : c.Echoes begun d) : d.muted = false := by
  obtain ⟨hheard, journal, vertices, -, hd⟩ := h
  subst hd
  exact hheard

theorem Echoes.note {begun : Bool} {c d : Context σ} (h : c.Echoes begun d)
    (journal journal' : List Event) :
    Echoes begun { c with cache := { c.cache with journal := journal } }
      { d with cache := { d.cache with journal := journal' } } := by
  obtain ⟨hheard, _, vertices, hvertices, hd⟩ := h
  subst hd
  exact ⟨hheard, journal', vertices, hvertices, rfl⟩

/-! ### Steps -/

namespace Repeats

variable {step : ContextM σ α}

protected theorem pure (a : α) : Repeats (pure a : ContextM σ α) := fun _ _ _ h => .pure h

protected theorem throw (e : CacheError) : Repeats (throw e : ContextM σ α) :=
  fun _ _ _ h => .throw h

protected theorem bind {next : α → ContextM σ β} (h : Repeats step)
    (hnext : ∀ a, Repeats (next a)) : Repeats (step >>= next) :=
  fun begun c d hcd => (h begun c d hcd).bind fun a => hnext a begun

theorem get_bind {next : Context σ → ContextM σ α}
    (hread : ∀ c journal vertices, next (c.echo journal vertices) = next c)
    (hnext : ∀ c, Repeats (next c)) : Repeats (get >>= next) := by
  intro begun c d hcd
  have hmatches := hnext c begun c d hcd
  obtain ⟨-, journal, vertices, -, hd⟩ := hcd
  subst hd
  apply Matches.get_bind
  rw [hread c journal vertices]
  exact hmatches

protected theorem modify {f : Context σ → Context σ} (hmuted : ∀ c, (f c).muted = c.muted)
    (hvertices : ∀ c, (f c).vertices = c.vertices)
    (hf : ∀ c journal vertices, f (c.echo journal vertices) = (f c).echo journal vertices) :
    Repeats (modify f : ContextM σ Unit) := by
  intro begun c d ⟨hheard, journal, vertices, hsame, hd⟩
  subst hd
  refine .modify ⟨(hmuted c).trans hheard, journal, vertices, ?_, hf c journal vertices⟩
  intro hbegun
  rw [hvertices, hsame hbegun]

end Repeats

theorem onCache_repeats {step : CacheM σ α} (h : Cache.IgnoresJournal step) :
    Repeats (onCache step) := by
  intro begun c d ⟨hheard, journal, vertices, hvertices, hd⟩
  subst hd
  apply onCache_ends
  unfold onCache
  refine (h _ _ ⟨journal, rfl⟩).imp ?_ ?_
  · intro a cache ⟨cache', hrun, journal', hcache'⟩
    subst hcache'
    refine ⟨_, ?_, hheard, journal', vertices, hvertices, rfl⟩
    dsimp only [echo]
    rw [hrun]
  · intro e cache ⟨cache', hrun, journal', hcache'⟩
    subst hcache'
    refine ⟨_, ?_, hheard, journal', vertices, hvertices, rfl⟩
    dsimp only [echo]
    rw [hrun]

theorem whenHeard_repeats {step : ContextM σ Unit} (h : Repeats step) : Repeats (whenHeard step) := by
  refine .get_bind (fun _ _ _ => rfl) fun c => ?_
  split
  · exact h
  · exact .pure ()

theorem beginFrame_repeats : Repeats (beginFrame : ContextM σ Unit) :=
  whenHeard_repeats ((onCache_repeats Cache.beginFrame_ignoresJournal).bind fun _ =>
    onCache_repeats Cache.clear_ignoresJournal)

variable [Surface σ]

theorem addAll_ignoresJournal (style : Style) (geometries : List Geometry) :
    Cache.IgnoresJournal (addAll style geometries : CacheM σ Unit) := by
  induction geometries with
  | nil => exact .pure ()
  | cons g rest ih => exact (Cache.add_ignoresJournal g style).bind fun _ => ih

theorem flushBatch_repeats : Repeats (flushBatch : ContextM σ Unit) := by
  refine .get_bind (fun _ _ _ => rfl) fun c => ?_
  split
  · exact .pure ()
  · refine .bind (.modify (fun _ => rfl) (fun _ => rfl) fun _ _ _ => rfl) fun _ => ?_
    exact onCache_repeats (addAll_ignoresJournal _ _)

theorem drawNow_repeats (g : Geometry) (style : Style) :
    Repeats (drawNow g style : ContextM σ Unit) :=
  flushBatch_repeats.bind fun _ =>
    (onCache_repeats (Cache.add_ignoresJournal g style)).bind fun _ => .pure ()

theorem endFrame_repeats : Repeats (endFrame : ContextM σ Unit) :=
  whenHeard_repeats (flushBatch_repeats.bind fun _ => onCache_repeats Cache.flush_ignoresJournal)

theorem teardown_repeats : Repeats (teardown : ContextM σ Unit) :=
  .bind (.modify (fun _ => rfl) (fun _ => rfl) fun _ _ _ => rfl) fun _ =>
    onCache_repeats Cache.teardown_ignoresJournal

theorem background_repeats (color : Color) : Repeats (background color : ContextM σ Unit) :=
  whenHeard_repeats (.get_bind (fun _ _ _ => rfl) fun _ => drawNow_repeats _ _)

theorem ellipse_repeats (centerX centerY width height : Float) :
    Repeats (ellipse centerX centerY width height : ContextM σ Unit) :=
  whenHeard_repeats (.get_bind (fun _ _ _ => rfl) fun _ => drawNow_repeats _ _)

theorem enqueue_repeats (style : Style) (grid : Nat) (r : Rect) :
    Repeats (enqueue style grid r : ContextM σ Unit) := by
  have hhold : Repeats (modify fun c : Context σ =>
      { c with batch := c.batch.push (Batch.cornersOf grid r) }) :=
    .modify (fun _ => rfl) (fun _ => rfl) fun _ _ _ => rfl
  refine .get_bind (fun _ _ _ => rfl) fun c => ?_
  split
  · refine flushBatch_repeats.bind fun _ => ?_
    exact .bind (.modify (fun _ => rfl) (fun _ => rfl) fun _ _ _ => rfl) fun _ => hhold
  · exact hhold

theorem rect_repeats (r : Rect) : Repeats (rect r : ContextM σ Unit) := by
  refine whenHeard_repeats (.get_bind (fun _ _ _ => rfl) fun c => ?_)
  have hdraw : Repeats (drawNow (.rect r) c.shapeStyle : ContextM σ Unit) := drawNow_repeats _ _
  dsimp only
  cases c.grid with
  | none =>
    split
    · exact .bind (.throw _) fun _ => hdraw
    · exact hdraw
  | some grid =>
    have hqueue : Repeats (if mergeable c.shapeStyle grid r then enqueue c.shapeStyle grid r
        else drawNow (.rect r) c.shapeStyle : ContextM σ Unit) := by
      split
      · exact enqueue_repeats _ _ _
      · exact hdraw
    split
    · exact .bind (.throw _) fun _ => hqueue
    · exact hqueue

theorem endShape_echoes (close : Bool) {c d : Context σ} (h : c.Echoes true d) :
    Matches (Echoes true) (endShape close) (endShape close) c d := by
  obtain ⟨hheard, journal, vertices, hvertices, hd⟩ := h
  have hvertices := hvertices rfl
  subst hd hvertices
  have hrest : Repeats (whenHeard do
      drawNow (.polygon c.vertices.toList close) (← get).shapeStyle : ContextM σ Unit) :=
    whenHeard_repeats (.get_bind (fun _ _ _ => rfl) fun _ => drawNow_repeats _ _)
  refine .get_bind (.modify_bind ?_)
  exact hrest _ _ _ ⟨hheard, journal, #[], fun _ => rfl, rfl⟩

end Context

/-! ### Commands -/

/-- The scenes may have different states, for the commands of a script do not look at them. -/
def Scene.Echoes (begun : Bool) (s : Scene τ σ) (t : Scene τ' σ) : Prop :=
  s.context.Echoes begun t.context

namespace Command

def paints : Command → Bool
  | fillComponents _ => true
  | command => command.draws

def beginsShape : Command → Bool
  | beginShape => true
  | _ => false

def usesVertices : Command → Bool
  | vertex _ | endShape _ => true
  | _ => false

/-- The commands set styles and draw shapes, and they use no vertices before a shape was begun. -/
def selfContained (begun : Bool) : List Command → Bool
  | [] => true
  | command :: rest =>
    command.paints && (!command.usesVertices || begun) &&
      selfContained (command.beginsShape || begun) rest

variable {begun : Bool} {s : Scene τ σ} {t : Scene τ' σ}

theorem onContext_echoes {step : ContextM σ α}
    (h : Matches (Context.Echoes begun) step step s.context t.context) :
    Matches (Scene.Echoes begun) (SceneM.onContext step) (SceneM.onContext step) s t := by
  apply SceneM.onContext_ends
  unfold SceneM.onContext
  refine h.imp ?_ ?_
  · intro a c ⟨d, hrun, hcd⟩
    rw [hrun]
    exact ⟨_, rfl, hcd⟩
  · intro e c ⟨d, hrun, hcd⟩
    rw [hrun]
    exact ⟨_, rfl, hcd⟩

theorem change_echoes {begun' : Bool} {f : Context σ → Context σ} (h : s.Echoes begun t)
    (hf : (f s.context).Echoes begun' (f t.context)) :
    Matches (Scene.Echoes begun') (SceneM.change (Context.unlessMuted f))
      (SceneM.change (Context.unlessMuted f)) s t := by
  refine .modify ?_
  unfold Scene.Echoes
  rw [Context.unlessMuted_of_heard h.1, Context.unlessMuted_of_heard h.heard]
  exact hf

theorem style_echoes {f : Context σ → Context σ} (h : s.Echoes begun t)
    (hmuted : ∀ c, (f c).muted = c.muted) (hvertices : ∀ c, (f c).vertices = c.vertices)
    (hf : ∀ c journal vertices, f (c.echo journal vertices) = (f c).echo journal vertices) :
    Matches (Scene.Echoes begun) (SceneM.change (Context.unlessMuted f))
      (SceneM.change (Context.unlessMuted f)) s t := by
  apply change_echoes h
  obtain ⟨hheard, journal, vertices, hsame, ht⟩ := h
  rw [ht, hf]
  refine ⟨(hmuted _).trans hheard, journal, vertices, ?_, rfl⟩
  intro hbegun
  rw [hvertices, hsame hbegun]

variable [Surface σ]

theorem run_fillComponents (components : List Float) :
    (run (fillComponents components) : SceneM τ σ Unit) =
      match Color.ofComponents components with
      | .ok color => SceneM.change (Context.setFill color)
      | .error e => throw (.color e) := by
  show (SceneM.colorOf components >>= fun color => SceneM.change (Context.setFill color)) = _
  unfold SceneM.colorOf
  cases Color.ofComponents components <;> rfl

theorem run_echoes (command : Command) (hpaints : command.paints = true)
    (hbegun : (!command.usesVertices || begun) = true) (h : s.Echoes begun t) :
    Matches (Scene.Echoes (command.beginsShape || begun)) command.run command.run s t := by
  cases command with
  | fill => exact style_echoes h (fun _ => rfl) (fun _ => rfl) fun _ _ _ => rfl
  | noFill => exact style_echoes h (fun _ => rfl) (fun _ => rfl) fun _ _ _ => rfl
  | stroke => exact style_echoes h (fun _ => rfl) (fun _ => rfl) fun _ _ _ => rfl
  | noStroke => exact style_echoes h (fun _ => rfl) (fun _ => rfl) fun _ _ _ => rfl
  | strokeWeight => exact style_echoes h (fun _ => rfl) (fun _ => rfl) fun _ _ _ => rfl
  | noSmooth => exact style_echoes h (fun _ => rfl) (fun _ => rfl) fun _ _ _ => rfl
  | background color => exact onContext_echoes (Context.background_repeats color _ _ _ h)
  | rect r => exact onContext_echoes (Context.rect_repeats r _ _ _ h)
  | ellipse => exact onContext_echoes (Context.ellipse_repeats _ _ _ _ _ _ _ h)
  | beginShape =>
    apply change_echoes h
    obtain ⟨hheard, journal, _, -, ht⟩ := h
    rw [ht]
    exact ⟨hheard, journal, #[], fun _ => rfl, rfl⟩
  | vertex v =>
    apply change_echoes h
    obtain ⟨hheard, journal, vertices, hvertices, ht⟩ := h
    rw [ht, hvertices hbegun]
    exact ⟨hheard, journal, _, fun _ => rfl, rfl⟩
  | endShape close =>
    have hbegun : begun = true := hbegun
    subst hbegun
    exact onContext_echoes (Context.endShape_echoes close h)
  | fillComponents components =>
    rw [run_fillComponents, run_fillComponents]
    cases Color.ofComponents components with
    | ok color => exact style_echoes h (fun _ => rfl) (fun _ => rfl) fun _ _ _ => rfl
    | error e => exact .throw h
  | beginFrame => cases hpaints
  | endFrame => cases hpaints
  | teardown => cases hpaints
  | setBatching => cases hpaints
  | setMuted => cases hpaints
  | fail => cases hpaints

theorem runAll_echoes (commands : List Command) (hcommands : selfContained begun commands = true)
    (h : s.Echoes begun t) :
    Matches (Scene.Echoes false) (runAll commands) (runAll commands) s t := by
  induction commands generalizing begun s t with
  | nil => exact .pure h.weaken
  | cons command rest ih =>
    unfold selfContained at hcommands
    obtain ⟨⟨hpaints, hbegun⟩, hrest⟩ := by
      simpa only [Bool.and_eq_true] using hcommands
    have hfirst := run_echoes command hpaints hbegun h
    apply Ends.bind
    apply Ends.intro
    · intro _ s₁ hrun
      obtain ⟨t₁, hrun', h₁⟩ := hfirst.of_ok hrun
      rw [runAll_cons hrun']
      exact ih hrest h₁
    · intro e s₁ hrun
      obtain ⟨t₁, hrun', h₁⟩ := hfirst.of_error hrun
      exact ⟨t₁, bind_of_error hrun', h₁.weaken⟩

/-! ### Commands that find the context muted -/

theorem run_unheard (command : Command) (hpaints : command.paints = true)
    (h : s.context.muted = true) :
    Ends command.run s (fun _ s' => s.context.OnlyVertices s'.context) fun _ _ => True := by
  cases hdraws : command.draws with
  | true =>
    have hframe : command.ofFrame = true := by
      cases command <;> first | rfl | exact hdraws
    refine Ends.of_eq (run_of_muted command hframe h) (Ends.pure ?_)
    unfold Scene.unheard
    split
    · exact ⟨#[], rfl⟩
    · exact ⟨s.context.vertices, rfl⟩
  | false =>
    cases command with
    | fillComponents components =>
      rw [run_fillComponents]
      cases Color.ofComponents components with
      | ok color => exact Ends.of_eq (change_of_muted h _) (Ends.pure ⟨s.context.vertices, rfl⟩)
      | error e => exact Ends.throw trivial
    | _ => cases hpaints.symm.trans hdraws

theorem runAll_unheard (commands : List Command)
    (hpaints : ∀ command ∈ commands, command.paints = true) (h : s.context.muted = true) :
    Ends (runAll commands) s (fun _ s' => s.context.OnlyVertices s'.context) fun _ _ => True := by
  induction commands generalizing s with
  | nil => exact Ends.pure ⟨s.context.vertices, rfl⟩
  | cons command rest ih =>
    obtain ⟨hfirst, hrest⟩ := List.forall_mem_cons.mp hpaints
    refine Ends.seq (run_unheard command hfirst h) ?_
    intro _ s₁ ⟨vertices, hs₁⟩
    have hmuted : s₁.context.muted = true := by
      rw [hs₁]
      exact h
    refine (ih hrest hmuted).imp_ok ?_
    intro _ s₂ ⟨vertices₂, hs₂⟩
    refine ⟨vertices₂, ?_⟩
    rw [hs₂, hs₁]

end Command

end Redraw
