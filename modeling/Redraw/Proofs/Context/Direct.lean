import Redraw.Proofs.Context.Order

namespace Redraw

open Cache

variable {τ σ : Type}

theorem Cache.Serves.isDrawing [Surface σ] {requests : List Request} {c c₁ : Cache σ}
    (h : Serves requests c c₁) (hdrawing : c.isDrawing = true) : c₁.isDrawing = true := by
  unfold Cache.isDrawing at hdrawing ⊢
  rw [h.phase]
  exact hdrawing

namespace Context

/-- What commands do to the state that shapes are drawn with. -/
def redressAll (c : Context σ) (commands : List Command) : Context σ := commands.foldl redress c

variable {c : Context σ}

theorem redress_cache (cache : Cache σ) (command : Command) :
    { c with cache := cache }.redress command = { c.redress command with cache := cache } := by
  cases command <;> rfl

theorem redressAll_cache (cache : Cache σ) (commands : List Command) :
    { c with cache := cache }.redressAll commands =
      { c.redressAll commands with cache := cache } := by
  induction commands generalizing c with
  | nil => rfl
  | cons command rest ih =>
    show ({ c with cache := cache }.redress command).redressAll rest = _
    rw [redress_cache]
    exact ih

theorem redress_batchStyle (command : Command) : (c.redress command).batchStyle = c.batchStyle := by
  cases command <;> rfl

theorem marks_cons_eq_map_single {command : Command} {rest : List Command} {requests : List Request}
    (h : c.marks (command :: rest) = requests.map Mark.single) :
    ∃ (request? : Option Request) (later : List Request), c.mark? command = request?.map Mark.single ∧
      (c.redress command).marks rest = later.map Mark.single ∧ requests = request?.toList ++ later := by
  unfold marks at h
  cases hmark : c.mark? command with
  | none =>
    rw [hmark] at h
    exact ⟨none, requests, rfl, h, rfl⟩
  | some mark =>
    rw [hmark] at h
    cases requests with
    | nil => cases h
    | cons request later =>
      obtain ⟨hfirst, hrest⟩ := List.cons.inj h
      exact ⟨some request, later, congrArg some hfirst, hrest, rfl⟩

/-! ### Steps -/

variable [Surface σ]

theorem drawNow_direct (hstyle : c.batchStyle = none) (g : Geometry) (style : Style) :
    Ends (drawNow g style) c
      (fun _ c' => ∃ cache, Serves [⟨g, style⟩] c.cache cache ∧ c' = { c with cache := cache })
      fun _ _ => True := by
  refine Ends.of_eq (bind_of_ok (flushBatch_of_none hstyle)) ?_
  refine Ends.bind (onCache_ends (Ends.intro ?_ fun _ _ _ => trivial))
  intro handle cache hadd
  exact Ends.pure ⟨cache, .cons hadd (.nil _), rfl⟩

theorem draw_direct (hmuted : c.muted = false) (hstyle : c.batchStyle = none)
    (g : Context σ → Geometry) (style : Context σ → Style) :
    Ends (whenHeard do
        let c ← get
        drawNow (g c) (style c)) c
      (fun _ c' => ∃ cache, Serves [⟨g c, style c⟩] c.cache cache ∧ c' = { c with cache := cache })
      fun _ _ => True :=
  Ends.of_eq (whenHeard_of_heard hmuted _) (Ends.bind (Ends.get (drawNow_direct hstyle _ _)))

theorem rect_direct {r : Rect} {request : Request} (hmuted : c.muted = false)
    (hstyle : c.batchStyle = none) (hdrawing : c.cache.isDrawing = true)
    (hmark : c.mark? (.rect r) = some (.single request)) :
    Ends (rect r) c
      (fun _ c' => ∃ cache, Serves [request] c.cache cache ∧ c' = { c with cache := cache })
      fun _ _ => True := by
  have hrun := rect_inside (r := r) hmuted hdrawing
  rw [mark?_rect r hmuted hdrawing] at hmark
  cases hqueues : c.queues r with
  | some grid =>
    rw [hqueues] at hmark
    cases hmark
  | none =>
    rw [hqueues] at hmark hrun
    cases hmark
    exact Ends.of_eq hrun (drawNow_direct hstyle _ _)

end Context

namespace Command

open Context

variable [Surface σ] {s : Scene τ σ} {requests : List Request}

theorem run_direct (command : Command) (hdraws : command.draws = true) {request? : Option Request}
    (hmark : s.context.mark? command = request?.map Mark.single) (hmuted : s.context.muted = false)
    (hdrawing : s.context.cache.isDrawing = true) (hstyle : s.context.batchStyle = none) :
    Ends command.run s
      (fun _ s' => ∃ cache, Serves request?.toList s.context.cache cache ∧
        s' = { s with context := { s.context.redress command with cache := cache } })
      fun _ _ => True := by
  have hstyled : ∀ {change : Context σ → Context σ}, request?.map Mark.single = none →
      (change s.context).cache = s.context.cache →
      Ends (SceneM.change (unlessMuted change)) s
        (fun _ s' => ∃ cache, Serves request?.toList s.context.cache cache ∧
          s' = { s with context := { change s.context with cache := cache } })
        fun _ _ => True := by
    intro change hnone hcache
    rw [Option.map_eq_none_iff.mp hnone]
    refine Ends.modify ⟨s.context.cache, .nil _, ?_⟩
    rw [unlessMuted_of_heard hmuted, ← hcache]
  have hdrawn : ∀ {step : ContextM σ Unit} {request : Request}, some (.single request) =
        request?.map Mark.single → s.context.redress command = s.context →
      Ends step s.context (fun _ c' => ∃ cache, Serves [request] s.context.cache cache ∧
        c' = { s.context with cache := cache }) (fun _ _ => True) →
      Ends (SceneM.onContext step) s
        (fun _ s' => ∃ cache, Serves request?.toList s.context.cache cache ∧
          s' = { s with context := { s.context.redress command with cache := cache } })
        fun _ _ => True := by
    intro step request hmark hredress hends
    cases request? with
    | none => cases hmark
    | some request =>
      cases hmark
      refine SceneM.onContext_ends (hends.imp_ok ?_)
      rintro _ _ ⟨cache, hserves, rfl⟩
      exact ⟨cache, hserves, by rw [hredress]⟩
  cases command with
  | fill | noFill | stroke | noStroke | strokeWeight | noSmooth | beginShape | vertex =>
    exact hstyled hmark.symm rfl
  | background color => exact hdrawn hmark rfl (draw_direct hmuted hstyle _ _)
  | ellipse => exact hdrawn hmark rfl (draw_direct hmuted hstyle (fun _ => _) shapeStyle)
  | rect r =>
    cases request? with
    | none => cases hmark
    | some request => exact hdrawn rfl rfl (rect_direct hmuted hstyle hdrawing hmark)
  | endShape close =>
    cases request? with
    | none => cases hmark
    | some request =>
      cases hmark
      refine SceneM.onContext_ends (Ends.bind (Ends.get (Ends.bind (Ends.modify ?_))))
      refine (draw_direct (c := s.context.dropVertices) hmuted hstyle
        (fun _ => .polygon s.context.vertices.toList close) shapeStyle).imp_ok ?_
      rintro _ _ ⟨cache, hserves, rfl⟩
      exact ⟨cache, hserves, rfl⟩
  | beginFrame | endFrame | teardown | setBatching | setMuted | fillComponents | fail => cases hdraws

/-- Nothing is held back before, and no command asks for a rectangle to be merged. -/
theorem runAll_direct (commands : List Command)
    (hdraws : ∀ command ∈ commands, command.draws = true)
    (hmarks : s.context.marks commands = requests.map Mark.single)
    (hmuted : s.context.muted = false) (hdrawing : s.context.cache.isDrawing = true)
    (hstyle : s.context.batchStyle = none) :
    Ends (runAll commands) s
      (fun _ s' => ∃ cache, Serves requests s.context.cache cache ∧
        s' = { s with context := { s.context.redressAll commands with cache := cache } })
      fun _ _ => True := by
  induction commands generalizing s requests with
  | nil =>
    cases requests with
    | nil => exact Ends.pure ⟨s.context.cache, .nil _, rfl⟩
    | cons => cases hmarks
  | cons command rest ih =>
    obtain ⟨hcommand, hrest⟩ := List.forall_mem_cons.mp hdraws
    obtain ⟨request?, later, hmark, hlater, rfl⟩ := marks_cons_eq_map_single hmarks
    refine Ends.seq (run_direct command hcommand hmark hmuted hdrawing hstyle) ?_
    rintro _ _ ⟨cache, hserves, rfl⟩
    have halike : Alike { s.context.redress command with cache := cache }
        (s.context.redress command) := rfl
    refine (ih hrest ((halike.marks_eq rest).trans hlater)
      ((s.context.redress_kept command).1.trans hmuted) (hserves.isDrawing hdrawing)
      ((redress_batchStyle command).trans hstyle)).imp_ok ?_
    rintro _ _ ⟨cache', hserves', rfl⟩
    refine ⟨cache', hserves.append hserves', ?_⟩
    rw [redressAll_cache]
    rfl

end Command

end Redraw
