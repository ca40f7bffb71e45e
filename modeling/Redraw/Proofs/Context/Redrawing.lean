import Redraw.Proofs.Animation.Run
import Redraw.Proofs.Cache.Touched
import Redraw.Proofs.Context.Steps

/-!
# Redrawing when commands fail

What a frame makes and what it changes is to be redrawn at its end, but for two slips: a frame that is
opened twice forgets it, and a command that fails half way hides its change from the one that is answered
with the shape afterwards.
-/

namespace Redraw

open CachedShape

variable {τ σ : Type} [Surface σ]

/-! ### How a shape is missed -/

namespace Step

/-- A frame is opened, or is to be opened again, when the shape is drawn already. -/
def Forgets (t : Step τ σ) (k : Handle) : Prop :=
  t.command = .beginFrame ∧ t.before.context.muted = false ∧ k ∈ t.before.cache.activeHandles

/-- The shape is drawn, and was not drawn in this frame before. -/
def Draws (t : Step τ σ) (k : Handle) : Prop :=
  k ∉ t.before.cache.activeHandles ∧ k ∈ t.after.cache.activeHandles

variable [Recording σ]

/-- The shape is made, or the geometry or the style of it is changed. -/
def Changes (t : Step τ σ) (k : Handle) : Prop :=
  ∃ shape, t.after.cache.table.shape? k = some shape ∧ t.before.cache.table.shape? k ≠ some shape

end Step

/-- A command draws the shape as one that need not be redrawn, after another has failed and changed it. -/
def Scene.Overlooks [Recording σ] (s : Scene τ σ) (commands : List Command) (k : Handle) : Prop :=
  ∃ earlier command later, commands = earlier ++ command :: later ∧
    (⟨s.afterAll earlier, command⟩ : Step τ σ).Draws k ∧
    k ∉ (s.afterAll (earlier ++ [command])).cache.touched ∧
    ∃ t ∈ s.steps earlier, t.Fails ∧ t.Changes k

/-! ### One command -/

/-- No frame is open, and nothing is drawn. -/
def Cache.Blank (c : Cache σ) : Prop := c.isDrawing = false ∧ c.active = #[]

namespace Step

variable {t : Step τ σ} {k : Handle}

theorem Forgets.untouched (h : t.Forgets k) : k ∉ t.after.cache.touched := by
  obtain ⟨before, command⟩ := t
  obtain ⟨hcommand, hheard, _⟩ := h
  cases hcommand
  have hempty : (⟨before, .beginFrame⟩ : Step τ σ).after.cache.touched = #[] := by
    rcases (Command.beginFrame_ends hheard).outcome with ⟨_, _, _, hsame⟩ | ⟨_, _, _, hsame⟩
    · exact congrArg Cache.touched hsame
    · exact congrArg Cache.touched hsame
  rw [hempty]
  exact Array.not_mem_empty k

variable [Recording σ]

/-- What a step does that does not open a frame and does not remove everything. -/
inductive Proceeds (t : Step τ σ) : Prop
  | drew (hdrawn : t.before.cache.Drawn t.after.cache)
      (hend : t.Fails ∨ t.before.cache.Answered t.after.cache)
  | refused (hcommand : t.command = .beginFrame) (hheard : t.before.context.muted = false)
      (hdrawing : t.before.cache.isDrawing = true)
      (hsame : t.after.cache = { t.before.cache with touched := #[] })

theorem proceeds_or_blank (howning : t.before.cache.Owning) (hopens : ¬t.Opens) :
    t.Proceeds ∨ t.after.cache.Blank := by
  obtain ⟨before, command⟩ := t
  cases hrestarts : command.restarts with
  | false =>
    have hends := Command.run_allows Cache.drawing_allows_add Cache.drawing_allows_flush command
      hrestarts before
    rcases hends.outcome with ⟨_, _, hok⟩ | ⟨e, hrun, hfail⟩
    · have hanswered := (hok howning).2
      exact Or.inl (.drew hanswered.toDrawn (Or.inr hanswered))
    · exact Or.inl (.drew (hfail howning).2 (Or.inl ⟨e, hrun⟩))
  | true =>
    cases command with
    | beginFrame =>
      refine Or.inl ?_
      cases hmuted : before.context.muted with
      | true =>
        have hrun : Command.run .beginFrame before = .ok () before :=
          Command.onContext_of_muted hmuted _
        have hsame : (⟨before, .beginFrame⟩ : Step τ σ).after = before := by
          unfold after stateAfter
          rw [hrun]
        have hanswered := Cache.Answered.refl before.cache
        exact .drew (hsame.symm ▸ hanswered.toDrawn) (Or.inr (hsame.symm ▸ hanswered))
      | false =>
        rcases (Command.beginFrame_ends hmuted).outcome with ⟨_, hrun, _⟩ | ⟨_, _, hdrawing, hsame⟩
        · refine absurd ⟨rfl, hmuted, ?_⟩ hopens
          rintro ⟨_, herror⟩
          cases hrun.symm.trans herror
        · exact .refused rfl hmuted hdrawing hsame
    | teardown =>
      refine Or.inr ?_
      have hends : Ends (Command.run .teardown) before (fun _ s' => s'.cache.Blank)
          fun _ _ => False := by
        refine SceneM.onContext_ends (Ends.bind (Ends.modify (Context.onCache_ends ?_)))
        refine (Cache.teardown_ends howning).imp_ok ?_
        intro _ c' ⟨_, howned, hidle, _⟩
        exact ⟨hidle, Array.toList_eq_nil_iff.mp (List.append_eq_nil_iff.mp howned).1⟩
      obtain ⟨_, _, hblank⟩ | ⟨_, _, hfalse⟩ := hends.outcome
      · exact hblank
      · exact hfalse.elim
    | _ => cases hrestarts

/-! ### What a command does to what is drawn -/

theorem Proceeds.blank (ht : t.Proceeds) (h : t.before.cache.Blank) : t.after.cache.Blank := by
  cases ht with
  | drew hdrawn =>
    obtain ⟨hidle, hactive⟩ := hdrawn.closed h.1
    exact ⟨hidle, hactive.trans h.2⟩
  | refused _ _ hdrawing =>
    rw [h.1] at hdrawing
    cases hdrawing

theorem Proceeds.active (ht : t.Proceeds) (hk : k ∈ t.before.cache.activeHandles) :
    k ∈ t.after.cache.activeHandles := by
  cases ht with
  | drew hdrawn => exact hdrawn.grows k hk
  | refused _ _ _ hsame =>
    rw [hsame]
    exact hk

theorem Proceeds.not_changes (ht : t.Proceeds) (hk : k ∈ t.before.cache.activeHandles) :
    ¬t.Changes k := by
  rintro ⟨shape, hafter, hbefore⟩
  cases ht with
  | drew hdrawn =>
    rw [hdrawn.kept k hk] at hafter
    exact hbefore hafter
  | refused _ _ _ hsame =>
    rw [hsame] at hafter
    exact hbefore hafter

theorem Proceeds.untouched (ht : t.Proceeds) (hk : k ∈ t.before.cache.activeHandles)
    (hnot : k ∉ t.before.cache.touched) : k ∉ t.after.cache.touched := by
  cases ht with
  | drew hdrawn =>
    intro hafter
    rcases hdrawn.fresh k hafter with hold | ⟨hnew, _⟩
    · exact hnot hold
    · exact hnew hk
  | refused _ _ _ hsame =>
    rw [hsame]
    exact Array.not_mem_empty k

theorem Proceeds.forgets (ht : t.Proceeds) (hk : k ∈ t.before.cache.activeHandles)
    (htouched : k ∈ t.before.cache.touched) (hlost : k ∉ t.after.cache.touched) : t.Forgets k := by
  cases ht with
  | drew hdrawn => exact absurd (hdrawn.recalled k htouched) hlost
  | refused hcommand hheard => exact ⟨hcommand, hheard, hk⟩

theorem Proceeds.fails (ht : t.Proceeds) (hchanges : t.Changes k)
    (hnot : k ∉ t.after.cache.activeHandles) : t.Fails := by
  obtain ⟨shape, hafter, hbefore⟩ := hchanges
  cases ht with
  | drew _ hend =>
    rcases hend with hfails | hanswered
    · exact hfails
    · exact absurd (hanswered.drawn k shape hafter hbefore) hnot
  | refused _ _ _ hsame =>
    rw [hsame] at hafter
    exact absurd hafter hbefore

theorem Proceeds.noted (ht : t.Proceeds) (hchanges : t.Changes k)
    (hk : k ∈ t.after.cache.activeHandles) : k ∈ t.after.cache.touched := by
  obtain ⟨shape, hafter, hbefore⟩ := hchanges
  cases ht with
  | drew hdrawn => exact hdrawn.noted k hk shape hafter hbefore
  | refused _ _ _ hsame =>
    rw [hsame] at hafter
    exact absurd hafter hbefore

theorem Proceeds.touched_active (ht : t.Proceeds)
    (h : ∀ k ∈ t.before.cache.touched, k ∈ t.before.cache.activeHandles) :
    ∀ k ∈ t.after.cache.touched, k ∈ t.after.cache.activeHandles := by
  intro k hk
  cases ht with
  | drew hdrawn =>
    rcases hdrawn.fresh k hk with hold | ⟨_, hnew⟩
    · exact hdrawn.grows k (h k hold)
    · exact hnew
  | refused _ _ _ hsame =>
    rw [hsame] at hk
    exact absurd hk (Array.not_mem_empty k)

end Step

/-! ### Runs of commands -/

namespace Scene

open Step

variable {s : Scene τ σ} {k : Handle} {commands : List Command}

theorem exists_draws (hk : k ∉ s.cache.activeHandles)
    (hend : k ∈ (s.afterAll commands).cache.activeHandles) :
    ∃ earlier command later, commands = earlier ++ command :: later ∧
      (⟨s.afterAll earlier, command⟩ : Step τ σ).Draws k := by
  induction commands generalizing s with
  | nil => exact absurd hend hk
  | cons command rest ih =>
    by_cases hfirst : k ∈ (stateAfter command.run s).cache.activeHandles
    · exact ⟨[], command, rest, rfl, hk, hfirst⟩
    · obtain ⟨earlier, next, later, rfl, hdraws⟩ := ih hfirst hend
      exact ⟨command :: earlier, next, later, rfl, hdraws⟩

variable [Recording σ]

theorem blank_afterAll (howning : s.cache.Owning) (hopens : ∀ t ∈ s.steps commands, ¬t.Opens)
    (h : s.cache.Blank) : (s.afterAll commands).cache.Blank := by
  induction commands generalizing s with
  | nil => exact h
  | cons command rest ih =>
    obtain ⟨hfirst, hrest⟩ := List.forall_mem_cons.mp hopens
    refine ih (owning_step howning command) hrest ?_
    rcases proceeds_or_blank (t := ⟨s, command⟩) howning hfirst with ht | hblank
    · exact ht.blank h
    · exact hblank

/-- Unless everything is removed in between, the commands after the one that opened a frame proceed. -/
theorem proceed_or_blank (howning : s.cache.Owning) (hopens : ∀ t ∈ s.steps commands, ¬t.Opens) :
    (∀ t ∈ s.steps commands, t.Proceeds) ∨ (s.afterAll commands).cache.Blank := by
  induction commands generalizing s with
  | nil => exact Or.inl fun _ ht => absurd ht List.not_mem_nil
  | cons command rest ih =>
    obtain ⟨hfirst, hrest⟩ := List.forall_mem_cons.mp hopens
    have howning' := owning_step howning command
    rcases proceeds_or_blank (t := ⟨s, command⟩) howning hfirst with ht | hblank
    · rcases ih howning' hrest with hall | hblank
      · exact Or.inl (List.forall_mem_cons.mpr ⟨ht, hall⟩)
      · exact Or.inr hblank
    · exact Or.inr (blank_afterAll (s := stateAfter command.run s) howning' hrest hblank)

/-! ### Shapes in a run -/

section Proceeding

variable (hsteps : ∀ t ∈ s.steps commands, t.Proceeds)
include hsteps

theorem active_throughout (hk : k ∈ s.cache.activeHandles) :
    (∀ t ∈ s.steps commands, k ∈ t.before.cache.activeHandles) ∧
      k ∈ (s.afterAll commands).cache.activeHandles := by
  induction commands generalizing s with
  | nil => exact ⟨fun _ ht => absurd ht List.not_mem_nil, hk⟩
  | cons command rest ih =>
    obtain ⟨hfirst, hrest⟩ := List.forall_mem_cons.mp hsteps
    obtain ⟨hbefore, hend⟩ := ih hrest (hfirst.active hk)
    exact ⟨List.forall_mem_cons.mpr ⟨hk, hbefore⟩, hend⟩

theorem active_of_step {t : Step τ σ} (ht : t ∈ s.steps commands)
    (hk : k ∈ t.after.cache.activeHandles) : k ∈ (s.afterAll commands).cache.activeHandles := by
  induction commands generalizing s with
  | nil => cases ht
  | cons command rest ih =>
    obtain ⟨_, hrest⟩ := List.forall_mem_cons.mp hsteps
    rcases List.mem_cons.mp ht with rfl | hlater
    · exact (active_throughout (s := stateAfter command.run s) hrest hk).2
    · exact ih hrest hlater

theorem untouched_afterAll (hk : k ∈ s.cache.activeHandles) (hnot : k ∉ s.cache.touched) :
    k ∉ (s.afterAll commands).cache.touched := by
  induction commands generalizing s with
  | nil => exact hnot
  | cons command rest ih =>
    obtain ⟨hfirst, hrest⟩ := List.forall_mem_cons.mp hsteps
    exact ih hrest (hfirst.active hk) (hfirst.untouched hk hnot)

theorem forgets_of_untouched (hk : k ∈ s.cache.activeHandles) (htouched : k ∈ s.cache.touched)
    (hlost : k ∉ (s.afterAll commands).cache.touched) : ∃ t ∈ s.steps commands, t.Forgets k := by
  induction commands generalizing s with
  | nil => exact absurd htouched hlost
  | cons command rest ih =>
    obtain ⟨hfirst, hrest⟩ := List.forall_mem_cons.mp hsteps
    by_cases hstill : k ∈ (stateAfter command.run s).cache.touched
    · obtain ⟨t, ht, hforgets⟩ := ih hrest (hfirst.active hk) hstill hlost
      exact ⟨t, List.mem_cons_of_mem _ ht, hforgets⟩
    · exact ⟨_, List.mem_cons_self, hfirst.forgets hk htouched hstill⟩

theorem untouched_of_forgets {t : Step τ σ} (ht : t ∈ s.steps commands) (hforgets : t.Forgets k) :
    k ∉ (s.afterAll commands).cache.touched := by
  induction commands generalizing s with
  | nil => cases ht
  | cons command rest ih =>
    obtain ⟨hfirst, hrest⟩ := List.forall_mem_cons.mp hsteps
    rcases List.mem_cons.mp ht with rfl | hlater
    · exact untouched_afterAll (s := stateAfter command.run s) hrest (hfirst.active hforgets.2.2)
        hforgets.untouched
    · exact ih hrest hlater

theorem touched_active_afterAll (h : ∀ k ∈ s.cache.touched, k ∈ s.cache.activeHandles) :
    ∀ k ∈ (s.afterAll commands).cache.touched, k ∈ (s.afterAll commands).cache.activeHandles := by
  induction commands generalizing s with
  | nil => exact h
  | cons command rest ih =>
    obtain ⟨hfirst, hrest⟩ := List.forall_mem_cons.mp hsteps
    exact ih hrest (hfirst.touched_active h)

/-- A shape that was changed and is drawn is missing from those to be redrawn exactly if it was forgotten
or overlooked. -/
theorem not_touched_iff (hstart : k ∉ s.cache.activeHandles)
    (hend : k ∈ (s.afterAll commands).cache.activeHandles)
    (hchanged : ∃ t ∈ s.steps commands, t.Changes k) :
    k ∉ (s.afterAll commands).cache.touched ↔
      (∃ t ∈ s.steps commands, t.Forgets k) ∨ s.Overlooks commands k := by
  constructor
  · intro hnot
    obtain ⟨earlier, command, later, rfl, hdraws⟩ := exists_draws hstart hend
    obtain ⟨t, ht, hchanges⟩ := hchanged
    rw [steps_append] at hsteps ht ⊢
    rw [afterAll_append] at hnot
    obtain ⟨hearlier, hrest⟩ := List.forall_mem_append.mp hsteps
    obtain ⟨hdrawn, hlater⟩ := List.forall_mem_cons.mp hrest
    have hactive := active_throughout hlater hdraws.2
    by_cases htouched : k ∈ (stateAfter command.run (s.afterAll earlier)).cache.touched
    · obtain ⟨u, hu, hforgets⟩ := forgets_of_untouched hlater hdraws.2 htouched hnot
      exact Or.inl ⟨u, List.mem_append_right _ (List.mem_cons_of_mem _ hu), hforgets⟩
    · refine Or.inr ⟨earlier, command, later, rfl, hdraws, ?_, ?_⟩
      · rw [afterAll_append]
        exact htouched
      · rcases List.mem_append.mp ht with hbefore | hafter
        · refine ⟨t, hbefore, (hearlier t hbefore).fails hchanges ?_, hchanges⟩
          exact fun hk => hdraws.1 (active_of_step hearlier hbefore hk)
        · rcases List.mem_cons.mp hafter with rfl | hlater'
          · exact absurd (hdrawn.noted hchanges hdraws.2) htouched
          · exact absurd hchanges ((hlater t hlater').not_changes (hactive.1 t hlater'))
  · rintro (⟨t, ht, hforgets⟩ | ⟨earlier, command, later, rfl, hdraws, hnot, _⟩)
    · exact untouched_of_forgets hsteps ht hforgets
    · rw [steps_append] at hsteps
      obtain ⟨_, hrest⟩ := List.forall_mem_append.mp hsteps
      obtain ⟨_, hlater⟩ := List.forall_mem_cons.mp hrest
      rw [afterAll_append] at hnot ⊢
      exact untouched_afterAll (s := stateAfter command.run (s.afterAll earlier)) hlater hdraws.2 hnot

end Proceeding

/-- At any moment of a frame, a shape that is missing from those to be redrawn may also wait still. -/
theorem missing_iff (howning : s.cache.Owning) (hnothing : s.cache.active = #[])
    (hnone : s.cache.touched = #[]) (hopens : ∀ t ∈ s.steps commands, ¬t.Opens)
    (hlive : ((s.afterAll commands).cache.table.shape? k).isSome = true)
    (hchanged : ∃ t ∈ s.steps commands, t.Changes k) :
    k ∉ (s.afterAll commands).cache.touched ↔
      (∃ t ∈ s.steps commands, t.Forgets k) ∨ s.Overlooks commands k ∨
        k ∈ handles (s.afterAll commands).cache.pending := by
  have howning' := owning_afterAll howning commands
  have howned := howning'.owns.live_mem k hlive
  unfold Cache.owned at howned
  rw [handles_append] at howned
  have hsteps : ∀ t ∈ s.steps commands, t.Proceeds := by
    rcases proceed_or_blank howning hopens with hall | ⟨hidle, hactive⟩
    · exact hall
    · rw [howning'.idle hidle, hactive] at howned
      cases howned
  by_cases hactive : k ∈ (s.afterAll commands).cache.activeHandles
  · have hnew : k ∉ s.cache.activeHandles := by
      unfold Cache.activeHandles
      rw [hnothing]
      exact List.not_mem_nil
    rw [not_touched_iff hsteps hnew hactive hchanged]
    exact or_congr_right (or_iff_left (howning'.not_pending hactive)).symm
  · refine iff_of_true ?_ (Or.inr (Or.inr ((List.mem_append.mp howned).resolve_left hactive)))
    refine fun htouched => hactive (touched_active_afterAll hsteps ?_ k htouched)
    intro k hk
    rw [hnone] at hk
    exact absurd hk (Array.not_mem_empty k)

end Scene

/-! ### Frames -/

theorem Command.endFrame_endsIdle {s : Scene τ σ} (h : s.context.muted = false) :
    Ends (Command.run .endFrame) s (fun _ s' => s'.cache.isDrawing = false) fun _ _ => True := by
  apply SceneM.onContext_ends
  refine Ends.of_eq (Context.whenHeard_of_heard h _) (Ends.seq Ends.trivial ?_)
  intro _ c _
  exact Context.onCache_ends (Cache.flush_endsIdle c.cache)

/-- On a canvas that was left in any state, a frame is opened and closed, and commands in between may fail.
A live shape that was made or changed since the frame was opened is missing from those to be redrawn
exactly in these cases: a second opening of the frame forgot it, a command overlooked that one before had
failed half way and changed it, or, as the context was muted, the frame is not closed and the shape still
waits. -/
theorem Context.missed_iff (supported : Option (List StyleKey)) (width height : Float)
    (past : List Deed) (c : Context Recorder)
    (hpast : (onCanvas { supported := supported } width height).afterAll past = c)
    (hheard : c.muted = false) (state : τ) (s s' : Scene τ Recorder)
    (hopen : Command.run .beginFrame ⟨state, c⟩ = .ok () s) (commands : List Command)
    (honly : ∀ t ∈ s.steps commands, ¬t.Opens)
    (hclose : Command.run .endFrame (s.afterAll commands) = .ok () s') (k : Handle)
    (hlive : (s'.cache.surface.shape? k).isSome = true)
    (hchanged : ∃ t ∈ s.steps (commands ++ [.endFrame]), t.Changes k) :
    k ∉ s'.cache.touched ↔
      (∃ t ∈ s.steps (commands ++ [.endFrame]), t.Forgets k) ∨
      s.Overlooks (commands ++ [.endFrame]) k ∨
      (s.afterAll commands).context.muted = true ∧ k ∈ handles s'.cache.pending := by
  have hopened := (Command.beginFrame_ends (s := ⟨state, c⟩) hheard).of_ok hopen
  have hstart : Cache.Owning c.cache := by
    rw [← hpast]
    exact (lasting_of_cache Cache.lasting_owning).afterAll past (Cache.owning_onEmpty supported)
  have howning : s.cache.Owning :=
    ((lasting_of_cache Cache.lasting_owning).command .beginFrame ⟨state, c⟩ hstart).of_ok hopen
  have hend : s.afterAll (commands ++ [.endFrame]) = s' := by
    rw [Scene.afterAll_append]
    show stateAfter _ _ = s'
    unfold stateAfter
    rw [hclose]
  have honly' : ∀ t ∈ s.steps (commands ++ [.endFrame]), ¬t.Opens := by
    rw [Scene.steps_append]
    refine List.forall_mem_append.mpr ⟨honly, ?_⟩
    rintro _ ht ⟨hcommand, _⟩
    rw [List.mem_singleton.mp ht] at hcommand
    cases hcommand
  have hcache := hopened.2
  have hlive' : ((s.afterAll (commands ++ [.endFrame])).cache.table.shape? k).isSome = true := by
    rw [hend]
    exact hlive
  have hiff := Scene.missing_iff howning (congrArg Cache.active hcache)
    (congrArg Cache.touched hcache) honly' hlive' hchanged
  rw [hend] at hiff
  rw [hiff]
  refine or_congr_right (or_congr_right (iff_and_self.mpr fun hwaits => ?_))
  refine eq_true_of_ne_false fun hheard' => ?_
  have howning' : s'.cache.Owning := by
    rw [← hend]
    exact Scene.owning_afterAll howning _
  rw [howning'.idle ((Command.endFrame_endsIdle hheard').of_ok hclose)] at hwaits
  cases hwaits

/-! ### Frames that miss a shape -/

theorem Step.changes_of_map {β : Type} {t : Step τ Recorder} {k : Handle} (f : StoredShape → β) {b : β}
    (hafter : (t.after.cache.surface.shape? k).map f = some b)
    (hbefore : (t.before.cache.surface.shape? k).map f ≠ some b) : t.Changes k := by
  obtain ⟨shape, hshape, hb⟩ := Option.map_eq_some_iff.mp hafter
  refine ⟨shape, hshape, fun hsame => hbefore ?_⟩
  have hsame' : t.before.cache.surface.shape? k = some shape := hsame
  rw [hsame', Option.map_some, hb]

namespace Context

/-- A canvas on which a frame has drawn a square. -/
def squared : Context Recorder :=
  (onCanvas {} 4.0 4.0).afterAll
    [.command .beginFrame, .command (.rect ⟨0.0, 0.0, 1.0, 1.0⟩), .command .endFrame]

def squareWaits : Scene Unit Recorder := stateAfter (Command.run .beginFrame) ⟨(), squared⟩

/-- A request moves the square and fails at its width; another one asks for the square where it now is. -/
def halfMoved : List Command := [.rect ⟨2.0, 0.0, -1.0, 1.0⟩, .rect ⟨2.0, 0.0, 1.0, 1.0⟩]

/-- A request moves the square, and then the frame is to be opened again. -/
def movedAndReopened : List Command := [.rect ⟨2.0, 0.0, 1.0, 1.0⟩, .beginFrame]

def isMoved (shape : StoredShape) : Bool := shape.geometry == .rect ⟨2.0, 0.0, 1.0, 1.0⟩

theorem squareWaits_opened : Command.run .beginFrame ⟨(), squared⟩ = .ok () squareWaits := by
  have hpasses : passes (Command.run .beginFrame) (⟨(), squared⟩ : Scene Unit Recorder)
      (fun _ _ => true) = true := by decide +kernel
  exact (ok_of_passes hpasses).choose_spec.1

theorem squareWaits_changes {command : Command}
    (h : command = .rect ⟨2.0, 0.0, -1.0, 1.0⟩ ∨ command = .rect ⟨2.0, 0.0, 1.0, 1.0⟩) :
    (⟨squareWaits, command⟩ : Step Unit Recorder).Changes ⟨0⟩ := by
  -- both requests leave the square in its new place, and it was not there before
  refine Step.changes_of_map isMoved (b := true) ?_ ?_
  · rcases h with rfl | rfl <;> decide +kernel
  · show (squareWaits.cache.surface.shape? ⟨0⟩).map isMoved ≠ some true
    decide +kernel

theorem closes_untouched {commands : List Command}
    (h : passes (Command.run .endFrame) (squareWaits.afterAll commands)
      (fun _ s' => (s'.cache.surface.shape? ⟨0⟩).isSome && s'.cache.touched == #[]) = true) :
    ∃ s', Command.run .endFrame (squareWaits.afterAll commands) = .ok () s' ∧
      (s'.cache.surface.shape? ⟨0⟩).isSome = true ∧ ⟨0⟩ ∉ s'.cache.touched := by
  obtain ⟨_, hrun, hcheck⟩ := ok_of_passes h
  obtain ⟨hlive, htouched⟩ := Bool.and_eq_true_iff.mp hcheck
  refine ⟨_, hrun, hlive, ?_⟩
  rw [eq_of_beq htouched]
  exact Array.not_mem_empty _

theorem halfMoved_closes : ∃ s', Command.run .endFrame (squareWaits.afterAll halfMoved) = .ok () s' ∧
    (s'.cache.surface.shape? ⟨0⟩).isSome = true ∧ ⟨0⟩ ∉ s'.cache.touched :=
  closes_untouched (by decide +kernel)

theorem missed_iff_halfMoved : ∃ s' : Scene Unit Recorder,
    squared.muted = false ∧ Command.run .beginFrame ⟨(), squared⟩ = .ok () squareWaits ∧
    (∀ t ∈ squareWaits.steps halfMoved, ¬t.Opens) ∧
    Command.run .endFrame (squareWaits.afterAll halfMoved) = .ok () s' ∧
    (s'.cache.surface.shape? ⟨0⟩).isSome = true ∧
    (∃ t ∈ squareWaits.steps (halfMoved ++ [.endFrame]), t.Changes ⟨0⟩) ∧
    (⟨0⟩ ∉ s'.cache.touched ↔
      (∃ t ∈ squareWaits.steps (halfMoved ++ [.endFrame]), t.Forgets ⟨0⟩) ∨
      squareWaits.Overlooks (halfMoved ++ [.endFrame]) ⟨0⟩ ∨
      (squareWaits.afterAll halfMoved).context.muted = true ∧
        ⟨0⟩ ∈ handles s'.cache.pending) := by
  obtain ⟨s', hclose, hlive, _⟩ := halfMoved_closes
  have hheard : squared.muted = false := by decide +kernel
  have honly : ∀ t ∈ squareWaits.steps halfMoved, ¬t.Opens := by
    rintro _ ht ⟨hcommand, _⟩
    rcases List.mem_cons.mp ht with rfl | ht
    · cases hcommand
    · rw [List.mem_singleton.mp ht] at hcommand
      cases hcommand
  have hchanged : ∃ t ∈ squareWaits.steps (halfMoved ++ [.endFrame]), t.Changes ⟨0⟩ :=
    ⟨_, List.mem_cons_self, squareWaits_changes (Or.inl rfl)⟩
  exact ⟨s', hheard, squareWaits_opened, honly, hclose, hlive, hchanged,
    missed_iff none 4.0 4.0 _ squared rfl hheard () squareWaits s' squareWaits_opened halfMoved
      honly hclose ⟨0⟩ hlive hchanged⟩

/-- In both frames the square is moved and is live in the end, but is not to be redrawn. In the second
one the request that moves it is answered: opening the frame again fails, but not without forgetting
it. -/
theorem touched_incomplete :
    Command.run .beginFrame ⟨(), squared⟩ = .ok () squareWaits ∧
    (∃ s', (∃ t ∈ squareWaits.steps halfMoved, t.Changes ⟨0⟩) ∧
      Command.run .endFrame (squareWaits.afterAll halfMoved) = .ok () s' ∧
      (s'.cache.surface.shape? ⟨0⟩).isSome = true ∧ ⟨0⟩ ∉ s'.cache.touched) ∧
    ∃ s', (∃ t ∈ squareWaits.steps movedAndReopened, t.Changes ⟨0⟩) ∧
      (∃ t ∈ squareWaits.steps movedAndReopened, t.command = .beginFrame ∧ t.Fails) ∧
      Command.run .endFrame (squareWaits.afterAll movedAndReopened) = .ok () s' ∧
      (s'.cache.surface.shape? ⟨0⟩).isSome = true ∧ ⟨0⟩ ∉ s'.cache.touched := by
  refine ⟨squareWaits_opened, ?_, ?_⟩
  · obtain ⟨s', hclose, hlive, huntouched⟩ := halfMoved_closes
    exact ⟨s', ⟨_, List.mem_cons_self, squareWaits_changes (Or.inl rfl)⟩, hclose, hlive, huntouched⟩
  · obtain ⟨s', hclose, hlive, huntouched⟩ := @closes_untouched movedAndReopened (by decide +kernel)
    have hfails : (⟨stateAfter (Command.run (.rect ⟨2.0, 0.0, 1.0, 1.0⟩)) squareWaits, .beginFrame⟩ :
        Step Unit Recorder).Fails :=
      Step.fails_of_drawing rfl (by decide +kernel) (by decide +kernel)
    exact ⟨s', ⟨_, List.mem_cons_self, squareWaits_changes (Or.inr rfl)⟩,
      ⟨_, List.mem_cons_of_mem _ List.mem_cons_self, rfl, hfails⟩, hclose, hlive, huntouched⟩

end Context

end Redraw
