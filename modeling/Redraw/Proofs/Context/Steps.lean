import Redraw.Proofs.Cache.Run
import Redraw.Proofs.Context.Lasting
import Redraw.Proofs.Context.Muting

namespace Redraw

variable {τ σ : Type}

structure Step (τ σ : Type) where
  before : Scene τ σ
  command : Command

abbrev Scene.cache (s : Scene τ σ) : Cache σ := s.context.cache

variable [Surface σ]

namespace Scene

/-- The scene after commands that follow one another whether or not they succeed. -/
def afterAll (s : Scene τ σ) : List Command → Scene τ σ
  | [] => s
  | command :: rest => (stateAfter command.run s).afterAll rest

def steps (s : Scene τ σ) : List Command → List (Step τ σ)
  | [] => []
  | command :: rest => ⟨s, command⟩ :: (stateAfter command.run s).steps rest

end Scene

namespace Step

def after (t : Step τ σ) : Scene τ σ := stateAfter t.command.run t.before

def Fails (t : Step τ σ) : Prop := ∃ e, t.command.run t.before = .error e t.after

def Opens (t : Step τ σ) : Prop :=
  t.command = .beginFrame ∧ t.before.context.muted = false ∧ ¬t.Fails

end Step

/-! ### Opening a frame -/

theorem Command.beginFrame_ends {s : Scene τ σ} (h : s.context.muted = false) :
    Ends (Command.run .beginFrame) s
      (fun _ s' => s.cache.isDrawing = false ∧ s'.cache = s.cache.opened)
      fun _ s' => s.cache.isDrawing = true ∧ s'.cache = { s.cache with touched := #[] } := by
  apply SceneM.onContext_ends
  refine Ends.of_eq (Context.whenHeard_of_heard h _) (Ends.bind (Context.onCache_ends ?_))
  refine Ends.modify (Context.onCache_ends ((Cache.clear_ends _).imp ?_ ?_))
  · rintro _ _ ⟨hidle, rfl⟩
    exact ⟨hidle, rfl⟩
  · rintro _ _ ⟨hdrawing, rfl⟩
    exact ⟨hdrawing, rfl⟩

namespace Step

variable {t : Step τ σ}

theorem fails_of_drawing (hcommand : t.command = .beginFrame)
    (hheard : t.before.context.muted = false) (hdrawing : t.before.cache.isDrawing = true) :
    t.Fails := by
  obtain ⟨before, command⟩ := t
  cases hcommand
  rcases (Command.beginFrame_ends hheard).outcome with ⟨_, _, hidle, _⟩ | ⟨e, hrun, _⟩
  · exact absurd (hdrawing.symm.trans hidle) nofun
  · exact ⟨e, hrun⟩

end Step

/-! ### Runs -/

namespace Scene

variable {s : Scene τ σ}

theorem afterAll_append (s : Scene τ σ) (first rest : List Command) :
    s.afterAll (first ++ rest) = (s.afterAll first).afterAll rest := by
  induction first generalizing s with
  | nil => rfl
  | cons command first ih => exact ih _

theorem lasting_afterAll {P : Context σ → Prop} (hlasting : Context.Lasting P) (h : P s.context)
    (commands : List Command) : P (s.afterAll commands).context := by
  induction commands generalizing s with
  | nil => exact h
  | cons command rest ih => exact ih (hlasting.command command s h).stateAfter

theorem steps_append (s : Scene τ σ) (first rest : List Command) :
    s.steps (first ++ rest) = s.steps first ++ (s.afterAll first).steps rest := by
  induction first generalizing s with
  | nil => rfl
  | cons command first ih => exact congrArg (⟨s, command⟩ :: ·) (ih _)

end Scene

variable [Recording σ]

theorem Cache.lasting_owning : Cache.Lasting (Cache.Owning (σ := σ)) where
  op op _ h := op.run_ends h
  note _ _ h := ⟨h.owns, h.asked, h.yields, h.idle⟩

namespace Scene

variable {s : Scene τ σ}

theorem owning_step (h : s.cache.Owning) (command : Command) :
    (stateAfter command.run s).cache.Owning :=
  ((lasting_of_cache Cache.lasting_owning).command command s h).stateAfter

theorem owning_afterAll (h : s.cache.Owning) (commands : List Command) :
    (s.afterAll commands).cache.Owning :=
  lasting_afterAll (lasting_of_cache Cache.lasting_owning) h commands

end Scene

end Redraw
