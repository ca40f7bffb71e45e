import Redraw.Surface.Basic

namespace Redraw

variable {ε σ α β : Type}

/-! ### One step after another -/

section Bind

variable {step : EStateM ε σ α} {next : α → EStateM ε σ β} {s s' : σ} {a : α} {e : ε}

theorem bind_of_ok (h : step s = .ok a s') : (step >>= next) s = next a s' := by
  show EStateM.bind step next s = next a s'
  unfold EStateM.bind
  rw [h]

theorem bind_of_error (h : step s = .error e s') : (step >>= next) s = .error e s' := by
  show EStateM.bind step next s = .error e s'
  unfold EStateM.bind
  rw [h]

theorem bind_of_eq {step' : EStateM ε σ α} {t : σ} (h : step s = step' t) :
    (step >>= next) s = (step' >>= next) t := by
  show EStateM.bind step next s = EStateM.bind step' next t
  unfold EStateM.bind
  rw [h]

theorem ok_of_bind {b : β} (h : (step >>= next) s = .ok b s') :
    ∃ a s₁, step s = .ok a s₁ ∧ next a s₁ = .ok b s' := by
  cases hrun : step s with
  | ok a s₁ =>
    rw [bind_of_ok hrun] at h
    exact ⟨a, s₁, rfl, h⟩
  | error e s₁ =>
    rw [bind_of_error hrun] at h
    cases h

end Bind

/-- Begun in `s`, the step answers so that `ok` holds or fails so that `fail` holds. -/
def Ends (step : EStateM ε σ α) (s : σ) (ok : α → σ → Prop) (fail : ε → σ → Prop) : Prop :=
  match step s with
  | .ok a s' => ok a s'
  | .error e s' => fail e s'

namespace Ends

variable {step : EStateM ε σ α} {s s' : σ} {ok ok' : α → σ → Prop} {fail fail' : ε → σ → Prop}

/-! ### From runs and back -/

theorem of_ok {a : α} (h : Ends step s ok fail) (hrun : step s = .ok a s') : ok a s' := by
  unfold Ends at h
  rw [hrun] at h
  exact h

theorem of_error {e : ε} (h : Ends step s ok fail) (hrun : step s = .error e s') : fail e s' := by
  unfold Ends at h
  rw [hrun] at h
  exact h

theorem intro (hok : ∀ a s', step s = .ok a s' → ok a s')
    (hfail : ∀ e s', step s = .error e s' → fail e s') : Ends step s ok fail := by
  unfold Ends
  cases hrun : step s with
  | ok a s' => exact hok a s' hrun
  | error e s' => exact hfail e s' hrun

theorem answers (h : Ends step s ok fun _ _ => False) : ∃ a s', step s = .ok a s' ∧ ok a s' := by
  cases hrun : step s with
  | ok a s' => exact ⟨a, s', rfl, h.of_ok hrun⟩
  | error e s' => exact (h.of_error hrun).elim

theorem imp (h : Ends step s ok fail) (hok : ∀ a s', ok a s' → ok' a s')
    (hfail : ∀ e s', fail e s' → fail' e s') : Ends step s ok' fail' :=
  intro (fun a s' hrun => hok a s' (h.of_ok hrun)) fun e s' hrun => hfail e s' (h.of_error hrun)

theorem imp_ok (h : Ends step s ok fail) (hok : ∀ a s', ok a s' → ok' a s') :
    Ends step s ok' fail := h.imp hok fun _ _ hfail => hfail

theorem both {p q : σ → Prop} (h : Ends step s (fun _ s' => p s') fun _ s' => p s')
    (himp : ∀ s', p s' → q s') : Ends step s (fun _ s' => q s') fun _ s' => q s' :=
  h.imp (fun _ => himp) fun _ => himp

protected theorem trivial : Ends step s (fun _ _ => True) fun _ _ => True :=
  intro (fun _ _ _ => True.intro) fun _ _ _ => True.intro

theorem of_eq {step' : EStateM ε σ α} {t : σ} (hrun : step s = step' t) (h : Ends step' t ok fail) :
    Ends step s ok fail := by
  unfold Ends at h ⊢
  rw [hrun]
  exact h

protected theorem and (h : Ends step s ok fail) (h' : Ends step s ok' fail') :
    Ends step s (fun a s' => ok a s' ∧ ok' a s') fun e s' => fail e s' ∧ fail' e s' :=
  intro (fun _ _ hrun => ⟨h.of_ok hrun, h'.of_ok hrun⟩)
    fun _ _ hrun => ⟨h.of_error hrun, h'.of_error hrun⟩

/-! ### The steps that programs are made of -/

protected theorem pure {a : α} (h : ok a s) : Ends (pure a : EStateM ε σ α) s ok fail := h

protected theorem throw {e : ε} (h : fail e s) : Ends (throw e : EStateM ε σ α) s ok fail := h

protected theorem get {ok : σ → σ → Prop} (h : ok s s) :
    Ends (get : EStateM ε σ σ) s ok fail := h

protected theorem modify {f : σ → σ} {ok : Unit → σ → Prop} (h : ok () (f s)) :
    Ends (modify f : EStateM ε σ Unit) s ok fail := h

theorem bind {next : α → EStateM ε σ β} {ok : β → σ → Prop}
    (h : Ends step s (fun a s' => Ends (next a) s' ok fail) fail) :
    Ends (step >>= next) s ok fail := by
  cases hrun : step s with
  | ok a s' => exact of_eq (bind_of_ok hrun) (h.of_ok hrun)
  | error e s' =>
    unfold Ends
    rw [bind_of_error hrun]
    exact h.of_error hrun

/-- What is known of the answer of the first step is what the second begins with. -/
theorem seq {next : α → EStateM ε σ β} {mid : α → σ → Prop} {ok : β → σ → Prop}
    (h : Ends step s mid fail) (hnext : ∀ a s', mid a s' → Ends (next a) s' ok fail) :
    Ends (step >>= next) s ok fail := bind (h.imp_ok hnext)

theorem map {f : α → β} {ok : β → σ → Prop} (h : Ends step s (fun a s' => ok (f a) s') fail) :
    Ends (f <$> step) s ok fail := by
  have hmap : (f <$> step) s = EStateM.map f step s := rfl
  unfold EStateM.map at hmap
  unfold Ends at h ⊢
  rw [hmap]
  cases hrun : step s with
  | ok a s' =>
    rw [hrun] at h
    exact h
  | error e s' =>
    rw [hrun] at h
    exact h

end Ends

/-! ### Going on after a failure -/

def stateAfter (step : EStateM ε σ α) (s : σ) : σ :=
  match step s with
  | .ok _ s' => s'
  | .error _ s' => s'

theorem Ends.stateAfter {step : EStateM ε σ α} {s : σ} {p : σ → Prop}
    (h : Ends step s (fun _ s' => p s') fun _ s' => p s') : p (stateAfter step s) := by
  unfold Ends at h
  unfold Redraw.stateAfter
  cases hrun : step s <;> simp only [hrun] at h ⊢ <;> exact h

theorem Ends.outcome {step : EStateM ε σ α} {s : σ} {ok : α → σ → Prop} {fail : ε → σ → Prop}
    (h : Ends step s ok fail) :
    (∃ a, step s = .ok a (Redraw.stateAfter step s) ∧ ok a (Redraw.stateAfter step s)) ∨
      ∃ e, step s = .error e (Redraw.stateAfter step s) ∧ fail e (Redraw.stateAfter step s) := by
  unfold Redraw.stateAfter
  cases hrun : step s with
  | ok a s' => exact Or.inl ⟨a, rfl, h.of_ok hrun⟩
  | error e s' => exact Or.inr ⟨e, rfl, h.of_error hrun⟩

/-! ### Runs that are computed -/

/-- Runs a step and looks at what it answers; a step that fails does not pass. -/
def passes (step : EStateM ε σ α) (s : σ) (check : α → σ → Bool) : Bool :=
  match step s with
  | .ok a s' => check a s'
  | .error _ _ => false

theorem ok_of_passes {step : EStateM ε σ α} {s : σ} {check : α → σ → Bool}
    (h : passes step s check = true) :
    ∃ a, step s = .ok a (stateAfter step s) ∧ check a (stateAfter step s) = true := by
  unfold passes at h
  unfold stateAfter
  cases hrun : step s with
  | ok a s' =>
    rw [hrun] at h
    exact ⟨a, rfl, h⟩
  | error e s' =>
    rw [hrun] at h
    cases h

/-! ### Properties that steps keep -/

/-- However the step ends, the state still has the property. -/
def Keeps (P : σ → Prop) (step : EStateM ε σ α) : Prop :=
  ∀ s, P s → Ends step s (fun _ s' => P s') fun _ s' => P s'

namespace Keeps

variable {P : σ → Prop} {step : EStateM ε σ α}

protected theorem pure (a : α) : Keeps P (pure a : EStateM ε σ α) := fun _ h => Ends.pure h

protected theorem throw (e : ε) : Keeps P (throw e : EStateM ε σ α) := fun _ h => Ends.throw h

protected theorem get : Keeps P (get : EStateM ε σ σ) := fun _ h => Ends.get h

protected theorem modify {f : σ → σ} (hf : ∀ s, P s → P (f s)) :
    Keeps P (modify f : EStateM ε σ Unit) := fun s h => Ends.modify (hf s h)

protected theorem bind {next : α → EStateM ε σ β} (h : Keeps P step) (hnext : ∀ a, Keeps P (next a)) :
    Keeps P (step >>= next) := by
  intro s hs
  exact Ends.seq (h s hs) hnext

end Keeps

/-! ### Errors that steps raise -/

/-- Every error of the step has the property, in whatever state it is begun. -/
def Raises (E : ε → Prop) (step : EStateM ε σ α) : Prop :=
  ∀ s, Ends step s (fun _ _ => True) fun e _ => E e

namespace Raises

variable {E : ε → Prop} {step : EStateM ε σ α}

protected theorem pure (a : α) : Raises E (pure a : EStateM ε σ α) := fun _ => Ends.pure trivial

protected theorem throw {e : ε} (h : E e) : Raises E (throw e : EStateM ε σ α) := fun _ =>
  Ends.throw h

protected theorem modify (f : σ → σ) : Raises E (modify f : EStateM ε σ Unit) := fun _ =>
  Ends.modify trivial

protected theorem bind {next : α → EStateM ε σ β} (h : Raises E step)
    (hnext : ∀ a, Raises E (next a)) : Raises E (step >>= next) := by
  intro s
  exact Ends.seq (h s) fun a s' _ => hnext a s'

end Raises

/-! ### What steps do -/

/-- What a step may do to a state when it is answered and what when it fails. Answered steps make up one
step, and so do answered steps with a failed one after them. -/
structure Effect (σ : Type) where
  ok : σ → σ → Prop
  fail : σ → σ → Prop
  refl : ∀ s, ok s s
  refuse : ∀ s, fail s s
  trans : ∀ {s s₁ s₂}, ok s s₁ → ok s₁ s₂ → ok s s₂
  stop : ∀ {s s₁ s₂}, ok s s₁ → fail s₁ s₂ → fail s s₂

namespace Effect

/-- The step does no more than the effect allows, in whatever state it is begun. -/
def Allows (E : Effect σ) (step : EStateM ε σ α) : Prop :=
  ∀ s, Ends step s (fun _ s' => E.ok s s') fun _ s' => E.fail s s'

def keeping (P : σ → Prop) : Effect σ where
  ok s s' := P s → P s'
  fail s s' := P s → P s'
  refl _ := id
  refuse _ := id
  trans h h' hs := h' (h hs)
  stop h h' hs := h' (h hs)

theorem keeping_allows_iff {P : σ → Prop} {step : EStateM ε σ α} :
    (keeping P).Allows step ↔ Keeps P step := by
  constructor
  · intro h s hs
    exact (h s).imp (fun _ _ hkeeps => hkeeps hs) fun _ _ hkeeps => hkeeps hs
  · intro h s
    exact Ends.intro (fun _ _ hrun hs => (h s hs).of_ok hrun) fun _ _ hrun hs => (h s hs).of_error hrun

def on {τ : Type} (E : Effect σ) (part : τ → σ) : Effect τ where
  ok t t' := E.ok (part t) (part t')
  fail t t' := E.fail (part t) (part t')
  refl t := E.refl (part t)
  refuse t := E.refuse (part t)
  trans := E.trans
  stop := E.stop

variable {E : Effect σ} {step : EStateM ε σ α}

namespace Allows

protected theorem pure (a : α) : E.Allows (pure a : EStateM ε σ α) := fun s => Ends.pure (E.refl s)

protected theorem throw (e : ε) : E.Allows (throw e : EStateM ε σ α) := fun s =>
  Ends.throw (E.refuse s)

protected theorem get : E.Allows (get : EStateM ε σ σ) := fun s => Ends.get (E.refl s)

protected theorem modify {f : σ → σ} (hf : ∀ s, E.ok s (f s)) :
    E.Allows (modify f : EStateM ε σ Unit) := fun s => Ends.modify (hf s)

protected theorem bind {next : α → EStateM ε σ β} (h : E.Allows step)
    (hnext : ∀ a, E.Allows (next a)) : E.Allows (step >>= next) := by
  intro s
  refine Ends.seq (h s) ?_
  intro a s₁ hok
  exact (hnext a s₁).imp (fun _ _ hok' => E.trans hok hok') fun _ _ hfail => E.stop hok hfail

end Allows

end Effect

end Redraw
