import Mathlib.Data.List.Induction
import Redraw.Proofs.Cache.Run
import Redraw.Proofs.Surface.Keeping

/-!
# One cache on two surfaces

A cache does the same on two surfaces that answer its calls alike. Of the removals only that of the
newest shape has to be answered alike, for a cache that alone writes to its surface asks for no other.
-/

namespace Redraw

/-! ### Steps that answer alike -/

/-- Begun in `x` and `y`, the steps give the same answer or fail alike, and the states after them are
related. -/
def Matches {ε σ τ α : Type} (R : σ → τ → Prop) (step : EStateM ε σ α) (step' : EStateM ε τ α)
    (x : σ) (y : τ) : Prop :=
  Ends step x (fun a x' => ∃ y', step' y = .ok a y' ∧ R x' y')
    fun e x' => ∃ y', step' y = .error e y' ∧ R x' y'

namespace Matches

variable {ε σ τ α β : Type} {R : σ → τ → Prop} {step : EStateM ε σ α} {step' : EStateM ε τ α}
  {x : σ} {y : τ}

protected theorem pure {a : α} (h : R x y) :
    Matches R (pure a : EStateM ε σ α) (pure a : EStateM ε τ α) x y := ⟨y, rfl, h⟩

protected theorem throw {e : ε} (h : R x y) :
    Matches R (throw e : EStateM ε σ α) (throw e : EStateM ε τ α) x y := ⟨y, rfl, h⟩

protected theorem modify {f : σ → σ} {f' : τ → τ} (h : R (f x) (f' y)) :
    Matches R (modify f : EStateM ε σ Unit) (modify f' : EStateM ε τ Unit) x y := ⟨f' y, rfl, h⟩

theorem get_bind {next : σ → EStateM ε σ α} {next' : τ → EStateM ε τ α}
    (h : Matches R (next x) (next' y) x y) : Matches R (get >>= next) (get >>= next') x y := h

theorem modify_bind {f : σ → σ} {f' : τ → τ} {next : Unit → EStateM ε σ α}
    {next' : Unit → EStateM ε τ α} (h : Matches R (next ()) (next' ()) (f x) (f' y)) :
    Matches R (modify f >>= next) (modify f' >>= next') x y := h

theorem bind_of {ok : α → σ → Prop} {fail : ε → σ → Prop} {next : α → EStateM ε σ β}
    {next' : α → EStateM ε τ β} (h : Matches R step step' x y) (hends : Ends step x ok fail)
    (hnext : ∀ a x' y', ok a x' → R x' y' → Matches R (next a) (next' a) x' y') :
    Matches R (step >>= next) (step' >>= next') x y := by
  apply Ends.bind
  apply Ends.intro
  · intro a x' hrun
    obtain ⟨y', hrun', hR⟩ := h.of_ok hrun
    rw [bind_of_ok hrun']
    exact hnext a x' y' (hends.of_ok hrun) hR
  · intro e x' hrun
    obtain ⟨y', hrun', hR⟩ := h.of_error hrun
    exact ⟨y', bind_of_error hrun', hR⟩

theorem bind {next : α → EStateM ε σ β} {next' : α → EStateM ε τ β}
    (h : Matches R step step' x y)
    (hnext : ∀ a x' y', R x' y' → Matches R (next a) (next' a) x' y') :
    Matches R (step >>= next) (step' >>= next') x y := by
  have hends : Ends step x (fun _ _ => True) fun _ _ => True := .trivial
  exact h.bind_of hends fun a x' y' _ hR => hnext a x' y' hR

theorem map {f : α → β} (h : Matches R step step' x y) : Matches R (f <$> step) (f <$> step') x y :=
  h.bind fun _ _ _ hR => .pure hR

end Matches

/-! ### Twins -/

/-- Related surfaces answer alike and stay related. -/
structure Twin {σ τ : Type} [Surface σ] [Recording σ] [Surface τ] (R : σ → τ → Prop) : Prop where
  create : ∀ {x y}, R x y → ∀ g s, Matches R (Surface.create g s) (Surface.create g s) x y
  geometry : ∀ {x y}, R x y → ∀ k, Matches R (Surface.geometry k) (Surface.geometry k) x y
  setGeometry : ∀ {x y}, R x y → ∀ k g,
    Matches R (Surface.setGeometry k g) (Surface.setGeometry k g) x y
  style : ∀ {x y}, R x y → ∀ k key, Matches R (Surface.style k key) (Surface.style k key) x y
  setStyle : ∀ {x y}, R x y → ∀ k key value,
    Matches R (Surface.setStyle k key value) (Surface.setStyle k key value) x y
  setField : ∀ {x y}, R x y → ∀ k field value,
    Matches R (Surface.setField k field value) (Surface.setField k field value) x y
  remove : ∀ {x y}, R x y → ∀ k, (Recording.view.table x).newest? = some k →
    Matches R (Surface.remove k) (Surface.remove k) x y

namespace Cache

open CachedShape

variable {σ τ : Type}

def onto (c : Cache σ) (surface : τ) : Cache τ :=
  ⟨surface, c.active, c.previous, c.touched, c.phase, c.journal⟩

/-- The caches differ in their surfaces only, and these are related. -/
def Paired (R : σ → τ → Prop) (c : Cache σ) (d : Cache τ) : Prop :=
  ∃ y, R c.surface y ∧ d = c.onto y

variable {R : σ → τ → Prop} {c : Cache σ} {d : Cache τ} {handle : Handle} {s : Style}

theorem Paired.modify {f : Cache σ → Cache σ} {f' : Cache τ → Cache τ} (h : Paired R c d)
    (hsurface : ∀ c, (f c).surface = c.surface) (hrest : ∀ c y, f' (c.onto y) = (f c).onto y) :
    Matches (Paired R) (modify f : CacheM σ Unit) (modify f' : CacheM τ Unit) c d := by
  obtain ⟨y, hR, rfl⟩ := h
  refine Matches.modify ⟨y, ?_, hrest c y⟩
  rw [hsurface]
  exact hR

theorem onSurface_matches {α : Type} {act : EStateM SurfaceError σ α}
    {act' : EStateM SurfaceError τ α} (h : Paired R c d)
    (hact : ∀ y, R c.surface y → Matches R act act' c.surface y) :
    Matches (Paired R) (onSurface act) (onSurface act') c d := by
  obtain ⟨y, hR, rfl⟩ := h
  have hsurface : (c.onto y).surface = y := rfl
  apply onSurface_ends
  unfold onSurface
  refine (hact y hR).imp ?_ ?_
  · intro a x' hsome
    obtain ⟨y', hrun, hR'⟩ := hsome
    refine ⟨c.onto y', ?_, y', hR', rfl⟩
    rw [hsurface, hrun]
    rfl
  · intro e x' hsome
    obtain ⟨y', hrun, hR'⟩ := hsome
    refine ⟨c.onto y', ?_, y', hR', rfl⟩
    rw [hsurface, hrun]
    rfl

theorem keepingSlot_matches {α : Type} {entry : CachedShape} {step : CacheM σ α}
    {step' : CacheM τ α} (h : Matches (Paired R) step step' c d) :
    Matches (Paired R) (keepingSlot entry step) (keepingSlot entry step') c d := by
  apply keepingSlot_ends
  unfold keepingSlot
  refine h.imp ?_ ?_
  · intro a c' ⟨d', hrun, hpaired⟩
    refine ⟨d', ?_, hpaired⟩
    rw [hrun]
  · intro e c' ⟨d', hrun, y, hR, hd⟩
    refine ⟨_, ?_, y, hR, rfl⟩
    rw [hrun, hd]
    rfl

theorem ensureDrawing_matches (h : Paired R c d) :
    Matches (Paired R) ensureDrawing ensureDrawing c d := by
  obtain ⟨y, hR, rfl⟩ := h
  unfold ensureDrawing
  apply Matches.get_bind
  show Matches (Paired R) (ite ((!c.isDrawing) = true) _ _) (ite ((!c.isDrawing) = true) _ _) _ _
  cases c.isDrawing with
  | true => exact .pure ⟨y, hR, rfl⟩
  | false => exact .throw ⟨y, hR, rfl⟩

theorem clear_matches (h : Paired R c d) : Matches (Paired R) clear clear c d := by
  obtain ⟨y, hR, rfl⟩ := h
  unfold clear
  apply Matches.get_bind
  show Matches (Paired R) (ite (c.isDrawing = true) _ _) (ite (c.isDrawing = true) _ _) _ _
  by_cases hdrawing : c.isDrawing = true
  · rw [if_pos hdrawing, if_pos hdrawing]
    exact .throw ⟨y, hR, rfl⟩
  · rw [if_neg hdrawing, if_neg hdrawing]
    exact .modify ⟨y, hR, rfl⟩

variable [Surface σ] [Recording σ] [Surface τ]

/-! ### Steps without removals -/

theorem applyEntries_matches (htwin : Twin R) (entries : List (StyleKey × StyleValue))
    (h : Paired R c d) :
    Matches (Paired R) (applyEntries handle entries) (applyEntries handle entries) c d := by
  induction entries generalizing c d with
  | nil => exact .pure h
  | cons entry rest ih =>
    obtain ⟨key, value⟩ := entry
    unfold applyEntries
    refine (onSurface_matches h fun y hR => htwin.style hR handle key).bind ?_
    intro held c₁ d₁ h₁
    by_cases hheld : (held == some value) = true
    · rw [if_pos hheld, if_pos hheld]
      exact ih h₁
    · rw [if_neg hheld, if_neg hheld]
      refine (onSurface_matches h₁ fun y hR => htwin.setStyle hR handle key value).bind ?_
      intro _ c₂ d₂ h₂
      exact (ih h₂).bind fun _ _ _ h₃ => .pure h₃

theorem applyFields_matches (htwin : Twin R) (current wanted : Rect) (fields : List RectField)
    (h : Paired R c d) :
    Matches (Paired R) (applyFields handle current wanted fields)
      (applyFields handle current wanted fields) c d := by
  induction fields generalizing c d with
  | nil => exact .pure h
  | cons field rest ih =>
    unfold applyFields
    by_cases hsame : (current.get field == wanted.get field) = true
    · rw [if_pos hsame, if_pos hsame]
      exact ih h
    · rw [if_neg hsame, if_neg hsame]
      refine (onSurface_matches h fun y hR => htwin.setField hR handle field _).bind ?_
      intro _ c₁ d₁ h₁
      exact (ih h₁).bind fun _ _ _ h₂ => .pure h₂

theorem applyStyle_matches (htwin : Twin R) (h : Paired R c d) :
    Matches (Paired R) (applyStyle handle s) (applyStyle handle s) c d :=
  applyEntries_matches htwin s.entries h

theorem update_matches (htwin : Twin R) (g : Geometry) (h : Paired R c d) :
    Matches (Paired R) (update handle g s) (update handle g s) c d := by
  have hrewrite : ∀ g, Matches (Paired R)
      (onSurface (Surface.setGeometry handle g) >>= fun _ =>
        applyStyle handle s >>= fun _ => pure true)
      (onSurface (Surface.setGeometry handle g) >>= fun _ =>
        applyStyle handle s >>= fun _ => pure true) c d := by
    intro g
    refine (onSurface_matches h fun y hR => htwin.setGeometry hR handle g).bind ?_
    intro _ c₁ d₁ h₁
    exact (applyStyle_matches htwin h₁).bind fun _ _ _ h₂ => .pure h₂
  cases g with
  | ellipse => exact hrewrite _
  | polygon => exact hrewrite _
  | rect wanted =>
    show Matches (Paired R) (updateRect handle wanted s) (updateRect handle wanted s) c d
    unfold updateRect
    refine (onSurface_matches h fun y hR => htwin.geometry hR handle).bind ?_
    intro held c₁ d₁ h₁
    cases held with
    | ellipse => exact .throw h₁
    | polygon => exact .throw h₁
    | rect current =>
      refine (applyFields_matches htwin current wanted RectField.all h₁).bind ?_
      intro _ c₂ d₂ h₂
      exact (applyStyle_matches htwin h₂).bind fun _ _ _ h₃ => .pure h₃

/-! ### Removals -/

theorem newest?_of_owns {kept : List CachedShape} {last : CachedShape} {r : Recorder}
    (howns : Owns (kept ++ [last]) r) : r.newest? = some last.handle := by
  unfold Recorder.newest?
  rw [howns.liveHandles_eq, handles_append]
  exact List.getLast?_concat

theorem removeNewest_matches (htwin : Twin R) {kept given : List CachedShape}
    (howns : Owns (kept ++ given) c.table) (hyields : Recording.view.Yields c.surface)
    (h : Paired R c d) :
    Matches (Paired R) (removeAll given.reverse) (removeAll given.reverse) c d := by
  -- from the newest back; after each removal the entries before it are what is owned
  induction given using List.reverseRecOn generalizing c d with
  | nil => exact .pure h
  | append_singleton init last ih =>
    rw [← List.append_assoc] at howns
    have hlive : (c.table.shape? last.handle).isSome = true :=
      (howns.mem_iff last.handle).mp (mem_handles (List.mem_append_right _ List.mem_cons_self))
    rw [List.reverse_append]
    show Matches (Paired R) (removeAll (last :: init.reverse)) (removeAll (last :: init.reverse)) c d
    unfold removeAll
    refine (onSurface_matches h fun y hR => htwin.remove hR last.handle
      (newest?_of_owns howns)).bind_of (remove_ends hyields hlive) ?_
    intro _ c₁ d₁ hreleased h₁
    exact ih (howns.drop hreleased.table) hreleased.yields h₁

theorem releasePrevious_matches (htwin : Twin R) (howns : Owns c.owned c.table)
    (hyields : Recording.view.Yields c.surface) (h : Paired R c d) :
    Matches (Paired R) releasePrevious releasePrevious c d := by
  obtain ⟨y, hR, rfl⟩ := h
  have hreleased : Paired R { c with previous := none } { c.onto y with previous := none } :=
    ⟨y, hR, rfl⟩
  exact .get_bind (.modify_bind (removeNewest_matches htwin howns hyields hreleased))

theorem takeCached_matches (htwin : Twin R) (kind : ShapeKind) (howning : Owning c)
    (h : Paired R c d) : Matches (Paired R) (takeCached kind) (takeCached kind) c d := by
  obtain ⟨y, hR, rfl⟩ := h
  obtain ⟨surface, active, previous, touched, phase, journal⟩ := c
  unfold takeCached
  apply Matches.get_bind
  match previous with
  | none => exact .pure ⟨y, hR, rfl⟩
  | some [] => exact .modify_bind (.pure ⟨y, hR, rfl⟩)
  | some (entry :: rest) =>
    show Matches (Paired R) (ite _ _ _) (ite _ _ _) _ _
    by_cases hkind : (entry.kind == kind) = true
    · rw [if_pos hkind, if_pos hkind]
      exact .modify_bind (.pure ⟨y, hR, rfl⟩)
    · rw [if_neg hkind, if_neg hkind]
      refine .get_bind (.modify_bind (.bind ?_ fun _ _ _ h₁ => .pure h₁))
      exact releasePrevious_matches htwin howning.owns howning.yields ⟨y, hR, rfl⟩

/-! ### Operations -/

theorem add_matches (htwin : Twin R) (g : Geometry) (howning : Owning c) (h : Paired R c d) :
    Matches (Paired R) (add g s) (add g s) c d := by
  unfold add
  refine (ensureDrawing_matches h).bind_of (ensureDrawing_ends c) ?_
  intro _ c₁ d₁ hsame h₁
  rw [← hsame.2] at howning
  refine (takeCached_matches htwin g.kind howning h₁).bind ?_
  intro found c₂ d₂ h₂
  cases found with
  | none =>
    refine (onSurface_matches h₂ fun y hR => htwin.create hR g s).bind ?_
    intro handle c₃ d₃ h₃
    refine .bind (h₃.modify (fun _ => rfl) fun _ _ => rfl) ?_
    intro _ c₄ d₄ h₄
    exact .bind (h₄.modify (fun _ => rfl) fun _ _ => rfl) fun _ _ _ h₅ => .pure h₅
  | some handle =>
    refine (keepingSlot_matches (update_matches htwin g h₂)).bind ?_
    intro changed c₃ d₃ h₃
    cases changed with
    | true =>
      refine .bind (h₃.modify (fun _ => rfl) fun _ _ => rfl) ?_
      intro _ c₄ d₄ h₄
      exact .bind (h₄.modify (fun _ => rfl) fun _ _ => rfl) fun _ _ _ h₅ => .pure h₅
    | false => exact .bind (h₃.modify (fun _ => rfl) fun _ _ => rfl) fun _ _ _ h₄ => .pure h₄

theorem flush_matches (htwin : Twin R) (howning : Owning c) (h : Paired R c d) :
    Matches (Paired R) flush flush c d := by
  obtain ⟨y, hR, rfl⟩ := h
  have hrelease : ∀ journal, Matches (Paired R) releasePrevious releasePrevious
      { c with phase := .idle, journal := journal }
      { c.onto y with phase := .idle, journal := journal } := by
    intro journal
    exact releasePrevious_matches htwin howning.owns howning.yields ⟨y, hR, rfl⟩
  unfold flush
  apply Matches.get_bind
  show Matches (Paired R) (ite (c.isDrawing = true) _ _) (ite (c.isDrawing = true) _ _) _ _
  by_cases hdrawing : c.isDrawing = true
  · rw [if_pos hdrawing, if_pos hdrawing]
    refine .modify_bind (.get_bind ?_)
    show Matches (Paired R) (ite (0 < c.pending.length) _ _) (ite (0 < c.pending.length) _ _) _ _
    by_cases hleft : 0 < c.pending.length
    · rw [if_pos hleft, if_pos hleft]
      exact .modify_bind (hrelease _)
    · rw [if_neg hleft, if_neg hleft]
      exact hrelease _
  · rw [if_neg hdrawing, if_neg hdrawing]
    exact .pure ⟨y, hR, rfl⟩

theorem teardown_matches (htwin : Twin R) (howning : Owning c) (h : Paired R c d) :
    Matches (Paired R) teardown teardown c d := by
  unfold teardown
  refine (releasePrevious_matches htwin howning.owns howning.yields h).bind_of
    (releasePrevious_ends howning.owns howning.yields c.journal) ?_
  intro _ c₁ d₁ hreleased ⟨y, hR, hd₁⟩
  subst hd₁
  have howning₁ := howning.release hreleased
  have howned₁ : c₁.owned = [] ++ c₁.active.toList := by
    unfold owned pending
    rw [hreleased.previous]
    exact List.append_nil _
  have howns₁ := howning₁.owns
  rw [howned₁] at howns₁
  refine .get_bind (.modify_bind (.bind ?_ ?_))
  · exact removeNewest_matches htwin howns₁ howning₁.yields ⟨y, hR, rfl⟩
  · intro _ c₂ d₂ h₂
    exact h₂.modify (fun _ => rfl) fun _ _ => rfl

theorem Op.run_matches (htwin : Twin R) (op : Op) (howning : Owning c) (h : Paired R c d) :
    Matches (Paired R) op.run op.run c d := by
  cases op with
  | beginFrame => exact .bind (h.modify (fun _ => rfl) fun _ _ => rfl) fun _ _ _ h₁ => .pure h₁
  | clear => exact (clear_matches h).bind fun _ _ _ h₁ => .pure h₁
  | flush => exact (flush_matches htwin howning h).bind fun _ _ _ h₁ => .pure h₁
  | teardown => exact (teardown_matches htwin howning h).bind fun _ _ _ h₁ => .pure h₁
  | add g s => exact (add_matches htwin g howning h).map

theorem Paired.after (htwin : Twin R) (op : Op) (howning : Owning c) (h : Paired R c d) :
    Paired R (op.after c) (op.after d) := by
  have hmatches := op.run_matches htwin howning h
  unfold Op.after
  split
  · next hrun =>
    obtain ⟨d', hrun', h'⟩ := hmatches.of_ok hrun
    rw [hrun']
    exact h'
  · next hrun =>
    obtain ⟨d', hrun', h'⟩ := hmatches.of_error hrun
    rw [hrun']
    exact h'

/-- Whatever is done with a cache that alone writes to its surface, on a related surface it would have
been the same cache, and the surfaces are still related. -/
theorem Paired.runAll (htwin : Twin R) (ops : List Op) (howning : Owning c) (h : Paired R c d) :
    Paired R (runAll ops c) (runAll ops d) := by
  induction ops generalizing c d with
  | nil => exact h
  | cons op rest ih => exact ih (howning.after op) (h.after htwin op howning)

end Cache

/-! ### A recorder next to itself -/

namespace Recorder

variable {B : Recorder → Prop} {r r' : Recorder}

def Alongside (B : Recorder → Prop) (r r' : Recorder) : Prop := r' = r ∧ B r

theorem Alongside.same {α : Type} {act : EStateM SurfaceError Recorder α} (h : Alongside B r r')
    (hok : ∀ {a s}, act r = .ok a s → B r → B s) (herror : ∀ {e s}, act r = .error e s → s = r) :
    Matches (Alongside B) act act r r' := by
  obtain ⟨rfl, hB⟩ := h
  apply Ends.intro
  · intro a s hrun
    exact ⟨s, hrun, rfl, hok hrun hB⟩
  · intro e s hrun
    have hsame := herror hrun
    subst hsame
    exact ⟨s, hrun, rfl, hB⟩

theorem Alongside.geometry (h : Alongside B r r') (k : Handle) :
    Matches (Alongside B) (geometry k) (geometry k) r r' := by
  refine h.same ?_ geometry_error
  intro g s hrun hB
  rw [(geometry_ok hrun).1]
  exact hB

theorem Stable.twin (hstable : Stable B) : Twin (Alongside B) where
  create h _ _ := h.same hstable.create create_error
  geometry h k := h.geometry k
  setGeometry h _ _ := h.same hstable.setGeometry setGeometry_error
  style := by
    intro r r' h k key
    refine h.same ?_ style_error
    intro value s hrun hB
    rw [(style_ok hrun).1]
    exact hB
  setStyle h _ _ _ := h.same hstable.setStyle setStyle_error
  setField := by
    intro r r' h k field value
    rw [setField_eq]
    refine (h.geometry k).bind ?_
    intro g r₁ r₁' h₁
    cases g with
    | rect held => exact h₁.same hstable.setGeometry setGeometry_error
    | ellipse => exact .throw h₁
    | polygon => exact .throw h₁
  remove h _ _ := h.same hstable.remove remove_error

end Recorder

theorem Cache.Paired.self {B : Recorder → Prop} {c : Cache Recorder} (hB : B c.surface) :
    Cache.Paired (Recorder.Alongside B) c c := ⟨c.surface, ⟨rfl, hB⟩, rfl⟩

/-- What no call of the recorder breaks, a step of a cache on it does not break. -/
theorem Cache.stable_of_matches {α : Type} {B : Recorder → Prop} {step : CacheM Recorder α}
    {c d : Cache Recorder} (h : Matches (Cache.Paired (Recorder.Alongside B)) step step c d) :
    Ends step c (fun _ c' => B c'.surface) fun _ c' => B c'.surface := by
  apply h.imp
  · intro _ c' ⟨_, _, _, ⟨_, hB⟩, _⟩
    exact hB
  · intro _ c' ⟨_, _, _, ⟨_, hB⟩, _⟩
    exact hB

theorem Cache.Op.run_stable {B : Recorder → Prop} (hstable : Recorder.Stable B) (op : Cache.Op)
    {c : Cache Recorder} (howning : c.Owning) (hB : B c.surface) :
    Ends op.run c (fun _ c' => B c'.surface) fun _ c' => B c'.surface :=
  Cache.stable_of_matches (op.run_matches hstable.twin howning (.self hB))

theorem Cache.runAll_stable {B : Recorder → Prop} (hstable : Recorder.Stable B)
    (ops : List Cache.Op) {c : Cache Recorder} (howning : c.Owning) (hB : B c.surface) :
    B (runAll ops c).surface := by
  obtain ⟨_, ⟨_, hB'⟩, _⟩ := (Cache.Paired.self hB).runAll hstable.twin ops howning
  exact hB'

end Redraw
