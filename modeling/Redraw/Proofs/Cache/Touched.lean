import Redraw.Proofs.Cache.Frame
import Redraw.Proofs.Cache.Phase

namespace Redraw

open CachedShape

namespace Cache

variable {σ : Type}

/-! ### Steps that are not about it -/

theorem aside_touched (touched : Array Handle) :
    Aside fun c : Cache σ => c.touched = touched := fun _ _ _ _ h => h

theorem flush_keepsTouched [Surface σ] (touched : Array Handle) :
    Keeps (fun c : Cache σ => c.touched = touched) flush := by
  intro c hc
  refine flush_rule (fun _ => hc) fun _ journal => ?_
  exact releasePrevious_keeps (aside_touched touched) { c with phase := .idle, journal := journal } hc

variable [Surface σ] [Recording σ] {c c' c'' : Cache σ} {g : Geometry} {s : Style} {handle k : Handle}

/-! ### Updates that change nothing -/

/-- A step that tells that nothing was changed has changed no shape. -/
def Honest (step : CacheM σ Bool) : Prop :=
  ∀ c, Ends step c (fun changed c' => changed = false → c'.table = c.table) fun _ _ => True

theorem honest_of_writes {α β : Type} (write : CacheM σ α) (later : α → CacheM σ β) :
    Honest (write >>= fun a => later a >>= fun _ => pure true) := by
  intro c
  exact Ends.seq Ends.trivial fun _ _ _ => Ends.seq Ends.trivial fun _ _ _ => Ends.pure nofun

theorem applyEntries_honest (handle : Handle) (entries : List (StyleKey × StyleValue)) :
    Honest (applyEntries handle entries : CacheM σ Bool) := by
  induction entries with
  | nil => exact fun c => Ends.pure fun _ => rfl
  | cons entry rest ih =>
    intro c
    unfold applyEntries
    refine Ends.bind ((call_ends (Recording.style handle entry.1) c).imp ?_ fun _ _ _ => trivial)
    rintro held c₁ ⟨_, hread⟩
    have hsame : c₁.table = c.table := (Recorder.style_ok hread).1
    rw [← hsame]
    split
    · exact ih c₁
    · exact honest_of_writes _ _ c₁

theorem applyFields_honest (handle : Handle) (current wanted : Rect) (fields : List RectField) :
    Honest (applyFields handle current wanted fields : CacheM σ Bool) := by
  induction fields with
  | nil => exact fun c => Ends.pure fun _ => rfl
  | cons field rest ih =>
    intro c
    unfold applyFields
    split
    · exact ih c
    · exact honest_of_writes _ _ c

theorem updateRect_honest (handle : Handle) (wanted : Rect) (s : Style) :
    Honest (updateRect handle wanted s : CacheM σ Bool) := by
  intro c
  unfold updateRect
  refine Ends.bind ((call_ends (Recording.geometry handle) c).imp ?_ fun _ _ _ => trivial)
  intro held c₁ ⟨_, hread⟩
  cases held with
  | ellipse => exact Ends.throw trivial
  | polygon => exact Ends.throw trivial
  | rect current =>
    refine Ends.seq (applyFields_honest handle current wanted RectField.all c₁) ?_
    intro moved c₂ hmoved
    refine Ends.seq (applyEntries_honest handle s.entries c₂) ?_
    intro restyled c₃ hrestyled
    refine Ends.pure fun hfalse => ?_
    obtain ⟨hmoved', hrestyled'⟩ := Bool.or_eq_false_iff.mp hfalse
    exact ((hrestyled hrestyled').trans (hmoved hmoved')).trans (Recorder.geometry_ok hread).1

theorem update_honest (handle : Handle) (g : Geometry) (s : Style) :
    Honest (update handle g s : CacheM σ Bool) := by
  cases g with
  | rect wanted => exact updateRect_honest handle wanted s
  | ellipse => exact honest_of_writes _ _
  | polygon => exact honest_of_writes _ _

/-! ### Requests -/

/-- An answered request makes its shape one to be redrawn, unless it has changed nothing at all. -/
theorem add_touches (c : Cache σ) :
    Ends (add g s) c
      (fun handle c' => c'.touched = c.touched.push handle ∨
        c'.touched = c.touched ∧ c'.table = c.table)
      fun _ c' => c'.touched = c.touched := by
  have haside := aside_touched (σ := σ) c.touched
  refine add_rule (fun _ => rfl) ?_ ?_
  · intro _ entry rest _ _
    have hkeeps := update_keeps haside entry.handle g s { c with previous := some rest } rfl
    refine (hkeeps.and (update_honest entry.handle g s _)).imp ?_ fun _ _ h => h.1
    intro changed c₁ ⟨htouched, htable⟩
    rw [enlist_touched, htouched]
    cases changed with
    | true => exact Or.inl (if_pos rfl)
    | false => exact Or.inr ⟨if_neg nofun, htable rfl⟩
  · intro _ _ journal
    refine (releasePrevious_keeps haside { c with journal := journal } rfl).imp_ok ?_
    intro _ c₁ htouched₁
    refine (onSurface_keeps haside _ c₁ htouched₁).imp_ok ?_
    intro handle c₂ htouched₂
    rw [enlist_touched, htouched₂]
    exact Or.inl (if_pos rfl)

theorem Owning.added_not_active (h : Owning c') (hadded : Added c g s handle c') :
    handle ∉ c.activeHandles := by
  have hnodup := h.owns.nodup
  unfold owned at hnodup
  rw [hadded.active_eq, Array.toList_push, handles_append, handles_append] at hnodup
  have hactive := (List.nodup_append.mp hnodup).1
  intro hmem
  exact (List.nodup_append.mp hactive).2.2 handle hmem handle List.mem_cons_self rfl

theorem Added.eq_of_changed {shape : StoredShape} (h : Added c g s handle c')
    (hafter : c'.table.shape? k = some shape) (hbefore : c.table.shape? k ≠ some shape) :
    k = handle := by
  refine Decidable.byContradiction fun hne => hbefore ?_
  cases h with
  | reused _ _ _ _ _ _ _ _ _ _ _ _ hwritten _ => rwa [hwritten.elsewhere hne] at hafter
  | made mid hreleased _ _ _ _ _ hcreated =>
    rw [hcreated.elsewhere hne] at hafter
    exact hreleased.table.found hafter

/-! ### One request after another -/

/-- What requests have done, of which the last may have failed: the shapes of this frame stay and are left
alone, and those of the new ones that were made or changed are to be redrawn. -/
structure Drawn (c c' : Cache σ) : Prop where
  grows : ∀ k ∈ c.activeHandles, k ∈ c'.activeHandles
  kept : ∀ k ∈ c.activeHandles, c'.table.shape? k = c.table.shape? k
  recalled : ∀ k ∈ c.touched, k ∈ c'.touched
  fresh : ∀ k ∈ c'.touched, k ∈ c.touched ∨ k ∉ c.activeHandles ∧ k ∈ c'.activeHandles
  noted : ∀ k ∈ c'.activeHandles, ∀ shape, c'.table.shape? k = some shape →
    c.table.shape? k ≠ some shape → k ∈ c'.touched
  closed : c.isDrawing = false → c'.isDrawing = false ∧ c'.active = c.active

/-- All the requests were answered: whatever was made or changed is drawn in this frame. -/
structure Answered (c c' : Cache σ) : Prop extends Drawn c c' where
  drawn : ∀ k shape, c'.table.shape? k = some shape → c.table.shape? k ≠ some shape →
    k ∈ c'.activeHandles

theorem Drawn.of_same (hactive : c'.active = c.active) (htouched : c'.touched = c.touched)
    (hkept : ∀ k ∈ c.activeHandles, c'.table.shape? k = c.table.shape? k)
    (hidle : c.isDrawing = false → c'.isDrawing = false) : Drawn c c' := by
  have hhandles : c'.activeHandles = c.activeHandles := by
    unfold activeHandles
    rw [hactive]
  refine ⟨?_, hkept, ?_, ?_, ?_, fun h => ⟨hidle h, hactive⟩⟩
  · intro k hk
    rwa [hhandles]
  · intro k hk
    rwa [htouched]
  · intro k hk
    rw [htouched] at hk
    exact Or.inl hk
  · intro k hk shape hafter hbefore
    rw [hhandles] at hk
    rw [hkept k hk] at hafter
    exact absurd hafter hbefore

theorem Answered.refl (c : Cache σ) : Answered c c :=
  ⟨.of_same rfl rfl (fun _ _ => rfl) id, fun _ _ h h' => absurd h h'⟩

theorem Answered.followed (h : Answered c c') (h' : Drawn c' c'') : Drawn c c'' := by
  refine ⟨fun k hk => h'.grows k (h.grows k hk), ?_, fun k hk => h'.recalled k (h.recalled k hk),
    ?_, ?_, ?_⟩
  · intro k hk
    rw [h'.kept k (h.grows k hk), h.kept k hk]
  · intro k hk
    rcases h'.fresh k hk with hold | ⟨hnot, hactive⟩
    · rcases h.fresh k hold with hold | ⟨hnot, hactive⟩
      · exact Or.inl hold
      · exact Or.inr ⟨hnot, h'.grows k hactive⟩
    · exact Or.inr ⟨fun hk => hnot (h.grows k hk), hactive⟩
  · intro k hk shape hafter hbefore
    by_cases hmid : c'.table.shape? k = some shape
    · exact h'.recalled k (h.noted k (h.drawn k shape hmid hbefore) shape hmid hbefore)
    · exact h'.noted k hk shape hafter hmid
  · intro hidle
    obtain ⟨hidle', hactive⟩ := h.closed hidle
    obtain ⟨hidle'', hactive'⟩ := h'.closed hidle'
    exact ⟨hidle'', hactive'.trans hactive⟩

theorem Answered.trans (h : Answered c c') (h' : Answered c' c'') : Answered c c'' := by
  refine ⟨h.followed h'.toDrawn, ?_⟩
  intro k shape hafter hbefore
  by_cases hmid : c'.table.shape? k = some shape
  · exact h'.grows k (h.drawn k shape hmid hbefore)
  · exact h'.drawn k shape hafter hmid

/-- The effect of requests on a cache that alone writes to its surface. -/
def drawing : Effect (Cache σ) where
  ok c c' := Owning c → Owning c' ∧ Answered c c'
  fail c c' := Owning c → Owning c' ∧ Drawn c c'
  refl c h := ⟨h, .refl c⟩
  refuse c h := ⟨h, (Answered.refl c).toDrawn⟩
  trans h h' howning :=
    have ⟨howning', hanswered⟩ := h howning
    have ⟨howning'', hanswered'⟩ := h' howning'
    ⟨howning'', hanswered.trans hanswered'⟩
  stop h h' howning :=
    have ⟨howning', hanswered⟩ := h howning
    have ⟨howning'', hdrawn⟩ := h' howning'
    ⟨howning'', hanswered.followed hdrawn⟩

theorem Owning.answered (h : Owning c) (h' : Owning c') (hdrawing : c.isDrawing = true)
    (hadded : Added c g s handle c')
    (htouches : c'.touched = c.touched.push handle ∨ c'.touched = c.touched ∧ c'.table = c.table) :
    Answered c c' := by
  have hactive : c'.activeHandles = c.activeHandles ++ [handle] := by
    show handles c'.active.toList = _
    rw [hadded.active_eq, Array.toList_push, handles_append]
    rfl
  have hhandle : handle ∈ c'.activeHandles := by
    rw [hactive]
    exact List.mem_append_right _ List.mem_cons_self
  refine ⟨⟨?_, fun k hk => h.added_keeps hadded hk, ?_, ?_, ?_, ?_⟩, ?_⟩
  · intro k hk
    rw [hactive]
    exact List.mem_append_left _ hk
  · intro k hk
    rcases htouches with htouched | ⟨htouched, _⟩
    · rw [htouched]
      exact Array.mem_push_of_mem _ hk
    · rwa [htouched]
  · intro k hk
    rcases htouches with htouched | ⟨htouched, _⟩
    · rw [htouched] at hk
      rcases Array.mem_push.mp hk with hold | rfl
      · exact Or.inl hold
      · exact Or.inr ⟨h'.added_not_active hadded, hhandle⟩
    · rw [htouched] at hk
      exact Or.inl hk
  · intro k _ shape hafter hbefore
    obtain rfl := hadded.eq_of_changed hafter hbefore
    rcases htouches with htouched | ⟨_, htable⟩
    · rw [htouched]
      exact Array.mem_push_self
    · rw [htable] at hafter
      exact absurd hafter hbefore
  · intro hidle
    rw [hdrawing] at hidle
    cases hidle
  · intro k shape hafter hbefore
    obtain rfl := hadded.eq_of_changed hafter hbefore
    exact hhandle

theorem drawing_allows_add (g : Geometry) (s : Style) :
    drawing.Allows (add g s : CacheM σ Handle) := by
  intro c
  apply Ends.intro
  · intro handle c' hrun howning
    obtain ⟨hdrawing, hadded⟩ := (add_ends howning).of_ok hrun
    have howning' := howning.added hdrawing hadded
    exact ⟨howning', howning.answered howning' hdrawing hadded ((add_touches c).of_ok hrun)⟩
  · intro e c' hrun howning
    have hrefused := (add_ends howning).of_error hrun
    exact ⟨howning.refused hrefused, .of_same hrefused.active_eq
      ((add_touches c).of_error hrun) (fun k hk => howning.refused_keeps hrefused hk)
      hrefused.isDrawing_eq.trans⟩

/-! ### The end of a frame -/

theorem drawing_allows_flush : drawing.Allows (flush : CacheM σ Unit) := by
  intro c
  apply Ends.intro
  · intro _ c' hrun howning
    have htouched := (flush_keepsTouched c.touched c rfl).of_ok hrun
    rcases (flush_ends howning).of_ok hrun with ⟨_, rfl⟩ | ⟨hdrawing, hreleased⟩
    · exact ⟨howning, .refl _⟩
    · refine ⟨hreleased.owning rfl howning.owns howning.asked, .of_same hreleased.active htouched
        (fun k hk => howning.removed_keeps hk hreleased.table) ?_, ?_⟩
      · intro hidle
        rw [hdrawing] at hidle
        cases hidle
      · exact fun k shape hafter hbefore => absurd (hreleased.table.found hafter) hbefore
  · intro e c' hrun howning
    exact ((flush_ends howning).of_error hrun).elim

end Cache

end Redraw
