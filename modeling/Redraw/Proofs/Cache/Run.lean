import Redraw.Proofs.Cache.Request

namespace Redraw

open CachedShape

namespace Cache

variable {σ : Type} [Surface σ]

def Op.after (op : Op) (c : Cache σ) : Cache σ :=
  match op.run c with
  | .ok _ c' => c'
  | .error _ c' => c'

def runAll (ops : List Op) (c : Cache σ) : Cache σ := ops.foldl (fun c op => op.after c) c

variable [Recording σ] {c c' : Cache σ}

/-! ### One operation -/

theorem Owning.beginFrame (h : Owning c) : Owning { c with touched := #[] } :=
  ⟨h.owns, h.asked, h.yields, h.idle⟩

theorem Owning.clear (h : Owning c) (hidle : c.isDrawing = false) : Owning c.opened := by
  refine ⟨?_, h.asked, h.yields, ?_⟩
  · have howns := h.owns
    unfold owned at howns
    rw [h.idle hidle, List.append_nil] at howns
    exact howns
  · intro hclosed
    cases hclosed

theorem flush_ends (h : Owning c) :
    Ends flush c
      (fun _ c' => c.isDrawing = false ∧ c' = c ∨ c.isDrawing = true ∧
        Released { c with previous := none, phase := .idle } c' (handles c.pending).reverse)
      fun _ _ => False := by
  refine flush_rule (fun hidle => Or.inl ⟨hidle, rfl⟩) fun hdrawing journal => ?_
  refine (releasePrevious_ends (c := { c with phase := .idle }) h.owns h.yields journal).imp_ok ?_
  intro _ c' hreleased
  exact Or.inr ⟨hdrawing, hreleased⟩

theorem teardown_ends (h : Owning c) :
    Ends teardown c
      (fun _ c' => Owning c' ∧ c'.owned = [] ∧ c'.isDrawing = false ∧
        c'.table.removed = handles c.owned ++ c.table.removed)
      fun _ _ => False := by
  unfold teardown
  refine Ends.seq (releasePrevious_ends h.owns h.yields c.journal) ?_
  intro _ c₁ hreleased
  have h₁ := h.release hreleased
  have howned₁ : c₁.owned = [] ++ c₁.active.toList := by
    unfold owned
    rw [pending_of_none hreleased.previous]
    exact List.append_nil _
  have howns₁ := h₁.owns
  rw [howned₁] at howns₁
  refine Ends.bind (Ends.get (Ends.bind (Ends.modify (Ends.bind ?_))))
  refine (removeNewest_ends (c := { c₁ with active := #[] }) howns₁ h₁.yields).imp ?_
    fun _ _ h => h
  intro _ c₂ hreleased₂
  have h₂ : Owning c₂ := hreleased₂.owning hreleased.previous howns₁ h₁.asked
  have hpending : c₂.pending = [] :=
    pending_of_none (hreleased₂.previous.trans hreleased.previous)
  have howned₂ : c₂.owned = [] := by
    unfold owned
    rw [hpending, hreleased₂.active]
    rfl
  refine Ends.modify ⟨⟨h₂.owns, h₂.asked, h₂.yields, fun _ => hpending⟩, howned₂, rfl, ?_⟩
  show c₂.table.removed = handles c.owned ++ c.table.removed
  have hlog₁ : c₁.table.removed = _ ++ c.table.removed := hreleased.table.removed
  have hlog₂ : c₂.table.removed = _ ++ c₁.table.removed := hreleased₂.table.removed
  rw [hlog₂, hlog₁, List.reverse_reverse, List.reverse_reverse, hreleased.active]
  unfold owned
  rw [handles_append, List.append_assoc]

theorem Op.run_ends (h : Owning c) (op : Op) :
    Ends op.run c (fun _ c' => Owning c') fun _ c' => Owning c' := by
  cases op with
  | beginFrame => exact Ends.bind (Ends.modify (Ends.pure h.beginFrame))
  | clear =>
    refine Ends.bind ((clear_ends c).imp ?_ ?_)
    · intro _ c' hsome
      obtain ⟨hidle, rfl⟩ := hsome
      exact Ends.pure (h.clear hidle)
    · intro _ c' hsome
      obtain ⟨_, rfl⟩ := hsome
      exact h
  | flush =>
    refine Ends.bind ((flush_ends h).imp ?_ fun _ _ h => h.elim)
    intro _ c' hcases
    rcases hcases with ⟨_, rfl⟩ | ⟨_, hreleased⟩
    · exact Ends.pure h
    · exact Ends.pure (hreleased.owning rfl h.owns h.asked)
  | teardown =>
    refine Ends.bind ((teardown_ends h).imp ?_ fun _ _ h => h.elim)
    intro _ c' h'
    exact Ends.pure h'.1
  | add g s =>
    refine Ends.map ((add_ends h).imp ?_ ?_)
    · intro _ c' ⟨hdrawing, hadded⟩
      exact h.added hdrawing hadded
    · intro _ c' hrefused
      exact h.refused hrefused

theorem Owning.after (h : Owning c) (op : Op) : Owning (op.after c) := by
  have hends := Op.run_ends h op
  unfold Op.after
  split
  · next hrun => exact hends.of_ok hrun
  · next hrun => exact hends.of_error hrun

/-! ### Any run -/

theorem Owning.runAll (h : Owning c) (ops : List Op) : Owning (runAll ops c) := by
  induction ops generalizing c with
  | nil => exact h
  | cons op rest ih => exact ih (h.after op)

theorem Owning.start {surface : σ} (hyields : Recording.view.Yields surface)
    (hasked : Recording.view.asked surface = [])
    (hremoved : (Recording.view.table surface).removed = [])
    (hempty : ∀ k, (Recording.view.table surface).shape? k = none) :
    Owning { surface := surface } :=
  ⟨Owns.nil hempty hremoved, hasked.trans hremoved.symm, hyields, fun _ => rfl⟩

def onEmpty (supported : Option (List StyleKey)) : Cache Recorder :=
  { surface := { supported := supported } }

theorem shape?_onEmpty (supported : Option (List StyleKey)) (k : Handle) :
    (onEmpty supported).table.shape? k = none := Std.TreeMap.getElem?_emptyc

theorem owning_onEmpty (supported : Option (List StyleKey)) : Owning (onEmpty supported) :=
  Owning.start trivial rfl rfl (shape?_onEmpty supported)

/-! ### What a cache owns -/

/-- The books of a cache on a probed recorder are right. -/
structure Accounted (c : Cache (Probe Recorder)) : Prop where
  distinct : (c.owned.map CachedShape.handle).Nodup
  live : ∀ handle, handle ∈ c.owned.map CachedShape.handle ↔
    (c.surface.inner.shape? handle).isSome = true
  kinds : ∀ entry, entry ∈ c.owned → ∃ shape,
    c.surface.inner.shape? entry.handle = some shape ∧
      (entry.kind == shape.geometry.kind) = true
  removed_once : c.surface.removalCalls.Nodup
  idle : c.isDrawing = false → c.active.size = c.surface.inner.liveCount

theorem Owning.accounted {c : Cache (Probe Recorder)} (h : Owning c) : Accounted c := by
  refine ⟨h.owns.nodup, h.owns.mem_iff, ?_, ?_, ?_⟩
  · intro entry hentry
    obtain ⟨shape, hshape, hkind⟩ := h.owns.holds entry hentry
    exact ⟨shape, hshape, ShapeKind.beq_symm hkind⟩
  · have hasked : c.surface.removalCalls = c.table.removed := h.asked
    rw [hasked]
    exact h.owns.once
  · intro hidle
    have howned : c.owned = c.active.toList := by
      unfold owned
      rw [h.idle hidle, List.append_nil]
    have hcount := Recorder.liveCount_eq c.table
    rw [h.owns.liveHandles_eq, howned] at hcount
    exact (hcount.trans (List.length_map _)).symm

/-- A cache that alone writes to its surface always has its books right, whatever calls other than
removals the surface refuses. -/
theorem accounted_runAll (supported : Option (List StyleKey)) (refuses : SurfaceOp → Nat → Bool)
    (hremove : ∀ number, refuses .remove number = false) (ops : List Op) :
    Accounted (runAll ops
      { surface := { inner := { supported := supported }, refuses := refuses } }) := by
  refine Owning.accounted (Owning.runAll (Owning.start hremove rfl rfl ?_) ops)
  intro k
  exact Std.TreeMap.getElem?_emptyc

theorem accounted_runAll_refused_create :
    (∀ number, (fun op number => op == SurfaceOp.create && number == 1) .remove number = false) ∧
      Accounted (runAll
        [.clear, .add (.polygon [(0.0, 0.0)] true) {}, .add (.polygon [(1.0, 0.0)] true) {}, .flush]
        { surface := { inner := {}, refuses := fun op number => op == .create && number == 1 } }) :=
  ⟨fun _ => rfl, accounted_runAll none _ (fun _ => rfl) _⟩

end Cache

end Redraw
