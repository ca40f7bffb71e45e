import Redraw.Proofs.Cache.Residue
import Redraw.Proofs.Cache.Twin

namespace Redraw

open CachedShape

namespace Cache

/-! ### Requests and the shapes they meet -/

def agree (pair : CachedShape × Request) : Bool := pair.1.kind == pair.2.geometry.kind

/-- How many requests, from the first on, agree in kind with the shapes they line up with. -/
def agreeing (entries : List CachedShape) (requests : List Request) : Nat :=
  ((entries.zip requests).takeWhile agree).length

def fresh (first count : Nat) : List Handle := (List.range' first count).map Handle.mk

section Agreeing

variable {entry : CachedShape} {entries : List CachedShape} {request : Request}
  {requests : List Request}

theorem agreeing_nil_left (requests : List Request) : agreeing [] requests = 0 := rfl

theorem agreeing_nil_right (entries : List CachedShape) : agreeing entries [] = 0 := by
  unfold agreeing
  rw [List.zip_nil_right]
  rfl

theorem agreeing_cons (h : agree (entry, request) = true) :
    agreeing (entry :: entries) (request :: requests) = agreeing entries requests + 1 := by
  unfold agreeing
  rw [List.zip_cons_cons, List.takeWhile_cons_of_pos h, List.length_cons]

theorem agreeing_cons_of_not (h : ¬agree (entry, request) = true) :
    agreeing (entry :: entries) (request :: requests) = 0 := by
  unfold agreeing
  rw [List.zip_cons_cons, List.takeWhile_cons_of_neg h]
  rfl

theorem agreeing_le (entries : List CachedShape) (requests : List Request) :
    agreeing entries requests ≤ entries.length ∧ agreeing entries requests ≤ requests.length := by
  have hle := (@List.takeWhile_prefix _ (entries.zip requests) agree).length_le
  rw [List.length_zip] at hle
  unfold agreeing
  omega

theorem fresh_succ (first count : Nat) :
    fresh first (count + 1) = ⟨first⟩ :: fresh (first + 1) count := by
  unfold fresh
  rw [List.range'_succ, List.map_cons]

end Agreeing

variable {σ : Type} [Surface σ] {c c₁ c₂ : Cache σ} {request : Request} {requests : List Request}
  {now : List Claim} {handle : Handle}

/-! ### A frame as a run -/

def frameOps (requests : List Request) : List Op :=
  [.beginFrame, .clear] ++ requests.map (fun request => .add request.geometry request.style) ++ [.flush]

theorem Op.after_of_ok {op : Op} {step : CacheM σ Unit} (hop : op.run = step >>= fun _ => pure none)
    (hrun : step c = .ok () c₁) : op.after c = c₁ := by
  unfold Op.after
  rw [hop, bind_of_ok hrun]
  rfl

theorem addEach_runs (requests : List Request) :
    Ends (addEach requests) c
      (fun _ c' =>
        runAll (requests.map fun request => .add request.geometry request.style) c = c')
      fun _ _ => True := by
  induction requests generalizing c with
  | nil => exact Ends.pure rfl
  | cons request rest ih =>
    unfold addEach
    refine Ends.bind (Ends.intro ?_ fun _ _ _ => trivial)
    intro handle c₁ hrun
    have hafter : (Op.add request.geometry request.style).after c = c₁ := by
      have hmap : (Op.add request.geometry request.style).run c =
          EStateM.map some (add request.geometry request.style) c := rfl
      unfold EStateM.map at hmap
      rw [hrun] at hmap
      unfold Op.after
      rw [hmap]
    refine Ends.bind (ih.imp ?_ fun _ _ _ => trivial)
    intro now c₂ hlater
    apply Ends.pure
    show runAll _ ((Op.add request.geometry request.style).after c) = c₂
    rw [hafter]
    exact hlater

theorem drawFrame_runs (requests : List Request) :
    Ends (drawFrame requests) c (fun _ c' => runAll (frameOps requests) c = c') fun _ _ => True := by
  unfold drawFrame
  refine Ends.bind (Ends.modify (Ends.bind (Ends.intro ?_ fun _ _ _ => trivial)))
  intro _ c₁ hclear
  refine Ends.bind ((addEach_runs requests).imp ?_ fun _ _ _ => trivial)
  intro now c₂ hadds
  refine Ends.bind (Ends.intro ?_ fun _ _ _ => trivial)
  intro _ c₃ hflush
  apply Ends.pure
  unfold frameOps runAll
  rw [List.foldl_append, List.foldl_append]
  show Op.flush.after (runAll _ (Op.clear.after { c with touched := #[] })) = c₃
  rw [Op.after_of_ok rfl hclear, hadds]
  exact Op.after_of_ok rfl hflush

/-! ### One request -/

/-- A request whose kind agrees is answered with the first shape that waits. -/
theorem add_reuses {entry : CachedShape} {rest : List CachedShape}
    (hwaiting : c.previous = some (entry :: rest)) (hagree : agree (entry, request) = true) :
    Ends (add request.geometry request.style) c (fun handle _ => handle = entry.handle)
      fun _ _ => True := by
  refine add_rule (fun _ => trivial) ?_ ?_
  · intro _ entry' rest' hwaiting' _
    cases hwaiting.symm.trans hwaiting'
    exact Ends.trivial.imp_ok fun _ _ _ => rfl
  · intro _ hmissed
    exact absurd hagree (hmissed entry rest hwaiting)

variable [Recording σ]

theorem Owning.agreeing_eq_zero (h : Owning c)
    (hrun : add request.geometry request.style c = .ok handle c₁)
    (hnew : handle = ⟨c.table.nextId⟩) (later : List Request) :
    agreeing c.pending (request :: later) = 0 := by
  have hnot : handle ∉ handles c.pending := by
    intro hmem
    have howned : handle ∈ handles c.owned := by
      unfold owned
      rw [handles_append]
      exact List.mem_append_right _ hmem
    have hlt := h.owns.below handle howned
    rw [hnew] at hlt
    exact Nat.lt_irrefl _ hlt
  cases hprevious : c.previous with
  | none =>
    rw [pending_of_none hprevious]
    rfl
  | some waiting =>
    rw [pending_of_some hprevious] at hnot ⊢
    match waiting with
    | [] => rfl
    | entry :: rest =>
      apply agreeing_cons_of_not
      intro hagree
      have hreused : handle = entry.handle := (add_reuses hprevious hagree).of_ok hrun
      rw [hreused] at hnot
      exact hnot List.mem_cons_self

/-! ### All requests of a frame -/

/-- What the requests have done: as far as they agree they were answered with shapes that waited, the
others with new ones, and what they did not use is waiting still or was removed. -/
structure Continued (c : Cache σ) (requests : List Request) (now : List Claim) (c' : Cache σ) :
    Prop where
  answers : now.map Claim.handle =
    (handles c.pending).take (agreeing c.pending requests) ++
      fresh c.table.nextId (requests.length - agreeing c.pending requests)
  active : handles c'.active.toList = handles c.active.toList ++ now.map Claim.handle
  nextId : c'.table.nextId = c.table.nextId + (requests.length - agreeing c.pending requests)
  unused : handles c'.pending ++ c'.table.removed =
    (handles c.pending).drop (agreeing c.pending requests) ++ c.table.removed

theorem Continued.nil (c : Cache σ) : Continued c [] [] c := by
  have hnone := agreeing_nil_right c.pending
  refine ⟨?_, ?_, ?_, ?_⟩
  · rw [hnone]
    rfl
  · exact (List.append_nil _).symm
  · rw [hnone]
    rfl
  · rw [hnone]
    rfl

theorem Continued.reuse {entry : CachedShape} {rest : List CachedShape} {kind : ShapeKind}
    (h : Continued c₁ requests now c₂) (hwaiting : c.previous = some (entry :: rest))
    (hagree : agree (entry, request) = true) (hprevious : c₁.previous = some rest)
    (hactive : c₁.active = c.active.push ⟨kind, entry.handle⟩)
    (hnext : c₁.table.nextId = c.table.nextId) (hremoved : c₁.table.removed = c.table.removed) :
    Continued c (request :: requests) (⟨entry.handle, request.geometry, request.style⟩ :: now) c₂ := by
  obtain ⟨hanswers, hactive₂, hnext₂, hunused⟩ := h
  have hpending : c.pending = entry :: rest := pending_of_some hwaiting
  have hpending₁ : c₁.pending = rest := pending_of_some hprevious
  have hcount : agreeing c.pending (request :: requests) = agreeing rest requests + 1 := by
    rw [hpending, agreeing_cons hagree]
  rw [hpending₁, hnext] at hanswers hnext₂
  rw [hpending₁, hremoved] at hunused
  refine ⟨?_, ?_, ?_, ?_⟩
  · rw [hcount, hpending, List.length_cons, Nat.add_sub_add_right, List.map_cons, hanswers]
    rfl
  · rw [hactive₂, hactive, Array.toList_push, handles_append, List.append_assoc]
    rfl
  · rw [hcount, List.length_cons, Nat.add_sub_add_right]
    exact hnext₂
  · rw [hcount, hpending]
    exact hunused

theorem Continued.make {kind : ShapeKind} (h : Continued c₁ requests now c₂)
    (hnone : agreeing c.pending (request :: requests) = 0) (hnew : handle = ⟨c.table.nextId⟩)
    (hpending : c₁.pending = []) (hactive : c₁.active = c.active.push ⟨kind, handle⟩)
    (hnext : c₁.table.nextId = c.table.nextId + 1)
    (hremoved : c₁.table.removed = handles c.pending ++ c.table.removed) :
    Continued c (request :: requests) (⟨handle, request.geometry, request.style⟩ :: now) c₂ := by
  obtain ⟨hanswers, hactive₂, hnext₂, hunused⟩ := h
  rw [hpending, agreeing_nil_left, hnext, Nat.sub_zero] at hanswers hnext₂
  rw [hpending, agreeing_nil_left, hremoved] at hunused
  refine ⟨?_, ?_, ?_, ?_⟩
  · rw [hnone, List.length_cons, Nat.sub_zero, fresh_succ, List.map_cons, hanswers, hnew]
    rfl
  · rw [hactive₂, hactive, Array.toList_push, handles_append, List.append_assoc]
    rfl
  · rw [hnone, hnext₂, List.length_cons]
    omega
  · rw [hnone]
    exact hunused

theorem addEach_continues (requests : List Request) (howning : Owning c)
    (hdrawing : c.isDrawing = true) :
    Ends (addEach requests) c
      (fun now c' => Owning c' ∧ c'.isDrawing = true ∧ Continued c requests now c')
      fun _ _ => True := by
  refine addEach_induct (P := fun requests c now c' => Continued c requests now c') Continued.nil ?_
    requests howning hdrawing
  intro request rest handle now c c₁ c₂ howning hrun hadded hcontinued
  -- Either the first of what waits was taken, or after this request nothing waits any more.
  cases hadded with
  | reused entry waiting _ _ hwaiting hhandle hkind hactive hprevious _ _ _ hwritten _ =>
    subst hhandle
    exact hcontinued.reuse hwaiting hkind hprevious hactive hwritten.nextId hwritten.removed
  | made mid hreleased _ hactive hprevious _ _ hcreated =>
    have hnew : handle = ⟨c.table.nextId⟩ := by
      rw [hcreated.handle_eq, hreleased.table.nextId]
      rfl
    refine hcontinued.make (howning.agreeing_eq_zero hrun hnew rest) hnew
      (pending_of_none hprevious) hactive ?_ ?_
    · rw [hcreated.nextId, hreleased.table.nextId]
      rfl
    · rw [hcreated.removed, hreleased.table.removed, List.reverse_reverse]
      rfl

theorem drawFrame_continues (requests : List Request) (howning : Owning c)
    (hidle : c.isDrawing = false) :
    Ends (drawFrame requests) c
      (fun now c' => now.map Claim.handle =
          c.activeHandles.take (agreeing c.active.toList requests) ++
            fresh c.table.nextId (requests.length - agreeing c.active.toList requests) ∧
        c'.activeHandles = now.map Claim.handle ∧
        c'.table.nextId =
          c.table.nextId + (requests.length - agreeing c.active.toList requests) ∧
        c'.table.removed =
          c.activeHandles.drop (agreeing c.active.toList requests) ++ c.table.removed)
      fun _ _ => True := by
  refine drawFrame_rule hidle ((addEach_continues requests (howning.clear hidle) rfl).imp ?_
    fun _ _ _ => trivial)
  intro now c₁ ⟨howning₁, hdrawing₁, hanswers, hactive, hnext, hunused⟩
  refine (flush_ends howning₁).imp ?_ fun _ _ _ => trivial
  rintro _ c₂ (⟨hidle₁, _⟩ | ⟨_, hreleased⟩)
  · cases hdrawing₁.symm.trans hidle₁
  · refine ⟨hanswers, ?_, hreleased.table.nextId.trans hnext, ?_⟩
    · show handles c₂.active.toList = _
      rw [hreleased.active]
      exact hactive
    · rw [hreleased.table.removed, List.reverse_reverse]
      exact hunused

end Cache

/-! ### Shapes are counted -/

namespace Cache

theorem created_eq_nextId (supported : Option (List StyleKey)) (ops : List Op) :
    (runAll ops (onEmpty supported)).surface.stats.created =
      (runAll ops (onEmpty supported)).surface.nextId :=
  runAll_stable Recorder.stable_counted ops (owning_onEmpty supported) rfl

theorem reached_drawFrame {supported : Option (List StyleKey)} {ops : List Op}
    {requests : List Request} {c c' : Cache Recorder} {now : List Claim}
    (hreached : runAll ops (onEmpty supported) = c) (hrun : drawFrame requests c = .ok now c') :
    runAll (ops ++ frameOps requests) (onEmpty supported) = c' := by
  unfold runAll
  rw [List.foldl_append]
  show runAll (frameOps requests) (runAll ops (onEmpty supported)) = c'
  rw [hreached]
  exact (drawFrame_runs requests).of_ok hrun

/-! ### The plan -/

/-- A frame whose requests are all answered uses the shapes of the frame before as far as the kinds
agree, in their order, and makes new ones for the other requests; the shapes it does not use are
removed, newest first. -/
theorem drawFrame_plan {supported : Option (List StyleKey)} {ops : List Op}
    {requests : List Request} {c c' : Cache Recorder} {now : List Claim}
    (hreached : runAll ops (onEmpty supported) = c) (hidle : c.isDrawing = false)
    (hrun : drawFrame requests c = .ok now c') :
    c'.activeHandles = c.activeHandles.take (agreeing c.active.toList requests) ++
        fresh c.surface.nextId (requests.length - agreeing c.active.toList requests) ∧
      now.map Claim.handle = c'.activeHandles ∧
      c'.activeHandles.length = requests.length ∧
      (∀ k, k ∈ c.activeHandles ++ c.surface.removals → k.id < c.surface.nextId) ∧
      c'.surface.removals = c.surface.removals ++
        (c.activeHandles.drop (agreeing c.active.toList requests)).reverse ∧
      c'.surface.stats.created = c.surface.stats.created +
        (requests.length - agreeing c.active.toList requests) := by
  have howning : Owning c := by
    rw [← hreached]
    exact (owning_onEmpty supported).runAll ops
  obtain ⟨hanswers, hactive, hnext, hremoved⟩ :=
    (drawFrame_continues requests howning hidle).of_ok hrun
  have hnext' : c'.surface.nextId =
      c.surface.nextId + (requests.length - agreeing c.active.toList requests) := hnext
  have hremoved' : c'.surface.removed =
      c.activeHandles.drop (agreeing c.active.toList requests) ++ c.surface.removed := hremoved
  have hreached' := reached_drawFrame hreached hrun
  have hcount := created_eq_nextId supported ops
  have hcount' := created_eq_nextId supported (ops ++ frameOps requests)
  rw [hreached] at hcount
  rw [hreached'] at hcount'
  refine ⟨hactive.trans hanswers, hactive.symm, ?_, ?_, ?_, ?_⟩
  · have hle := agreeing_le c.active.toList requests
    have hlength : c.activeHandles.length = c.active.toList.length := List.length_map _
    rw [hactive, hanswers, List.length_append, List.length_take, hlength]
    unfold fresh
    rw [List.length_map, List.length_range']
    omega
  · intro k hk
    rcases List.mem_append.mp hk with hlive | hgone
    · exact howning.owns.below k (howning.mem_owned hlive)
    · exact (howning.owns.gone k (List.mem_reverse.mp hgone)).2
  · unfold Recorder.removals
    rw [hremoved', List.reverse_append]
  · rw [hcount', hcount, hnext']

/-- Three shapes, and then three requests of which the second is an ellipse of another size. -/
def drawn : List Op :=
  [.clear, .add (.rect ⟨0.0, 0.0, 1.0, 1.0⟩) {}, .add (.ellipse 0.0 0.0 2.0 2.0) {},
    .add (.polygon [(0.0, 0.0)] true) {}, .flush]

def redrawn : List Request :=
  [⟨.rect ⟨5.0, 0.0, 1.0, 1.0⟩, {}⟩, ⟨.ellipse 0.0 0.0 3.0 2.0, {}⟩,
    ⟨.polygon [(0.0, 0.0)] true, {}⟩]

theorem drawFrame_plan_redrawn :
    ∃ c now c', runAll drawn (onEmpty none) = c ∧ c.isDrawing = false ∧
      drawFrame redrawn c = .ok now c' ∧ c'.activeHandles = [⟨0⟩, ⟨3⟩, ⟨4⟩] ∧
      c'.surface.removals = [⟨2⟩, ⟨1⟩] ∧ c'.surface.stats.created = 5 := by
  have hidle : (runAll drawn (onEmpty none)).isDrawing = false := by decide +kernel
  have hcount : agreeing (runAll drawn (onEmpty none)).active.toList redrawn = 1 := by
    decide +kernel
  cases hrun : drawFrame redrawn (runAll drawn (onEmpty none)) with
  | error e c' =>
    have hanswered : (match drawFrame redrawn (runAll drawn (onEmpty none)) with
      | .ok _ _ => true | .error _ _ => false) = true := by decide +kernel
    rw [hrun] at hanswered
    cases hanswered
  | ok now c' =>
    obtain ⟨hactive, _, _, _, hremovals, hcreated⟩ := drawFrame_plan rfl hidle hrun
    rw [hcount] at hactive hremovals hcreated
    refine ⟨_, now, c', rfl, hidle, hrun, hactive.trans ?_, hremovals.trans ?_,
      hcreated.trans ?_⟩
    · decide +kernel
    · decide +kernel
    · decide +kernel

end Cache

end Redraw
