import Redraw.Proofs.Cache.Phase
import Redraw.Proofs.Cache.Twin

namespace Redraw.Cache

variable {σ τ : Type}

/-! ### What was done -/

/-- An operation, and whether it was answered. -/
structure Turn where
  op : Op
  answered : Bool

namespace Turn

def marks : Turn → Bool
  | ⟨.clear, answered⟩ | ⟨.teardown, answered⟩ => answered
  | ⟨.flush, _⟩ => true
  | ⟨.beginFrame, _⟩ | ⟨.add _ _, _⟩ => false

def phase (t : Turn) (before : Phase) : Phase :=
  match t with
  | ⟨.clear, true⟩ => .drawing
  | ⟨.flush, _⟩ | ⟨.teardown, true⟩ => .idle
  | _ => before

theorem phase_of_not_marks {t : Turn} (h : t.marks = false) (before : Phase) :
    t.phase before = before := by
  obtain ⟨op, answered⟩ := t
  cases op <;> cases answered <;> first | rfl | cases h

theorem phase_of_marks {t : Turn} (h : t.marks = true) (before : Phase) :
    t.phase before = .drawing ↔ t = ⟨.clear, true⟩ := by
  obtain ⟨op, answered⟩ := t
  cases op <;> cases answered <;> simp_all [marks, phase]

theorem foldl_phase_eq_drawing (turns : List Turn) :
    turns.foldl (fun before t => t.phase before) .idle = .drawing ↔
      (turns.filter marks).getLast? = some ⟨.clear, true⟩ := by
  induction turns using List.reverseRecOn with
  | nil => simp
  | append_singleton turns t ih =>
    rw [List.foldl_append, List.filter_append, List.foldl_cons, List.foldl_nil]
    cases hmarks : t.marks with
    | false =>
      rw [List.filter_cons_of_neg (by rw [hmarks]; exact nofun), List.filter_nil, List.append_nil,
        phase_of_not_marks hmarks]
      exact ih
    | true =>
      rw [List.filter_cons_of_pos hmarks, List.filter_nil, List.getLast?_concat,
        phase_of_marks hmarks, Option.some.injEq]

end Turn

section Turns

variable [Surface σ]

def Op.turn (op : Op) (c : Cache σ) : Turn := ⟨op, passes op.run c fun _ _ => true⟩

def turns (c : Cache σ) : List Op → List Turn
  | [] => []
  | op :: rest => op.turn c :: turns (op.after c) rest

end Turns

/-! ### The phase -/

/-- Between frames no shape waits. -/
def Settled (c : Cache σ) : Prop := c.isDrawing = false → c.pending = []

theorem isDrawing_iff {c : Cache σ} : c.isDrawing = true ↔ c.phase = .drawing := beq_iff_eq

theorem phase_of_idle {c : Cache σ} (h : c.isDrawing = false) : c.phase = .idle := by
  cases hphase : c.phase with
  | idle => rfl
  | drawing =>
    rw [isDrawing_iff.mpr hphase] at h
    cases h

variable [Surface σ] {c : Cache σ}

theorem teardown_ends_idle (c : Cache σ) :
    Ends teardown c (fun _ c' => c'.pending = [] ∧ c'.phase = .idle)
      fun _ c' => c'.pending = [] ∧ c'.phase = c.phase := by
  unfold teardown
  refine Ends.bind ((releasePrevious_leaves c).imp ?_ ?_)
  · intro _ c₁ ⟨surface, hc₁⟩
    subst hc₁
    refine Ends.bind (Ends.get (Ends.bind (Ends.modify (Ends.bind ?_))))
    refine (ofCalls_onlySurface.removeAll _ _).imp ?_ ?_
    · intro _ c₂ ⟨surface₂, hc₂⟩
      subst hc₂
      exact Ends.modify ⟨rfl, rfl⟩
    · intro _ c₂ ⟨surface₂, hc₂⟩
      subst hc₂
      exact ⟨rfl, rfl⟩
  · intro _ c₁ ⟨surface, hc₁⟩
    subst hc₁
    exact ⟨rfl, rfl⟩

theorem flush_ends_idle (h : c.Settled) :
    Ends flush c (fun _ c' => c'.pending = [] ∧ c'.phase = .idle)
      fun _ c' => c'.pending = [] ∧ c'.phase = .idle := by
  refine flush_rule ?_ ?_
  · intro hidle
    exact ⟨h hidle, phase_of_idle hidle⟩
  · intro _ journal
    refine (releasePrevious_leaves _).both ?_
    intro c' ⟨surface, hc'⟩
    subst hc'
    exact ⟨rfl, rfl⟩

theorem add_of_idle (hidle : c.isDrawing = false) (g : Geometry) (s : Style) :
    add g s c = .error (.protocol .requestOutsideFrame) c := by
  have hrefused : (ensureDrawing : CacheM σ Unit) c = .error (.protocol .requestOutsideFrame) c := by
    show (if (!c.isDrawing) = true then throw (.protocol .requestOutsideFrame) else pure () :
      CacheM σ Unit) c = _
    rw [hidle]
    rfl
  exact bind_of_error hrefused

theorem add_ends_drawing (h : c.Settled) (g : Geometry) (s : Style) :
    Ends (add g s) c (fun _ c' => c'.Settled ∧ c'.phase = c.phase)
      fun _ c' => c'.Settled ∧ c'.phase = c.phase := by
  cases hdrawing : c.isDrawing with
  | false => exact Ends.of_eq ((add_of_idle hdrawing g s).trans rfl) (Ends.throw ⟨h, rfl⟩)
  | true =>
    refine (add_keepsPhase g s c rfl).both ?_
    intro c' hphase
    refine ⟨?_, hphase⟩
    intro hidle
    rw [isDrawing_iff.mpr (hphase.trans (isDrawing_iff.mp hdrawing))] at hidle
    cases hidle

/-- One turn: what it says of the phase is what the phase is, and nothing waits between frames. -/
theorem Op.run_settles (op : Op) (h : c.Settled) :
    Ends op.run c (fun _ c' => c'.Settled ∧ c'.phase = Turn.phase ⟨op, true⟩ c.phase)
      fun _ c' => c'.Settled ∧ c'.phase = Turn.phase ⟨op, false⟩ c.phase := by
  have hclosed : ∀ c' : Cache σ, c'.pending = [] → c'.Settled := fun _ hpending _ => hpending
  cases op with
  | beginFrame => exact Ends.bind (Ends.modify (Ends.pure ⟨h, rfl⟩))
  | clear =>
    refine Ends.bind ((clear_ends c).imp ?_ ?_)
    · intro _ c' ⟨_, hopened⟩
      subst hopened
      exact Ends.pure ⟨nofun, rfl⟩
    · intro _ c' ⟨_, hsame⟩
      subst hsame
      exact ⟨h, rfl⟩
  | flush =>
    refine Ends.bind ((flush_ends_idle h).imp ?_ ?_)
    · intro _ c' ⟨hpending, hphase⟩
      exact Ends.pure ⟨hclosed c' hpending, hphase⟩
    · intro _ c' ⟨hpending, hphase⟩
      exact ⟨hclosed c' hpending, hphase⟩
  | teardown =>
    refine Ends.bind ((teardown_ends_idle c).imp ?_ ?_)
    · intro _ c' ⟨hpending, hphase⟩
      exact Ends.pure ⟨hclosed c' hpending, hphase⟩
    · intro _ c' ⟨hpending, hphase⟩
      exact ⟨hclosed c' hpending, hphase⟩
  | add g s => exact Ends.map (add_ends_drawing h g s)

theorem Settled.after (h : c.Settled) (op : Op) :
    (op.after c).Settled ∧ (op.after c).phase = (op.turn c).phase c.phase := by
  have hends := op.run_settles h
  unfold Op.after Op.turn passes
  cases hrun : op.run c with
  | ok a c' => exact hends.of_ok hrun
  | error e c' => exact hends.of_error hrun

theorem Settled.runAll (ops : List Op) {c : Cache σ} (h : c.Settled) :
    (runAll ops c).Settled ∧
      (runAll ops c).phase = (turns c ops).foldl (fun before t => t.phase before) c.phase := by
  induction ops generalizing c with
  | nil => exact ⟨h, rfl⟩
  | cons op rest ih =>
    obtain ⟨hsettled, hphase⟩ := h.after op
    obtain ⟨hsettled', hphase'⟩ := ih hsettled
    refine ⟨hsettled', hphase'.trans ?_⟩
    rw [hphase, turns, List.foldl_cons]

/-! ### Out of turn -/

/-- A request outside a frame, or a `clear` inside one. -/
def Op.outOfTurn {σ : Type} (op : Op) (c : Cache σ) : Bool :=
  match op with
  | .add _ _ => !c.isDrawing
  | .clear => c.isDrawing
  | .beginFrame | .flush | .teardown => false

def Op.fault : Op → ProtocolFault
  | .clear => .clearedTwice
  | .beginFrame | .flush | .teardown | .add _ _ => .requestOutsideFrame

theorem Op.run_of_outOfTurn {op : Op} (h : op.outOfTurn c = true) :
    op.run c = .error (.protocol op.fault) c := by
  cases op with
  | beginFrame => cases h
  | flush => cases h
  | teardown => cases h
  | clear =>
    have hclear : Cache.clear c = .error (.protocol .clearedTwice) c := by
      have hdrawing : c.isDrawing = true := h
      show (if c.isDrawing = true then _ else _ : CacheM σ Unit) c = _
      rw [hdrawing]
      rfl
    exact bind_of_error hclear
  | add g s =>
    have hidle : c.isDrawing = false := by
      have hnot : (!c.isDrawing) = true := h
      rwa [Bool.not_eq_true'] at hnot
    have hadd := add_of_idle hidle g s
    show EStateM.map some (Cache.add g s) c = _
    unfold EStateM.map
    rw [hadd]
    rfl

theorem add_raises (hdrawing : c.isDrawing = true) (g : Geometry) (s : Style) :
    Ends (add g s) c (fun _ _ => True) fun e _ => OfSurface e := by
  refine add_rule ?_ ?_ ?_
  · intro hidle
    rw [hdrawing] at hidle
    cases hidle
  · intro _ entry _ _ _
    exact ofCalls_ofSurface.update entry.handle g s _
  · intro _ _ journal
    refine (releasePrevious_raises _).imp_ok ?_
    intro _ c₁ _
    exact ofCalls_ofSurface.call _ c₁

theorem teardown_raises : Raises OfSurface (teardown : CacheM σ Unit) := by
  unfold teardown
  refine releasePrevious_raises.bind fun _ => ?_
  refine Raises.bind (fun _ => Ends.get trivial) fun c => ?_
  refine (Raises.modify _).bind fun _ => ?_
  exact (ofCalls_ofSurface.removeAll _).bind fun _ => .modify _

theorem Op.run_raises {op : Op} (h : op.outOfTurn c = false) :
    Ends op.run c (fun _ _ => True) fun e _ => OfSurface e := by
  have hdone : Raises OfSurface (pure none : CacheM σ (Option Handle)) := .pure none
  cases op with
  | beginFrame => exact Ends.bind (Ends.modify (Ends.pure trivial))
  | flush =>
    refine Ends.bind (flush_rule (fun _ => hdone c) ?_)
    intro _ journal
    exact (releasePrevious_raises _).imp_ok fun _ c' _ => hdone c'
  | teardown => exact Ends.bind ((teardown_raises c).imp_ok fun _ c' _ => hdone c')
  | clear =>
    refine Ends.bind ((clear_ends c).imp (fun _ c' _ => hdone c') ?_)
    intro _ _ ⟨hdrawing, _⟩
    have hclosed : c.isDrawing = false := h
    rw [hclosed] at hdrawing
    cases hdrawing
  | add g s =>
    have hdrawing : c.isDrawing = true := by
      have hnot : (!c.isDrawing) = false := h
      rwa [Bool.not_eq_false'] at hnot
    exact Ends.map (add_raises hdrawing g s)

/-- An operation is refused for its place exactly if it is out of turn, and then it changes nothing. -/
theorem Op.protocol_iff {op : Op} {fault : ProtocolFault} {c' : Cache σ} :
    op.run c = .error (.protocol fault) c' ↔ op.outOfTurn c = true ∧ fault = op.fault ∧ c' = c := by
  constructor
  · intro hrun
    cases hturn : op.outOfTurn c with
    | true =>
      rw [Op.run_of_outOfTurn hturn] at hrun
      cases hrun
      exact ⟨rfl, rfl, rfl⟩
    | false =>
      obtain ⟨error, herror⟩ := (Op.run_raises hturn).of_error hrun
      cases herror
  · intro ⟨hturn, hfault, hsame⟩
    rw [Op.run_of_outOfTurn hturn, hfault, hsame]

/-! ### Any run -/

/-- Whatever is done with a cache on whatever surface, and whatever fails: a frame is open exactly if the
last operation that opens or closes one is an answered `clear`, no shape waits between frames, and an
operation is refused for its place exactly if it is out of turn. Such an operation leaves the cache as it
was, and it does not call on the surface: it is refused in the same way on any other one, which it leaves
as it was too. -/
theorem order_kept (surface : σ) (past : List Op) :
    let c := runAll past { surface := surface }
    (c.isDrawing = true ↔
        ((turns { surface := surface } past).filter Turn.marks).getLast? = some ⟨.clear, true⟩) ∧
      (c.isDrawing = false → c.pending = []) ∧
      (∀ c', clear c = .ok () c' → c.pending = []) ∧
      ∀ op : Op,
        ((∃ fault c', op.run c = .error (.protocol fault) c') ↔ op.outOfTurn c = true) ∧
        ∀ fault c', op.run c = .error (.protocol fault) c' → c' = c ∧
          ∀ (τ : Type) [Surface τ] (other : τ),
            op.run (c.onto other) = .error (.protocol fault) (c.onto other) := by
  intro c
  have hstart : Settled { surface := surface } := fun _ => rfl
  obtain ⟨hsettled, hphase⟩ := hstart.runAll past
  refine ⟨?_, hsettled, ?_, ?_⟩
  · rw [isDrawing_iff, hphase]
    exact Turn.foldl_phase_eq_drawing _
  · intro c' hclear
    exact hsettled ((clear_ends c).of_ok hclear).1
  · intro op
    refine ⟨?_, ?_⟩
    · constructor
      · intro ⟨fault, c', hrun⟩
        exact (Op.protocol_iff.mp hrun).1
      · intro hturn
        exact ⟨op.fault, c, Op.run_of_outOfTurn hturn⟩
    · intro fault c' hrun
      obtain ⟨hturn, hfault, hsame⟩ := Op.protocol_iff.mp hrun
      refine ⟨hsame, ?_⟩
      intro τ _ other
      rw [hfault]
      exact Op.run_of_outOfTurn (c := c.onto other) hturn

end Redraw.Cache
