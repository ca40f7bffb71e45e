import Mathlib.Data.List.Basic
import Redraw.Proofs.Cache.Plan

namespace Redraw

open CachedShape

namespace SurfaceCall

def writesGeometry : SurfaceCall → Bool
  | setGeometry _ => true
  | _ => false

def writesStyle : SurfaceCall → Bool
  | setStyle _ _ => true
  | _ => false

/-- The call writes to a shape that is there. -/
def writes (call : SurfaceCall) : Bool := call.writesGeometry || call.writesStyle

end SurfaceCall

/-! ### What differs -/

def fieldWrites (handle : Handle) (held wanted : Rect) (fields : List RectField) :
    List SurfaceCall :=
  (fields.filter fun field => held.get field != wanted.get field).map fun _ => .setGeometry handle

def geometryWrites (handle : Handle) : Geometry → Geometry → List SurfaceCall
  | .rect held, .rect wanted => fieldWrites handle held wanted RectField.all
  | _, _ => [.setGeometry handle]

def styleWrites (handle : Handle) (held : Style) (entries : List (StyleKey × StyleValue)) :
    List SurfaceCall :=
  (entries.filter fun entry => held.get? entry.1 != some entry.2).map
    fun entry => .setStyle handle entry.1

/-- The writes that bring a shape in line with a request. -/
def updateWrites (handle : Handle) (held : StoredShape) (request : Request) : List SurfaceCall :=
  geometryWrites handle held.geometry request.geometry ++
    styleWrites handle held.style request.style.entries

section Differences

variable {handle : Handle}

theorem fieldWrites_cons (held wanted : Rect) (field : RectField) (rest : List RectField) :
    fieldWrites handle held wanted (field :: rest) =
      if held.get field == wanted.get field then fieldWrites handle held wanted rest
      else .setGeometry handle :: fieldWrites handle held wanted rest := by
  unfold fieldWrites
  rw [List.filter_cons, bne]
  cases held.get field == wanted.get field <;> rfl

theorem styleWrites_cons (held : Style) (key : StyleKey) (value : StyleValue)
    (rest : List (StyleKey × StyleValue)) :
    styleWrites handle held ((key, value) :: rest) =
      if held.get? key == some value then styleWrites handle held rest
      else .setStyle handle key :: styleWrites handle held rest := by
  unfold styleWrites
  rw [List.filter_cons, bne]
  cases held.get? key == some value <;> rfl

theorem styleWrites_set {held : Style} {key : StyleKey} {value : StyleValue}
    {entries : List (StyleKey × StyleValue)} (hkey : key ∉ entries.map Prod.fst) :
    styleWrites handle (held.set key value) entries = styleWrites handle held entries := by
  unfold styleWrites
  congr 1
  apply List.filter_congr
  intro entry hentry
  rw [Style.get?_set, if_neg]
  intro heq
  exact hkey (heq ▸ List.mem_map_of_mem hentry)

theorem geometryWrites_of_family {held wanted : Geometry} (h : wanted.family ≠ .rect) :
    geometryWrites handle held wanted = [.setGeometry handle] := by
  cases wanted with
  | rect => exact absurd rfl h
  | ellipse => cases held <;> rfl
  | polygon => cases held <;> rfl

end Differences

/-! ### What a probe notes -/

namespace Probe

/-- The writes that were asked for, in their order. -/
def writes {σ : Type} (p : Probe σ) : List SurfaceCall := (p.calls.filter SurfaceCall.writes).reverse

/-- These writes were asked for and counted. -/
structure Wrote (p p' : Probe Recorder) (calls : List SurfaceCall) : Prop where
  writes : p'.writes = p.writes ++ calls
  geometry : p'.inner.stats.geometryWrites =
    p.inner.stats.geometryWrites + calls.countP SurfaceCall.writesGeometry
  style : p'.inner.stats.styleWrites =
    p.inner.stats.styleWrites + calls.countP SurfaceCall.writesStyle

variable {α : Type} {p p' p'' : Probe Recorder} {calls later : List SurfaceCall}

theorem Wrote.refl (p : Probe Recorder) : p.Wrote p [] :=
  ⟨(List.append_nil _).symm, rfl, rfl⟩

theorem Wrote.trans (h : p.Wrote p' calls) (h' : p'.Wrote p'' later) :
    p.Wrote p'' (calls ++ later) := by
  refine ⟨?_, ?_, ?_⟩
  · rw [h'.writes, h.writes, List.append_assoc]
  · rw [h'.geometry, h.geometry, List.countP_append, Nat.add_assoc]
  · rw [h'.style, h.style, List.countP_append, Nat.add_assoc]

/-- What the probe notes of an answered call is what the recorder inside counts. -/
theorem observe_wrote {call : SurfaceCall} {act : EStateM SurfaceError Recorder α}
    (hact : ∀ {a r r'}, act r = .ok a r' → r'.stats = r.stats.count call) :
    Ends (observe call act) p (fun _ p' => p.Wrote p' ([call].filter SurfaceCall.writes))
      fun _ _ => True := by
  refine observe_ends (fun _ _ => trivial) fun _ => Ends.intro ?_ fun _ _ _ => trivial
  intro a r hrun
  have hstats := hact hrun
  refine ⟨?_, ?_, ?_⟩
  · show ((call :: p.calls).filter SurfaceCall.writes).reverse = _
    rw [← List.singleton_append, List.filter_append, List.reverse_append]
    cases call <;> rfl
  · show r.stats.geometryWrites = _
    rw [hstats]
    cases call <;> rfl
  · show r.stats.styleWrites = _
    rw [hstats]
    cases call <;> rfl

theorem setField_wrote (handle : Handle) (field : RectField) (value : Float) :
    Ends (Surface.setField handle field value) p (fun _ p' => p.Wrote p' [.setGeometry handle])
      fun _ _ => True := by
  show Ends (observe (.geometry handle) (Recorder.geometry handle) >>= _) p _ _
  refine Ends.seq (observe_wrote Recorder.geometry_stats) ?_
  intro g p₁ hread
  cases g with
  | rect held => exact (observe_wrote Recorder.setGeometry_stats).imp_ok fun _ _ h => hread.trans h
  | ellipse => exact Ends.throw trivial
  | polygon => exact Ends.throw trivial

end Probe

namespace Cache

variable {c c' c'' : Cache (Probe Recorder)} {calls later : List SurfaceCall} {handle : Handle}
  {shape : StoredShape} {g : Geometry} {s : Style}

/-- The cache has asked for these writes; the shapes to be redrawn are as before. -/
structure Wrote (c c' : Cache (Probe Recorder)) (calls : List SurfaceCall) : Prop where
  surface : c.surface.Wrote c'.surface calls
  touched : c'.touched = c.touched

theorem Wrote.refl (c : Cache (Probe Recorder)) : Wrote c c [] := ⟨.refl _, rfl⟩

theorem Wrote.trans (h : Wrote c c' calls) (h' : Wrote c' c'' later) :
    Wrote c c'' (calls ++ later) := ⟨h.surface.trans h'.surface, h'.touched.trans h.touched⟩

theorem onSurface_wrote {α : Type} {act : EStateM SurfaceError (Probe Recorder) α}
    (h : Ends act c.surface (fun _ p' => c.surface.Wrote p' calls) fun _ _ => True) :
    Ends (onSurface act) c (fun _ c' => Wrote c c' calls) fun _ _ => True :=
  onSurface_ends (h.imp (fun _ _ h => ⟨h, rfl⟩) fun _ _ h => h)

/-! ### One shape -/

/-- An answered step has asked for these writes, and tells whether there are any. -/
def Writes (step : CacheM (Probe Recorder) Bool) (c : Cache (Probe Recorder))
    (calls : List SurfaceCall) : Prop :=
  Ends step c (fun changed c' => Wrote c c' calls ∧ changed = !calls.isEmpty) fun _ _ => True

theorem applyFields_writes (current wanted : Rect) (fields : List RectField) :
    Writes (applyFields handle current wanted fields) c
      (fieldWrites handle current wanted fields) := by
  unfold Writes
  induction fields generalizing c with
  | nil => exact Ends.pure ⟨.refl c, rfl⟩
  | cons field rest ih =>
    unfold applyFields
    rw [fieldWrites_cons]
    split
    · exact ih
    · refine Ends.seq (onSurface_wrote (Probe.setField_wrote handle field _)) ?_
      intro _ c₁ hwrote₁
      refine Ends.seq ih ?_
      rintro _ c₂ ⟨hwrote₂, _⟩
      exact Ends.pure ⟨hwrote₁.trans hwrote₂, rfl⟩

theorem applyEntries_writes (entries : List (StyleKey × StyleValue))
    (hdistinct : (entries.map Prod.fst).Nodup) (hshape : c.table.shape? handle = some shape) :
    Writes (applyEntries handle entries) c (styleWrites handle shape.style entries) := by
  unfold Writes
  induction entries generalizing c shape with
  | nil => exact Ends.pure ⟨.refl c, rfl⟩
  | cons entry rest ih =>
    obtain ⟨key, value⟩ := entry
    obtain ⟨hkey, hrest⟩ := List.nodup_cons.mp hdistinct
    have hread : Ends (onSurface (Surface.style handle key)) c (fun _ c' => Wrote c c' [])
        fun _ _ => True := onSurface_wrote (Probe.observe_wrote Recorder.style_stats)
    unfold applyEntries
    rw [styleWrites_cons]
    refine Ends.bind ((hread.and (style_ends hshape)).imp ?_ fun _ _ _ => trivial)
    rintro held c₁ ⟨hwrote₁, ⟨_, hwritten₁⟩, hheld⟩
    rw [hheld]
    split
    · refine (ih hrest hwritten₁.here).imp_ok ?_
      rintro _ c₂ ⟨hwrote₂, hchanged⟩
      exact ⟨hwrote₁.trans hwrote₂, hchanged⟩
    · have hwrite : Ends (onSurface (Surface.setStyle handle key value)) c₁
          (fun _ c' => Wrote c₁ c' [.setStyle handle key]) fun _ _ => True :=
        onSurface_wrote (Probe.observe_wrote Recorder.setStyle_stats)
      refine Ends.bind ((hwrite.and (setStyle_ends hwritten₁.here)).imp ?_ fun _ _ _ => trivial)
      rintro _ c₂ ⟨hwrote₂, _, hwritten₂⟩
      refine Ends.seq (ih hrest hwritten₂.here) ?_
      rintro _ c₃ ⟨hwrote₃, _⟩
      rw [styleWrites_set hkey] at hwrote₃
      exact Ends.pure ⟨(hwrote₁.trans hwrote₂).trans hwrote₃, rfl⟩

theorem applyStyle_writes (hshape : c.table.shape? handle = some shape) :
    Writes (applyStyle handle s) c (styleWrites handle shape.style s.entries) :=
  applyEntries_writes s.entries s.keys_nodup hshape

theorem updateRect_writes {wanted : Rect} (hshape : c.table.shape? handle = some shape)
    (hkind : (shape.geometry.kind == .rect) = true) :
    Writes (updateRect handle wanted s) c (updateWrites handle shape ⟨.rect wanted, s⟩) := by
  have hread : Ends (onSurface (Surface.geometry handle)) c (fun _ c' => Wrote c c' [])
      fun _ _ => True := onSurface_wrote (Probe.observe_wrote Recorder.geometry_stats)
  unfold Writes updateRect
  refine Ends.bind ((hread.and (geometry_ends hshape)).imp ?_ fun _ _ _ => trivial)
  intro held c₁ ⟨hwrote₁, ⟨_, hwritten₁⟩, hheld⟩
  cases held with
  | ellipse =>
    rw [hheld] at hkind
    cases hkind
  | polygon =>
    rw [hheld] at hkind
    cases hkind
  | rect current =>
    have hfields := applyFields_ends wanted RectField.all (by decide) hwritten₁.here hheld
      fun _ _ => rfl
    refine Ends.bind (((applyFields_writes current wanted RectField.all).and hfields).imp ?_
      fun _ _ _ => trivial)
    intro moved c₂ ⟨⟨hwrote₂, hmoved⟩, _, held, hwritten₂, _⟩
    refine Ends.seq (applyStyle_writes hwritten₂.here) ?_
    intro restyled c₃ ⟨hwrote₃, hrestyled⟩
    unfold updateWrites
    rw [hheld]
    refine Ends.pure ⟨(hwrote₁.trans hwrote₂).trans hwrote₃, ?_⟩
    rw [hmoved, hrestyled]
    show _ = !(fieldWrites handle current wanted RectField.all ++ _).isEmpty
    cases fieldWrites handle current wanted RectField.all <;> rfl

theorem rewrite_writes (hshape : c.table.shape? handle = some shape) (hfamily : g.family ≠ .rect) :
    Writes (onSurface (Surface.setGeometry handle g) >>= fun _ =>
        applyStyle handle s >>= fun _ => pure true)
      c (updateWrites handle shape ⟨g, s⟩) := by
  have hwrite : Ends (onSurface (Surface.setGeometry handle g)) c
      (fun _ c' => Wrote c c' [.setGeometry handle]) fun _ _ => True :=
    onSurface_wrote (Probe.observe_wrote Recorder.setGeometry_stats)
  unfold Writes updateWrites
  rw [geometryWrites_of_family hfamily]
  refine Ends.bind ((hwrite.and (setGeometry_ends hshape)).imp ?_ fun _ _ _ => trivial)
  intro _ c₁ ⟨hwrote₁, _, _, hwritten₁⟩
  refine Ends.seq (applyStyle_writes hwritten₁.here) ?_
  intro _ c₂ ⟨hwrote₂, _⟩
  exact Ends.pure ⟨hwrote₁.trans hwrote₂, rfl⟩

theorem update_writes (hshape : c.table.shape? handle = some shape)
    (hkind : (shape.geometry.kind == g.kind) = true) :
    Writes (update handle g s) c (updateWrites handle shape ⟨g, s⟩) := by
  cases g with
  | rect wanted => exact updateRect_writes hshape hkind
  | ellipse => exact rewrite_writes hshape nofun
  | polygon => exact rewrite_writes hshape nofun

/-! ### Steps that write nothing in place -/

theorem removeAll_wrote (entries : List CachedShape) :
    Ends (removeAll entries) c (fun _ c' => Wrote c c' []) fun _ _ => True := by
  induction entries generalizing c with
  | nil => exact Ends.pure (.refl c)
  | cons entry rest ih =>
    unfold removeAll
    refine Ends.seq (onSurface_wrote (Probe.observe_wrote Recorder.remove_stats)) ?_
    intro _ c₁ hwrote₁
    exact ih.imp_ok fun _ c₂ hwrote₂ => hwrote₁.trans hwrote₂

theorem releasePrevious_wrote (journal : List Event) :
    Ends releasePrevious { c with journal := journal } (fun _ c' => Wrote c c' []) fun _ _ => True := by
  unfold releasePrevious
  refine Ends.bind (Ends.get (Ends.bind (Ends.modify ?_)))
  exact (removeAll_wrote (c := { c with previous := none, journal := journal }) _).imp_ok
    fun _ c₁ h => ⟨h.surface, h.touched⟩

theorem flush_wrote : Ends flush c (fun _ c' => Wrote c c' []) fun _ _ => True := by
  refine flush_rule (fun _ => .refl c) fun _ journal => ?_
  exact (releasePrevious_wrote (c := { c with phase := .idle }) journal).imp_ok
    fun _ c₁ h => ⟨h.surface, h.touched⟩

/-! ### One request -/

/-- The requests that agree in kind with the shapes they line up with, and these shapes. -/
def meetings (entries : List CachedShape) (requests : List Request) :
    List (CachedShape × Request) := (entries.zip requests).takeWhile agree

def pairWrites (r : Recorder) (pair : CachedShape × Request) : List SurfaceCall :=
  match r.shape? pair.1.handle with
  | some shape => updateWrites pair.1.handle shape pair.2
  | none => []

/-- The shape is to be redrawn: it is no rectangle, or it was written to. -/
def isTouched (r : Recorder) (pair : CachedShape × Request) : Bool :=
  pair.2.geometry.family != .rect || !(pairWrites r pair).isEmpty

variable {request : Request} {requests : List Request} {entry : CachedShape}
  {rest : List CachedShape}

theorem pairWrites_of_live {r : Recorder} (hshape : r.shape? entry.handle = some shape) :
    pairWrites r (entry, request) = updateWrites entry.handle shape request := by
  unfold pairWrites
  rw [hshape]

theorem isTouched_of_live {r : Recorder} (hshape : r.shape? entry.handle = some shape) :
    isTouched r (entry, request) = !(pairWrites r (entry, request)).isEmpty := by
  unfold isTouched
  by_cases hfamily : request.geometry.family = .rect
  · simp [hfamily]
  · rw [pairWrites_of_live hshape, updateWrites, geometryWrites_of_family hfamily]
    simp

theorem meetings_cons (hagree : agree (entry, request) = true) :
    meetings (entry :: rest) (request :: requests) = (entry, request) :: meetings rest requests :=
  List.takeWhile_cons_of_pos hagree

theorem meetings_eq_nil (h : agreeing rest requests = 0) : meetings rest requests = [] :=
  List.eq_nil_of_length_eq_zero h

theorem add_writes_reused (howning : Owning c) (hwaiting : c.previous = some (entry :: rest))
    (hagree : agree (entry, request) = true) :
    Ends (add request.geometry request.style) c
      (fun _ c' => c.surface.Wrote c'.surface (pairWrites c.table (entry, request)) ∧
        c'.touched.toList = c.touched.toList ++
          ([(entry, request)].filter (isTouched c.table)).map fun pair => pair.1.handle)
      fun _ _ => True := by
  obtain ⟨shape, hshape, hheld⟩ := howning.meets hwaiting hagree
  have hupdate := update_writes (c := { c with previous := some rest }) (s := request.style) hshape hheld
  rw [List.filter_singleton, isTouched_of_live hshape, pairWrites_of_live hshape]
  refine add_rule (fun _ => trivial) ?_ ?_
  · intro _ entry' rest' hwaiting' _
    cases hwaiting.symm.trans hwaiting'
    refine hupdate.imp ?_ fun _ _ _ => trivial
    intro changed c₁ ⟨hwrote, hchanged⟩
    refine ⟨hwrote.surface, ?_⟩
    rw [enlist_touched, ← hchanged]
    cases changed with
    | true =>
      rw [if_pos rfl, Array.toList_push, hwrote.touched]
      rfl
    | false =>
      rw [if_neg nofun, hwrote.touched]
      exact (List.append_nil _).symm
  · intro _ hmissed
    exact absurd hagree (hmissed entry rest hwaiting)

theorem add_writes_made
    (hmissed : ∀ entry rest, c.previous = some (entry :: rest) → ¬agree (entry, request) = true) :
    Ends (add request.geometry request.style) c
      (fun handle c' => c.surface.Wrote c'.surface [] ∧
        c'.touched.toList = c.touched.toList ++ [handle])
      fun _ _ => True := by
  refine add_rule (fun _ => trivial) ?_ ?_
  · intro _ entry rest hwaiting hagree
    exact absurd hagree (hmissed entry rest hwaiting)
  · intro _ _ journal
    refine (releasePrevious_wrote journal).imp_ok ?_
    intro _ c₁ hwrote₁
    have hcreate : Ends (onSurface (Surface.create request.geometry request.style)) c₁
        (fun _ c' => Wrote c₁ c' []) fun _ _ => True :=
      onSurface_wrote (Probe.observe_wrote Recorder.create_stats)
    refine hcreate.imp_ok ?_
    intro handle c₂ hwrote₂
    have hwrote := hwrote₁.trans hwrote₂
    refine ⟨hwrote.surface, ?_⟩
    rw [enlist_touched, if_pos rfl, Array.toList_push, hwrote.touched]

/-! ### All requests of a frame -/

/-- The requests have written what differed in the shapes they met, and only that; to be redrawn are
the shapes they met, as far as these were written to, and the new ones. -/
structure Inscribed (c : Cache (Probe Recorder)) (requests : List Request)
    (c' : Cache (Probe Recorder)) : Prop where
  surface : c.surface.Wrote c'.surface ((meetings c.pending requests).flatMap (pairWrites c.table))
  touched : c'.touched.toList = c.touched.toList ++
    (((meetings c.pending requests).filter (isTouched c.table)).map (fun pair => pair.1.handle) ++
      fresh c.table.nextId (requests.length - agreeing c.pending requests))

theorem Inscribed.nil (c : Cache (Probe Recorder)) : Inscribed c [] c := by
  have hnone := agreeing_nil_right c.pending
  refine ⟨?_, ?_⟩
  · rw [meetings_eq_nil hnone]
    exact .refl _
  · rw [meetings_eq_nil hnone, hnone]
    exact (List.append_nil _).symm

theorem pairWrites_congr {r r' : Recorder} {pair : CachedShape × Request}
    (hwritten : r.Rewritten r' handle shape) (hne : pair.1.handle ≠ handle) :
    pairWrites r' pair = pairWrites r pair := by
  unfold pairWrites
  rw [hwritten.elsewhere hne]

theorem Inscribed.reuse (h : Inscribed c' requests c'') (howning : Owning c)
    (hwaiting : c.previous = some (entry :: rest)) (hagree : agree (entry, request) = true)
    (hprevious : c'.previous = some rest)
    (hwritten : c.table.Rewritten c'.table entry.handle shape)
    (hsurface : c.surface.Wrote c'.surface (pairWrites c.table (entry, request)))
    (htouched : c'.touched.toList = c.touched.toList ++
      ([(entry, request)].filter (isTouched c.table)).map fun pair => pair.1.handle) :
    Inscribed c (request :: requests) c'' := by
  have hpending : c.pending = entry :: rest := pending_of_some hwaiting
  have hpending' : c'.pending = rest := pending_of_some hprevious
  have hnodup := howning.owns.nodup
  rw [owned_eq hwaiting, handles_append] at hnodup
  have hentry := (List.nodup_cons.mp (List.nodup_append.mp hnodup).2.1).1
  have hsame : ∀ pair, pair ∈ meetings rest requests →
      pairWrites c'.table pair = pairWrites c.table pair := by
    intro pair hpair
    have hzip := (List.takeWhile_prefix agree).subset hpair
    refine pairWrites_congr hwritten ?_
    intro heq
    exact hentry (heq ▸ mem_handles (List.of_mem_zip hzip).1)
  have hsame' : ∀ pair, pair ∈ meetings rest requests →
      isTouched c'.table pair = isTouched c.table pair := by
    intro pair hpair
    unfold isTouched
    rw [hsame pair hpair]
  have hsurface' := h.surface
  have htouched' := h.touched
  rw [hpending', List.flatMap_congr hsame] at hsurface'
  rw [hpending', List.filter_congr hsame', hwritten.nextId] at htouched'
  refine ⟨?_, ?_⟩
  · rw [hpending, meetings_cons hagree]
    exact hsurface.trans hsurface'
  · rw [hpending, meetings_cons hagree, agreeing_cons hagree, List.length_cons,
      Nat.add_sub_add_right, ← List.singleton_append, List.filter_append, List.map_append,
      htouched', htouched, List.append_assoc, List.append_assoc]

theorem Inscribed.make (h : Inscribed c' requests c'')
    (hnone : agreeing c.pending (request :: requests) = 0) (hnew : handle = ⟨c.table.nextId⟩)
    (hpending : c'.pending = []) (hnext : c'.table.nextId = c.table.nextId + 1)
    (hsurface : c.surface.Wrote c'.surface [])
    (htouched : c'.touched.toList = c.touched.toList ++ [handle]) :
    Inscribed c (request :: requests) c'' := by
  have hnone' : agreeing c'.pending requests = 0 := by
    rw [hpending]
    exact agreeing_nil_left requests
  have hsurface' := h.surface
  have htouched' := h.touched
  rw [meetings_eq_nil hnone'] at hsurface'
  rw [meetings_eq_nil hnone', hnone', Nat.sub_zero, hnext] at htouched'
  refine ⟨?_, ?_⟩
  · rw [meetings_eq_nil hnone]
    exact hsurface.trans hsurface'
  · rw [meetings_eq_nil hnone, hnone, htouched', htouched, hnew, Nat.sub_zero, List.length_cons,
      fresh_succ, List.append_assoc]
    rfl

theorem addEach_inscribes (requests : List Request) (howning : Owning c)
    (hdrawing : c.isDrawing = true) :
    Ends (addEach requests) c (fun _ c' => Inscribed c requests c') fun _ _ => True := by
  have hends := addEach_induct (P := fun requests c _ c' => Inscribed c requests c') Inscribed.nil ?_
    requests howning hdrawing
  · exact hends.imp_ok fun _ _ h => h.2.2
  intro request rest handle now c c₁ c₂ howning hrun hadded hinscribed
  cases hadded with
  | reused entry waiting _ _ hwaiting hhandle hkind _ hprevious _ _ _ hwritten _ =>
    subst hhandle
    obtain ⟨hsurface, htouched⟩ := (add_writes_reused howning hwaiting hkind).of_ok hrun
    exact hinscribed.reuse howning hwaiting hkind hprevious hwritten hsurface htouched
  | made mid hreleased _ _ hprevious _ _ hcreated =>
    have hnew : handle = ⟨c.table.nextId⟩ := by
      rw [hcreated.handle_eq, hreleased.table.nextId]
      rfl
    have hnone := howning.agreeing_eq_zero hrun hnew
    have hmissed : ∀ entry waiting, c.previous = some (entry :: waiting) →
        ¬agree (entry, request) = true := by
      intro entry waiting hwaiting hagree
      have hzero := hnone []
      rw [pending_of_some hwaiting, agreeing_cons hagree] at hzero
      cases hzero
    obtain ⟨hsurface, htouched⟩ := (add_writes_made hmissed).of_ok hrun
    refine hinscribed.make (hnone rest) hnew (pending_of_none hprevious) ?_ hsurface htouched
    rw [hcreated.nextId, hreleased.table.nextId]
    rfl

theorem drawFrame_inscribes (requests : List Request) (howning : Owning c)
    (hidle : c.isDrawing = false) :
    Ends (drawFrame requests) c
      (fun _ c' =>
        c.surface.Wrote c'.surface
          ((meetings c.active.toList requests).flatMap (pairWrites c.table)) ∧
        c'.touched.toList = ((meetings c.active.toList requests).filter (isTouched c.table)).map
            (fun pair => pair.1.handle) ++
          fresh c.table.nextId (requests.length - agreeing c.active.toList requests))
      fun _ _ => True := by
  refine drawFrame_rule hidle ((addEach_inscribes requests (howning.clear hidle) rfl).imp_ok ?_)
  intro now c₁ ⟨hsurface, htouched⟩
  refine flush_wrote.imp_ok ?_
  intro _ c₂ hwrote
  have hwrites := hsurface.trans hwrote.surface
  rw [List.append_nil] at hwrites
  refine ⟨hwrites, ?_⟩
  rw [hwrote.touched]
  exact htouched

end Cache

end Redraw
