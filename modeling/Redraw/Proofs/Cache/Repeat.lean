import Mathlib.Data.List.TakeWhile
import Redraw.Proofs.Cache.Acceptance
import Redraw.Proofs.Cache.Writes

namespace Redraw

open CachedShape

/-! ### A probe that refuses nothing -/

namespace Probe

/-- The probe holds the recorder and passes every call on. -/
structure Holds (r : Recorder) (p : Probe Recorder) : Prop where
  inner : p.inner = r
  passes : ∀ op number, p.refuses op number = false

variable {r : Recorder} {p : Probe Recorder}

theorem observe_matches {α : Type} {call : SurfaceCall} {act : EStateM SurfaceError Recorder α}
    (h : Holds r p) : Matches Holds act (observe call act) r p := by
  obtain ⟨rfl, hpasses⟩ := h
  apply Ends.intro
  · intro a r' hrun
    refine ⟨⟨r', p.refuses, p.counts.count call.op, call :: p.calls⟩, ?_, rfl, hpasses⟩
    unfold observe
    dsimp only
    rw [hpasses, if_neg Bool.false_ne_true, hrun]
  · intro e r' hrun
    refine ⟨⟨r', p.refuses, p.counts.count call.op, call :: p.calls⟩, ?_, rfl, hpasses⟩
    unfold observe
    dsimp only
    rw [hpasses, if_neg Bool.false_ne_true, hrun]

theorem twin : Twin Holds where
  create h _ _ := observe_matches h
  geometry h _ := observe_matches h
  setGeometry h _ _ := observe_matches h
  style h _ _ := observe_matches h
  setStyle h _ _ _ := observe_matches h
  setField := by
    intro r p h k field value
    rw [Recorder.setField_eq]
    refine (observe_matches h : Matches Holds _ (observe (.geometry k) _) r p).bind ?_
    intro g r₁ p₁ h₁
    cases g with
    | rect held => exact observe_matches h₁
    | ellipse => exact .throw h₁
    | polygon => exact .throw h₁
  remove h _ _ := observe_matches h

end Probe

namespace Cache

/-! ### One frame on two surfaces -/

section TwoSurfaces

variable {σ τ : Type} [Surface σ] [Recording σ] [Surface τ] {R : σ → τ → Prop} {c : Cache σ}
  {d : Cache τ}

theorem addEach_matches (htwin : Twin R) (requests : List Request) (howning : Owning c)
    (hdrawing : c.isDrawing = true) (h : Paired R c d) :
    Matches (Paired R) (addEach requests) (addEach requests) c d := by
  induction requests generalizing c d with
  | nil => exact .pure h
  | cons request rest ih =>
    unfold addEach
    refine (add_matches htwin request.geometry howning h).bind_of (add_ends howning) ?_
    rintro handle c₁ d₁ ⟨_, hadded⟩ h₁
    have hdrawing₁ : c₁.isDrawing = true := hadded.isDrawing_eq.trans hdrawing
    exact (ih (howning.added hdrawing hadded) hdrawing₁ h₁).bind fun _ _ _ h₂ => .pure h₂

theorem drawFrame_matches (htwin : Twin R) (requests : List Request) (howning : Owning c)
    (h : Paired R c d) :
    Matches (Paired R) (drawFrame requests) (drawFrame requests) c d := by
  obtain ⟨y, hR, rfl⟩ := h
  unfold drawFrame
  have hbegun : Paired R { c with touched := #[] } { c.onto y with touched := #[] } := ⟨y, hR, rfl⟩
  refine .modify_bind ((clear_matches hbegun).bind_of (clear_ends _) ?_)
  rintro _ c₁ d₁ ⟨hidle, rfl⟩ h₁
  have howning₁ := howning.clear hidle
  refine (addEach_matches htwin requests howning₁ rfl h₁).bind_of
    (addEach_continues requests howning₁ rfl) ?_
  rintro now c₂ d₂ ⟨howning₂, _, _⟩ h₂
  exact (flush_matches htwin howning₂ h₂).bind fun _ _ _ h₃ => .pure h₃

end TwoSurfaces

/-! ### Frames that are accepted -/

section Accepted

variable {supported : Option (List StyleKey)} {c : Cache Recorder} {requests : List Request}

/-- A surface that takes these attributes takes the geometry and all attributes of the request. -/
def Accepted (supported : Option (List StyleKey)) (request : Request) : Prop :=
  Recorder.fault? request.geometry = none ∧
    ({ supported := supported } : Recorder).refusedKey? request.style.keys = none

theorem add_accepts {request : Request} (howning : Owning c) (hvetted : c.surface.Vetted supported)
    (hdrawing : c.isDrawing = true) :
    Ends (add request.geometry request.style) c
      (fun _ c' => Accepted supported request ∧ c'.surface.Vetted supported ∧ Owning c' ∧
        c'.isDrawing = true)
      fun _ _ => ¬Accepted supported request := by
  have hjudged : Judged { supported := supported } (add request.geometry request.style) c
      request.geometry request.style :=
    (add_judged howning hvetted.valid hdrawing).congr hvetted.supported
  have hstable := stable_of_matches (add_matches (s := request.style)
    (Recorder.stable_vetted supported).twin request.geometry howning (.self hvetted))
  refine ((hjudged.and hstable).and (add_ends howning)).imp ?_ ?_
  · rintro handle c' ⟨⟨haccepted, hvetted'⟩, _, hadded⟩
    exact ⟨haccepted, hvetted', howning.added hdrawing hadded, hadded.isDrawing_eq.trans hdrawing⟩
  · rintro e c' ⟨⟨⟨hfault, _⟩ | ⟨_, key, hkey, _⟩, _⟩, _⟩ ⟨hvalid, hkeys⟩
    · exact hfault hvalid
    · cases hkeys.symm.trans hkey

theorem addEach_accepts (howning : Owning c) (hvetted : c.surface.Vetted supported)
    (hdrawing : c.isDrawing = true) :
    Ends (addEach requests) c
      (fun _ c' => (∀ request, request ∈ requests → Accepted supported request) ∧ Owning c')
      fun _ _ => ¬∀ request, request ∈ requests → Accepted supported request := by
  induction requests generalizing c with
  | nil => exact Ends.pure ⟨fun _ hmem => absurd hmem List.not_mem_nil, howning⟩
  | cons request rest ih =>
    unfold addEach
    refine Ends.bind ((add_accepts howning hvetted hdrawing).imp ?_ ?_)
    · rintro handle c₁ ⟨haccepted, hvetted₁, howning₁, hdrawing₁⟩
      refine Ends.bind ((ih howning₁ hvetted₁ hdrawing₁).imp ?_ ?_)
      · rintro now c₂ ⟨hrest, howning₂⟩
        exact Ends.pure ⟨List.forall_mem_cons.mpr ⟨haccepted, hrest⟩, howning₂⟩
      · intro e c₂ hnot hall
        exact hnot (List.forall_mem_cons.mp hall).2
    · intro e c₁ hnot hall
      exact hnot (hall request List.mem_cons_self)

/-- A frame is answered exactly if all its requests are accepted. -/
theorem drawFrame_accepts (requests : List Request) (howning : Owning c)
    (hvetted : c.surface.Vetted supported) (hidle : c.isDrawing = false) :
    Ends (drawFrame requests) c
      (fun _ _ => ∀ request, request ∈ requests → Accepted supported request)
      fun _ _ => ¬∀ request, request ∈ requests → Accepted supported request := by
  refine drawFrame_rule hidle ((addEach_accepts (howning.clear hidle) hvetted rfl).imp_ok ?_)
  rintro now c₁ ⟨hall, howning₁⟩
  exact (flush_ends howning₁).imp (fun _ _ _ => hall) fun _ _ h => h.elim

end Accepted

end Cache

/-! ### What the frame before has left -/

def Claim.entry (claim : Claim) : CachedShape := ⟨claim.geometry.kind, claim.handle⟩

def Claim.request (claim : Claim) : Request := ⟨claim.geometry, claim.style⟩

namespace Cache

section Lists

variable {σ : Type} [Surface σ] [Recording σ] {c : Cache σ} {requests : List Request}

theorem addEach_files (requests : List Request) (howning : Owning c)
    (hdrawing : c.isDrawing = true) :
    Ends (addEach requests) c
      (fun now c' => now.map Claim.request = requests ∧
        c'.active.toList = c.active.toList ++ now.map Claim.entry)
      fun _ _ => True := by
  have hends := addEach_induct
    (P := fun requests c now c' => now.map Claim.request = requests ∧
      c'.active.toList = c.active.toList ++ now.map Claim.entry)
    (fun c => ⟨rfl, (List.append_nil _).symm⟩) ?_ requests howning hdrawing
  · exact hends.imp_ok fun _ _ h => h.2.2
  intro request rest handle now c c₁ c₂ _ _ hadded ⟨hrequests, hactive⟩
  refine ⟨congrArg (request :: ·) hrequests, ?_⟩
  rw [hactive, hadded.active_eq, Array.toList_push, List.append_assoc]
  rfl

/-- After a frame the cache holds exactly the answered requests, each with its shape. -/
theorem drawFrame_shows (howning : Owning c) (hidle : c.isDrawing = false) :
    Ends (drawFrame requests) c
      (fun now c' => Owning c' ∧ c'.isDrawing = false ∧ Showing c' now ∧
        now.map Claim.request = requests ∧ c'.active.toList = now.map Claim.entry)
      fun _ _ => True := by
  have hopened := howning.clear hidle
  have hadds := (addEach_showing requests hopened rfl (.nil rfl)).and
    (addEach_files requests hopened rfl)
  refine drawFrame_rule hidle (hadds.imp ?_ fun _ _ _ => trivial)
  intro now c₁ ⟨⟨howning₁, hdrawing₁, hshowing₁⟩, hrequests, hactive⟩
  have hflush := (flush_showing hshowing₁ howning₁ hdrawing₁).and (flush_ends howning₁)
  refine hflush.imp ?_ fun _ _ _ => trivial
  rintro _ c₂ ⟨⟨howning₂, hidle₂, hshowing₂, _⟩, ⟨hidle₁, _⟩ | ⟨_, hreleased⟩⟩
  · cases hdrawing₁.symm.trans hidle₁
  · refine ⟨howning₂, hidle₂, hshowing₂, hrequests, ?_⟩
    rw [hreleased.active]
    exact hactive

end Lists

end Cache

/-! ### Numbers that are numbers -/

def StyleValue.numbers : StyleValue → List Float
  | .bool _ => []
  | .number x => [x]
  | .color c => [c.red, c.green, c.blue, c.alpha]

def Style.numbers (s : Style) : List Float := s.entries.flatMap fun entry => entry.2.numbers

def Request.numbers (request : Request) : List Float :=
  request.geometry.numbers ++ request.style.numbers

theorem StyleValue.beq_self {v : StyleValue} (h : ∀ x, x ∈ v.numbers → x.isNaN = false) :
    (v == v) = true := by
  cases v with
  | bool b =>
    show (b == b) = true
    exact beq_self_eq_true b
  | number x => exact (Number.beq_self_iff x).mpr (h x List.mem_cons_self)
  | color c =>
    show (c == c) = true
    simp only [Color.beq_eq, Bool.and_eq_true, Number.beq_self_iff]
    exact ⟨h _ (by simp [numbers]), h _ (by simp [numbers]), h _ (by simp [numbers]),
      h _ (by simp [numbers])⟩

namespace Cache

/-! ### The same requests once more -/

section Again

variable {r : Recorder} {claim : Claim} {now : List Claim} {shape : StoredShape}

theorem meetings_again (h : ∀ claim, claim ∈ now → Recorder.fault? claim.geometry = none) :
    meetings (now.map Claim.entry) (now.map Claim.request) =
      now.map fun claim => (claim.entry, claim.request) := by
  unfold meetings
  rw [List.zip_map', List.takeWhile_eq_self_iff]
  intro pair hpair
  obtain ⟨claim, hclaim, rfl⟩ := List.mem_map.mp hpair
  exact Geometry.kind_beq_self (h claim hclaim)

theorem styleWrites_fitting {g : Geometry} {s : Style} {handle : Handle} (hfits : shape.Fits g s)
    (hnumbers : ∀ x, x ∈ s.numbers → x.isNaN = false) :
    styleWrites handle shape.style s.entries = [] := by
  unfold styleWrites
  rw [List.map_eq_nil_iff, List.filter_eq_nil_iff]
  rintro ⟨key, value⟩ hentry
  have hvalue : (value == value) = true := by
    apply StyleValue.beq_self
    intro x hx
    exact hnumbers x (List.mem_flatMap.mpr ⟨_, hentry, hx⟩)
  obtain ⟨held, hheld, hworn⟩ := hfits.wears key value ((Style.mem_entries_iff _ _ _).mp hentry)
  have hsame : (some held == some value) = true := by
    rcases hworn with rfl | hequal
    · exact hvalue
    · exact hequal
  rw [hheld, bne, hsame]
  exact Bool.false_ne_true

theorem geometryWrites_shown {held wanted : Geometry} {handle : Handle} (hshows : held.Shows wanted) :
    geometryWrites handle held wanted =
      if wanted.family != .rect then [.setGeometry handle] else [] := by
  cases wanted with
  | rect wanted =>
    cases held with
    | rect held =>
      show fieldWrites handle held wanted RectField.all = []
      unfold fieldWrites
      rw [List.map_eq_nil_iff, List.filter_eq_nil_iff]
      intro field _
      rw [bne, hshows field]
      exact Bool.false_ne_true
    | ellipse => exact hshows.elim
    | polygon => exact hshows.elim
  | ellipse => exact geometryWrites_of_family nofun
  | polygon => exact geometryWrites_of_family nofun

theorem updateWrites_fitting (hfits : shape.Fits claim.geometry claim.style)
    (hnumbers : ∀ x, x ∈ claim.style.numbers → x.isNaN = false) :
    updateWrites claim.handle shape claim.request =
      if claim.geometry.family != .rect then [.setGeometry claim.handle] else [] := by
  show geometryWrites claim.handle shape.geometry claim.geometry ++
    styleWrites claim.handle shape.style claim.style.entries = _
  rw [geometryWrites_shown hfits.shows, styleWrites_fitting hfits hnumbers, List.append_nil]

theorem writes_again
    (hfits : ∀ claim, claim ∈ now → ∃ shape, r.shape? claim.handle = some shape ∧
      shape.Fits claim.geometry claim.style)
    (hnumbers : ∀ claim, claim ∈ now → ∀ x, x ∈ claim.request.numbers → x.isNaN = false) :
    (now.map fun claim => (claim.entry, claim.request)).flatMap (pairWrites r) =
      (now.filter fun claim => claim.geometry.family != .rect).map
        fun claim => .setGeometry claim.handle := by
  induction now with
  | nil => rfl
  | cons claim rest ih =>
    obtain ⟨shape, hshape, hfit⟩ := hfits claim List.mem_cons_self
    have hstyle : ∀ x, x ∈ claim.style.numbers → x.isNaN = false :=
      fun x hx => hnumbers claim List.mem_cons_self x (List.mem_append_right _ hx)
    have hhere : pairWrites r (claim.entry, claim.request) =
        if claim.geometry.family != .rect then [.setGeometry claim.handle] else [] :=
      (pairWrites_of_live hshape).trans (updateWrites_fitting hfit hstyle)
    rw [List.map_cons, List.flatMap_cons, hhere,
      ih (fun other hmem => hfits other (List.mem_cons_of_mem _ hmem))
        fun other hmem => hnumbers other (List.mem_cons_of_mem _ hmem), List.filter_cons]
    split <;> rfl

end Again

/-! ### Exactly what a frame writes -/

def onProbe (supported : Option (List StyleKey)) : Cache (Probe Recorder) :=
  { surface := { inner := { supported := supported } } }

theorem meetings_handles (entries : List CachedShape) (requests : List Request) :
    (meetings entries requests).map (fun pair => pair.1.handle) =
      (handles entries).take (agreeing entries requests) := by
  induction entries generalizing requests with
  | nil => rfl
  | cons entry rest ih =>
    cases requests with
    | nil =>
      rw [agreeing_nil_right, meetings_eq_nil (agreeing_nil_right _)]
      rfl
    | cons request later =>
      by_cases hagree : agree (entry, request) = true
      · rw [meetings_cons hagree, agreeing_cons hagree, List.map_cons, ih later]
        rfl
      · rw [meetings_eq_nil (agreeing_cons_of_not hagree), agreeing_cons_of_not hagree]
        rfl

variable {supported : Option (List StyleKey)} {requests : List Request} {c c' : Cache Recorder}
  {now : List Claim}

/-- The same cache on a recorder and on a probe around it that refuses nothing. -/
structure Observed (c : Cache Recorder) (p : Probe Recorder) : Prop where
  holds : p.Holds c.surface
  owning : Owning c
  observed : Owning (c.onto p)

theorem observed_runAll (supported : Option (List StyleKey)) (ops : List Op) :
    ∃ p, runAll ops (onProbe supported) = (runAll ops (onEmpty supported)).onto p ∧
      Observed (runAll ops (onEmpty supported)) p := by
  have hstart : Owning (onProbe supported) :=
    Owning.start (fun _ => rfl) rfl rfl (shape?_onEmpty supported)
  have hpaired : Paired Probe.Holds (onEmpty supported) (onProbe supported) :=
    ⟨(onProbe supported).surface, ⟨rfl, fun _ _ => rfl⟩, rfl⟩
  obtain ⟨p, hholds, hp⟩ := hpaired.runAll Probe.twin ops (owning_onEmpty supported)
  have howning := hstart.runAll ops
  rw [hp] at howning
  exact ⟨p, hp, hholds, (owning_onEmpty supported).runAll ops, howning⟩

theorem Observed.frame {p : Probe Recorder} (h : Observed c p) (hidle : c.isDrawing = false)
    (hrun : drawFrame requests c = .ok now c') :
    ∃ p', Observed c' p' ∧ drawFrame requests (c.onto p) = .ok now (c'.onto p') ∧
      p.Wrote p' ((meetings c.active.toList requests).flatMap (pairWrites c.surface)) ∧
      now.map Claim.handle =
        (meetings c.active.toList requests).map (fun pair => pair.1.handle) ++
          fresh c.surface.nextId (requests.length - agreeing c.active.toList requests) ∧
      c'.touched.toList =
        ((meetings c.active.toList requests).filter (isTouched c.surface)).map
            (fun pair => pair.1.handle) ++
          fresh c.surface.nextId (requests.length - agreeing c.active.toList requests) := by
  have htable : (c.onto p).table = c.surface := h.holds.inner
  have hmatches := drawFrame_matches Probe.twin requests h.owning ⟨p, h.holds, rfl⟩
  obtain ⟨_, hrun', p', hholds, rfl⟩ := hmatches.of_ok hrun
  obtain ⟨hwrote, htouched⟩ := (drawFrame_inscribes requests h.observed hidle).of_ok hrun'
  rw [htable] at hwrote htouched
  obtain ⟨howning, _⟩ := (drawFrame_shows h.owning hidle).of_ok hrun
  obtain ⟨hobserved, _⟩ := (drawFrame_shows h.observed hidle).of_ok hrun'
  obtain ⟨hanswers, _⟩ := (drawFrame_continues requests h.owning hidle).of_ok hrun
  unfold activeHandles at hanswers
  have hmet := meetings_handles c.active.toList requests
  unfold handles at hmet
  rw [← hmet] at hanswers
  exact ⟨p', ⟨hholds, howning, hobserved⟩, hrun', hwrote, hanswers, htouched⟩

/-- The requests of a frame that was answered are answered again, each with its shape. -/
theorem drawFrame_again (howning : Owning c) (hvetted : c.surface.Vetted supported)
    (hidle : c.isDrawing = false) (hrun : drawFrame requests c = .ok now c')
    (hvetted' : c'.surface.Vetted supported) :
    ∃ again c'', drawFrame requests c' = .ok again c'' ∧ c''.activeHandles = c'.activeHandles ∧
      c''.surface.nextId = c'.surface.nextId ∧ c''.surface.removed = c'.surface.removed ∧
      meetings c'.active.toList requests = now.map fun claim => (claim.entry, claim.request) := by
  have haccepted := (drawFrame_accepts requests howning hvetted hidle).of_ok hrun
  obtain ⟨howning', hidle', _, hrequests, hactive⟩ := (drawFrame_shows howning hidle).of_ok hrun
  have hmeetings : meetings c'.active.toList requests =
      now.map fun claim => (claim.entry, claim.request) := by
    rw [hactive, ← hrequests]
    apply meetings_again
    intro claim hclaim
    exact (haccepted claim.request (hrequests ▸ List.mem_map_of_mem hclaim)).1
  have hagreeing : agreeing c'.active.toList requests = requests.length := by
    show (meetings c'.active.toList requests).length = _
    rw [hmeetings, ← hrequests, List.length_map, List.length_map]
  have hlength : c'.activeHandles.length = requests.length := by
    unfold activeHandles
    rw [hactive, ← hrequests]
    simp only [List.length_map]
  have hends := (drawFrame_accepts requests howning' hvetted' hidle').and
    (drawFrame_continues requests howning' hidle')
  cases hrun' : drawFrame requests c' with
  | error e c'' => exact absurd haccepted (hends.of_error hrun').1
  | ok again c'' =>
    obtain ⟨_, hanswers, hactive'', hnext, hremoved⟩ := hends.of_ok hrun'
    rw [hagreeing, Nat.sub_self] at hanswers hnext
    rw [hagreeing, ← hlength, List.drop_length] at hremoved
    refine ⟨again, c'', rfl, ?_, hnext, hremoved, hmeetings⟩
    rw [hactive'', hanswers, ← hlength, List.take_length]
    exact List.append_nil _

/-- A frame whose requests are all answered, noted by a probe that refuses nothing, writes to each
shape that it uses again the numbers and attributes that differ, and the geometry of an ellipse or a
polygon in any case; nothing else. To be redrawn are the shapes that are no rectangles or were written
to, and then the new ones, in the order of the requests.

If the same requests come once more and none of their numbers is not a number, they are answered, and
nothing but the geometry of ellipses and polygons is written. -/
theorem drawFrame_writes {ops : List Op} (hreached : runAll ops (onEmpty supported) = c)
    (hidle : c.isDrawing = false) (hrun : drawFrame requests c = .ok now c') :
    ∃ p p', runAll ops (onProbe supported) = c.onto p ∧ p.inner = c.surface ∧
      drawFrame requests (c.onto p) = .ok now (c'.onto p') ∧ p'.inner = c'.surface ∧
      p.Wrote p' ((meetings c.active.toList requests).flatMap (pairWrites c.surface)) ∧
      now.map Claim.handle =
        (meetings c.active.toList requests).map (fun pair => pair.1.handle) ++
          fresh c.surface.nextId (requests.length - agreeing c.active.toList requests) ∧
      c'.touched.toList =
        ((meetings c.active.toList requests).filter (isTouched c.surface)).map
            (fun pair => pair.1.handle) ++
          fresh c.surface.nextId (requests.length - agreeing c.active.toList requests) ∧
      c'.touched.toList.Nodup ∧
      ((∀ request, request ∈ requests → ∀ x, x ∈ request.numbers → x.isNaN = false) →
        ∃ again c'' p'', drawFrame requests c' = .ok again c'' ∧
          drawFrame requests (c'.onto p') = .ok again (c''.onto p'') ∧ p''.inner = c''.surface ∧
          c''.activeHandles = c'.activeHandles ∧
          c''.surface.stats.created = c'.surface.stats.created ∧
          c''.surface.removals = c'.surface.removals ∧
          p'.Wrote p'' ((now.filter fun claim => claim.geometry.family != .rect).map
            fun claim => .setGeometry claim.handle)) := by
  obtain ⟨p, hp, hobserved⟩ := observed_runAll supported ops
  rw [hreached] at hp hobserved
  obtain ⟨p', hobserved', hrun', hwrote, hanswers, htouched⟩ := hobserved.frame hidle hrun
  obtain ⟨_, hidle', hshowing, hrequests, _⟩ := (drawFrame_shows hobserved.owning hidle).of_ok hrun
  have hreached' := reached_drawFrame hreached hrun
  have hvetted : ∀ {ops c}, runAll ops (onEmpty supported) = c → c.surface.Vetted supported := by
    rintro ops _ rfl
    exact vetted_runAll supported ops
  have hcounted : ∀ {ops c}, runAll ops (onEmpty supported) = c →
      c.surface.stats.created = c.surface.nextId := by
    rintro ops _ rfl
    exact created_eq_nextId supported ops
  refine ⟨p, p', hp, hobserved.holds.inner, hrun', hobserved'.holds.inner, hwrote, hanswers,
    htouched, ?_, ?_⟩
  · have hnodup := hobserved'.owning.owns.nodup
    unfold owned at hnodup
    rw [handles_append, hshowing.order, hanswers] at hnodup
    rw [htouched]
    exact (List.nodup_append.mp hnodup).1.sublist
      (List.Sublist.append_right (List.filter_sublist.map _) _)
  · intro hnumbers
    obtain ⟨again, c'', hagain, hactive, hnext, hremoved, hmeetings⟩ :=
      drawFrame_again hobserved.owning (hvetted hreached) hidle hrun (hvetted hreached')
    obtain ⟨p'', hobserved'', hagain', hwrote', _⟩ := hobserved'.frame hidle' hagain
    refine ⟨again, c'', p'', hagain, hagain', hobserved''.holds.inner, hactive, ?_, ?_, ?_⟩
    · rw [hcounted hreached', hcounted (reached_drawFrame hreached' hagain), hnext]
    · unfold Recorder.removals
      rw [hremoved]
    · have hnow : ∀ claim, claim ∈ now → ∀ x, x ∈ claim.request.numbers → x.isNaN = false :=
        fun claim hclaim => hnumbers claim.request (hrequests ▸ List.mem_map_of_mem hclaim)
      have hwrites := writes_again (r := c'.surface) hshowing.fits hnow
      rwa [hmeetings, hwrites] at hwrote'

/-- Three requests after the three of `drawn`: a wider rectangle that is to be filled, the ellipse at
another place, and a rectangle where a polygon was. -/
def restyled : List Request :=
  [⟨.rect ⟨0.0, 0.0, 3.0, 1.0⟩, { fill := some (.bool true) }⟩, ⟨.ellipse 5.0 0.0 2.0 2.0, {}⟩,
    ⟨.rect ⟨0.0, 0.0, 1.0, 1.0⟩, {}⟩]

theorem drawFrame_writes_restyled :
    ∃ c now c', runAll drawn (onEmpty none) = c ∧ c.isDrawing = false ∧
      drawFrame restyled c = .ok now c' ∧ c'.touched.toList = [⟨0⟩, ⟨1⟩, ⟨3⟩] ∧
      ∃ p p' p'' : Probe Recorder, runAll drawn (onProbe none) = c.onto p ∧
        drawFrame restyled (c.onto p) = .ok now (c'.onto p') ∧
        p'.writes = p.writes ++ [.setGeometry ⟨0⟩, .setStyle ⟨0⟩ .fill, .setGeometry ⟨1⟩] ∧
        ∃ again c'', drawFrame restyled c' = .ok again c'' ∧ p''.inner = c''.surface ∧
          p''.writes = p'.writes ++ [.setGeometry ⟨1⟩] := by
  have hidle : (runAll drawn (onEmpty none)).isDrawing = false := by decide +kernel
  have hanswered : passes (drawFrame restyled) (runAll drawn (onEmpty none)) (fun now _ =>
      (now.filter fun claim => claim.geometry.family != .rect).map
        (fun claim => SurfaceCall.setGeometry claim.handle) == [.setGeometry ⟨1⟩]) = true := by
    decide +kernel
  have hnumbers : ∀ request, request ∈ restyled → ∀ x, x ∈ request.numbers → x.isNaN = false := by
    decide +kernel
  obtain ⟨now, hrun, hround⟩ := ok_of_passes hanswered
  obtain ⟨p, p', hp, _, hrun', _, hwrote, _, htouched, _, hagain⟩ := drawFrame_writes rfl hidle hrun
  obtain ⟨again, c'', p'', hrun'', _, hinner, _, _, _, hwrote'⟩ := hagain hnumbers
  have hwrites := hwrote'.writes
  rw [eq_of_beq hround] at hwrites
  refine ⟨_, now, _, rfl, hidle, hrun, htouched.trans ?_, p, p', p'', hp, hrun',
    hwrote.writes.trans ?_, again, c'', hrun'', hinner, hwrites⟩
  · decide +kernel
  · have hmet : (meetings (runAll drawn (onEmpty none)).active.toList restyled).flatMap
        (pairWrites (runAll drawn (onEmpty none)).surface) =
        [.setGeometry ⟨0⟩, .setStyle ⟨0⟩ .fill, .setGeometry ⟨1⟩] := by decide +kernel
    rw [hmet]

end Cache

end Redraw
