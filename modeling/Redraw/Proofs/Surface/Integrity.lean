import Mathlib.Data.List.Induction
import Redraw.Proofs.Surface.Keeping

namespace Redraw

namespace Recorder

variable {r r' start : Recorder} {handle k : Handle} {shape : StoredShape} {B : Recorder → Prop}
  {supported : Option (List StyleKey)}

/-! ### Calls as data -/

inductive Call where
  | create (g : Geometry) (s : Style)
  | geometry (handle : Handle)
  | setGeometry (handle : Handle) (g : Geometry)
  | setField (handle : Handle) (field : RectField) (value : Float)
  | style (handle : Handle) (key : StyleKey)
  | setStyle (handle : Handle) (key : StyleKey) (value : StyleValue)
  | remove (handle : Handle)
  deriving Repr

def Call.run : Call → EStateM SurfaceError Recorder Unit
  | .create g s => do let _ ← Surface.create g s
  | .geometry handle => do let _ ← Surface.geometry handle
  | .setGeometry handle g => Surface.setGeometry handle g
  | .setField handle field value => Surface.setField handle field value
  | .style handle key => do let _ ← Surface.style handle key
  | .setStyle handle key value => Surface.setStyle handle key value
  | .remove handle => Surface.remove handle

/-- The recorder after calls that follow one another whether or not they are answered. -/
def afterAll (r : Recorder) (calls : List Call) : Recorder :=
  calls.foldl (fun r call => stateAfter call.run r) r

/-- What an answered call has done: it has changed the one shape that it names, or it only read. -/
def Call.Did (r r' : Recorder) : Call → Prop
  | .create g s => r.Created r' ⟨r.nextId⟩ ⟨g, s⟩
  | .setGeometry handle g => ∃ shape, r.shape? handle = some shape ∧
      shape.geometry.family = g.family ∧ r.Rewritten r' handle { shape with geometry := g }
  | .setField handle field value => ∃ shape held, r.shape? handle = some shape ∧
      shape.geometry = .rect held ∧
      r.Rewritten r' handle { shape with geometry := .rect (held.set field value) }
  | .setStyle handle key value => ∃ shape, r.shape? handle = some shape ∧
      r.Rewritten r' handle { shape with style := shape.style.set key value }
  | .remove handle => (r.shape? handle).isSome = true ∧ r.Removed r' [handle]
  | .geometry _ | .style _ _ => r' = r

/-- As what a call is counted; to write one number of a rectangle is to write its geometry. -/
def Call.counted : Call → SurfaceCall
  | .create g _ => .create g.family
  | .geometry handle => .geometry handle
  | .setGeometry handle _ | .setField handle _ _ => .setGeometry handle
  | .style handle key => .style handle key
  | .setStyle handle key _ => .setStyle handle key
  | .remove handle => .remove handle

theorem afterAll_concat (r : Recorder) (calls : List Call) (call : Call) :
    r.afterAll (calls ++ [call]) = stateAfter call.run (r.afterAll calls) := List.foldl_append

/-! ### One call -/

theorem setField_ends (handle : Handle) (field : RectField) (value : Float) (r : Recorder) :
    Ends (Surface.setField handle field value) r
      (fun _ r' => ∃ held : Rect, setGeometry handle (.rect (held.set field value)) r = .ok () r')
      fun _ r' => r' = r := by
  rw [setField_eq]
  refine Ends.bind (Ends.intro ?_ fun _ _ => geometry_error)
  intro g r₁ hread
  rw [(geometry_ok hread).1]
  cases g with
  | rect held => exact Ends.intro (fun _ _ hwrite => ⟨held, hwrite⟩) fun _ _ => setGeometry_error
  | ellipse => exact Ends.throw rfl
  | polygon => exact Ends.throw rfl

theorem live_of_remove_ok (h : remove handle r = .ok () r') : (r.shape? handle).isSome = true := by
  unfold remove at h
  split at h
  · cases h
  · next hshape =>
    rw [hshape]
    rfl

/-- A call that is answered has done what it is for and is counted; one that is refused has done
nothing. -/
theorem Call.run_ends (call : Call) (r : Recorder) :
    Ends call.run r (fun _ r' => call.Did r r' ∧ r'.stats = r.stats.count call.counted)
      fun _ r' => r' = r := by
  cases call with
  | create g s =>
    refine Ends.bind (Ends.intro ?_ fun _ _ => create_error)
    intro handle r' hrun
    obtain ⟨-, -, hcreated⟩ := create_ok hrun
    obtain rfl := hcreated.handle_eq
    exact Ends.pure ⟨hcreated, create_stats hrun⟩
  | geometry handle =>
    refine Ends.bind (Ends.intro ?_ fun _ _ => geometry_error)
    intro _ r' hrun
    obtain ⟨rfl, -⟩ := geometry_ok hrun
    exact Ends.pure ⟨rfl, rfl⟩
  | setGeometry handle g =>
    refine Ends.intro ?_ fun _ _ => setGeometry_error
    intro _ r' hrun
    obtain ⟨-, shape, hshape, hfamily, hwritten⟩ := setGeometry_ok hrun
    exact ⟨⟨shape, hshape, hfamily, hwritten⟩, setGeometry_stats hrun⟩
  | setField handle field value =>
    refine Ends.intro ?_ fun _ _ hrun => (setField_ends handle field value r).of_error hrun
    intro _ r' hrun
    obtain ⟨shape, held, hshape, hheld, -, hwritten⟩ := setField_ok hrun
    obtain ⟨_, hwrite⟩ := (setField_ends handle field value r).of_ok hrun
    exact ⟨⟨shape, held, hshape, hheld, hwritten⟩, setGeometry_stats hwrite⟩
  | style handle key =>
    refine Ends.bind (Ends.intro ?_ fun _ _ => style_error)
    intro _ r' hrun
    obtain ⟨rfl, -⟩ := style_ok hrun
    exact Ends.pure ⟨rfl, rfl⟩
  | setStyle handle key value =>
    refine Ends.intro ?_ fun _ _ => setStyle_error
    intro _ r' hrun
    exact ⟨setStyle_ok hrun, setStyle_stats hrun⟩
  | remove handle =>
    refine Ends.intro ?_ fun _ _ => remove_error
    intro _ r' hrun
    exact ⟨⟨live_of_remove_ok hrun, remove_ok hrun⟩, remove_stats hrun⟩

theorem keeps_of_answered {α : Type} {step : EStateM SurfaceError Recorder α}
    (hok : ∀ {a r r'}, step r = .ok a r' → B r → B r')
    (herror : ∀ {e r r'}, step r = .error e r' → r' = r) : Keeps B step := by
  intro r hB
  exact Ends.intro (fun _ _ hrun => hok hrun hB) fun _ _ hrun => herror hrun ▸ hB

theorem Stable.call (h : Stable B) (call : Call) : Keeps B call.run := by
  cases call with
  | create => exact (keeps_of_answered h.create create_error).bind fun _ => .pure ()
  | geometry =>
    refine (keeps_of_answered ?_ geometry_error).bind fun _ => .pure ()
    exact fun hrun hB => (geometry_ok hrun).1 ▸ hB
  | setGeometry => exact keeps_of_answered h.setGeometry setGeometry_error
  | setField handle field value =>
    intro r hB
    refine (setField_ends handle field value r).imp ?_ fun _ _ hsame => hsame ▸ hB
    exact fun _ _ ⟨_, hwrite⟩ => h.setGeometry hwrite hB
  | style =>
    refine (keeps_of_answered ?_ style_error).bind fun _ => .pure ()
    exact fun hrun hB => (style_ok hrun).1 ▸ hB
  | setStyle => exact keeps_of_answered h.setStyle setStyle_error
  | remove => exact keeps_of_answered h.remove remove_error

theorem Stable.afterAll (h : Stable B) (hB : B r) (calls : List Call) : B (r.afterAll calls) := by
  induction calls generalizing r with
  | nil => exact hB
  | cons call rest ih => exact ih (h.call call r hB).stateAfter

/-! ### Handles of removed shapes -/

/-- A shape that was removed is gone for good. -/
structure Struck (r : Recorder) : Prop extends Balanced r where
  once : r.removed.Nodup
  gone : ∀ k, k ∈ r.removed → r.shape? k = none ∧ k.id < r.nextId

theorem Struck.write (h : r.Struck) (hbalanced : r'.Balanced) (hshape : r.shape? handle = some shape)
    {shape' : StoredShape} (hwritten : r.Rewritten r' handle shape') : r'.Struck := by
  refine ⟨hbalanced, hwritten.removed ▸ h.once, ?_⟩
  intro k hk
  rw [hwritten.removed] at hk
  obtain ⟨hnone, hbelow⟩ := h.gone k hk
  have hne : k ≠ handle := by
    rintro rfl
    cases hnone.symm.trans hshape
  rw [hwritten.elsewhere hne, hwritten.nextId]
  exact ⟨hnone, hbelow⟩

theorem stable_struck : Stable Struck where
  create := by
    intro g s handle r r' hrun h
    obtain ⟨-, -, hcreated⟩ := create_ok hrun
    refine ⟨stable_balanced.create hrun h.toBalanced, hcreated.removed ▸ h.once, ?_⟩
    intro k hk
    rw [hcreated.removed] at hk
    obtain ⟨hnone, hbelow⟩ := h.gone k hk
    have hne : k ≠ handle := by
      rintro rfl
      rw [hcreated.handle_eq] at hbelow
      exact Nat.lt_irrefl _ hbelow
    rw [hcreated.elsewhere hne, hcreated.nextId]
    exact ⟨hnone, Nat.lt_succ_of_lt hbelow⟩
  setGeometry := by
    intro handle g r r' hrun h
    obtain ⟨-, shape, hshape, -, hwritten⟩ := setGeometry_ok hrun
    exact h.write (stable_balanced.setGeometry hrun h.toBalanced) hshape hwritten
  setStyle := by
    intro handle key value r r' hrun h
    obtain ⟨shape, hshape, hwritten⟩ := setStyle_ok hrun
    exact h.write (stable_balanced.setStyle hrun h.toBalanced) hshape hwritten
  remove := by
    intro handle r r' hrun h
    have hremoved := remove_ok hrun
    have hlive := live_of_remove_ok hrun
    have hlist : r'.removed = handle :: r.removed := hremoved.removed
    refine ⟨stable_balanced.remove hrun h.toBalanced, ?_, ?_⟩
    · rw [hlist]
      refine List.nodup_cons.mpr ⟨?_, h.once⟩
      intro hmem
      rw [(h.gone handle hmem).1] at hlive
      cases hlive
    · intro k hk
      rw [hremoved.shape?, hremoved.nextId]
      rw [hlist] at hk
      rcases List.mem_cons.mp hk with rfl | hmem
      · exact ⟨if_pos List.mem_cons_self, h.below _ hlive⟩
      · obtain ⟨hnone, hbelow⟩ := h.gone k hmem
        rw [hnone]
        exact ⟨ite_self none, hbelow⟩

/-! ### Attributes of live shapes -/

def Takes (r : Recorder) (s : Style) : Prop :=
  ∀ key, (s.get? key).isSome = true → r.supports key = true

theorem Takes.congr {s : Style} (h : r.Takes s) (hsupported : r'.supported = r.supported) :
    r'.Takes s := by
  intro key hkey
  have hsame : r'.supports key = r.supports key := by
    unfold supports
    rw [hsupported]
  exact hsame.trans (h key hkey)

theorem takes_of_unsupported? {s : Style} (h : r.unsupported? s = none) : r.Takes s := by
  intro key hkey
  obtain ⟨value, hvalue⟩ := Option.isSome_iff_exists.mp hkey
  have hmem : key ∈ s.entries.map Prod.fst :=
    List.mem_map_of_mem (f := Prod.fst) ((s.mem_entries_iff key value).mpr hvalue)
  have htaken := List.find?_eq_none.mp h key hmem
  rwa [Bool.not_eq_true', Bool.not_eq_false] at htaken

theorem supports_of_setStyle_ok {key : StyleKey} {value : StyleValue}
    (h : setStyle handle key value r = .ok () r') : r.supports key = true := by
  unfold setStyle at h
  split at h
  · cases h
  · cases h
  · assumption

/-- The surface takes these attributes, and live shapes have no others. -/
structure Keyed (supported : Option (List StyleKey)) (r : Recorder) : Prop where
  supported : r.supported = supported
  takes : ∀ k shape, r.shape? k = some shape → r.Takes shape.style

theorem Keyed.placed (h : r.Keyed supported) (hplaced : r.Placed r' handle shape)
    (htakes : r.Takes shape.style) : r'.Keyed supported := by
  refine ⟨hplaced.supported.trans h.supported, ?_⟩
  intro k held hheld
  refine Takes.congr ?_ hplaced.supported
  rcases hplaced.found hheld with ⟨-, rfl⟩ | hbefore
  · exact htakes
  · exact h.takes k held hbefore

theorem stable_keyed (supported : Option (List StyleKey)) : Stable (Keyed supported) where
  create := by
    intro g s handle r r' hrun h
    obtain ⟨-, hkeys, hcreated⟩ := create_ok hrun
    exact h.placed hcreated.toPlaced (takes_of_unsupported? hkeys)
  setGeometry := by
    intro handle g r r' hrun h
    obtain ⟨-, shape, hshape, -, hwritten⟩ := setGeometry_ok hrun
    exact h.placed hwritten.toPlaced (h.takes _ shape hshape)
  setStyle := by
    intro handle key value r r' hrun h
    obtain ⟨shape, hshape, hwritten⟩ := setStyle_ok hrun
    refine h.placed hwritten.toPlaced ?_
    intro key' hkey
    dsimp only at hkey
    rw [Style.get?_set] at hkey
    split at hkey
    · next heq =>
      rw [heq]
      exact supports_of_setStyle_ok hrun
    · exact h.takes _ shape hshape key' hkey
  remove := by
    intro handle r r' hrun h
    have hremoved := remove_ok hrun
    exact ⟨hremoved.supported.trans h.supported, fun k shape hshape =>
      (h.takes k shape (hremoved.found hshape)).congr hremoved.supported⟩

/-! ### Where live shapes come from -/

/-- A call of the run has made the shape, and it is still of the family it was made with. -/
def MadeBy (start : Recorder) (calls : List Call) (k : Handle) (shape : StoredShape) : Prop :=
  ∃ before g s after, calls = before ++ .create g s :: after ∧
    create g s (start.afterAll before) = .ok k (start.afterAll (before ++ [.create g s])) ∧
    shape.geometry.family = g.family

theorem MadeBy.concat {calls : List Call} (h : MadeBy start calls k shape) (call : Call)
    {shape' : StoredShape} (hfamily : shape'.geometry.family = shape.geometry.family) :
    MadeBy start (calls ++ [call]) k shape' := by
  obtain ⟨before, g, s, after, rfl, hmade, hsame⟩ := h
  exact ⟨before, g, s, after ++ [call], by simp, hmade, hfamily.trans hsame⟩

theorem Rewritten.family {shape' : StoredShape} (h : r.Rewritten r' handle shape')
    (hshape : r.shape? handle = some shape)
    (hfamily : shape'.geometry.family = shape.geometry.family) {held' : StoredShape}
    (hheld' : r'.shape? k = some held') :
    ∃ held, r.shape? k = some held ∧ held'.geometry.family = held.geometry.family := by
  rcases h.found hheld' with ⟨rfl, rfl⟩ | hbefore
  · exact ⟨shape, hshape, hfamily⟩
  · exact ⟨held', hbefore, rfl⟩

theorem Call.Did.family {call : Call} (h : call.Did r r') {held' : StoredShape}
    (hheld' : r'.shape? k = some held') :
    (∃ held, r.shape? k = some held ∧ held'.geometry.family = held.geometry.family) ∨
      ∃ g s, call = .create g s ∧ k = ⟨r.nextId⟩ ∧ held'.geometry.family = g.family := by
  cases call with
  | create g s =>
    rcases h.found hheld' with ⟨rfl, rfl⟩ | hbefore
    · exact Or.inr ⟨g, s, rfl, rfl, rfl⟩
    · exact Or.inl ⟨held', hbefore, rfl⟩
  | setGeometry handle g =>
    obtain ⟨shape, hshape, hfamily, hwritten⟩ := h
    exact Or.inl (hwritten.family hshape hfamily.symm hheld')
  | setField handle field value =>
    obtain ⟨shape, held, hshape, hheld, hwritten⟩ := h
    refine Or.inl (hwritten.family hshape ?_ hheld')
    rw [hheld]
    rfl
  | setStyle handle key value =>
    obtain ⟨shape, hshape, hwritten⟩ := h
    exact Or.inl (hwritten.family hshape rfl hheld')
  | remove handle => exact Or.inl ⟨held', h.2.found hheld', rfl⟩
  | geometry => exact Or.inl ⟨held', h ▸ hheld', rfl⟩
  | style => exact Or.inl ⟨held', h ▸ hheld', rfl⟩

theorem madeBy_afterAll (hempty : ∀ k, start.shape? k = none) (calls : List Call)
    (hshape : (start.afterAll calls).shape? k = some shape) : MadeBy start calls k shape := by
  -- From the last call back: what is live before it has been made by one of the calls before it.
  induction calls using List.reverseRecOn generalizing shape with
  | nil => cases (hempty k).symm.trans hshape
  | append_singleton calls call ih =>
    rw [afterAll_concat] at hshape
    rcases (call.run_ends (start.afterAll calls)).outcome with ⟨_, hrun, hdid, -⟩ | ⟨_, -, hsame⟩
    · rcases hdid.family hshape with ⟨held, hheld, hfamily⟩ | ⟨g, s, rfl, rfl, hfamily⟩
      · exact (ih hheld).concat call hfamily
      · obtain ⟨handle, _, hcreate, hpure⟩ := ok_of_bind hrun
        cases hpure
        obtain ⟨-, -, hcreated⟩ := create_ok hcreate
        refine ⟨calls, g, s, [], rfl, ?_, hfamily⟩
        rw [afterAll_concat, ← hcreated.handle_eq]
        exact hcreate
    · rw [hsame] at hshape
      exact (ih hshape).concat call rfl

/-! ### Any run -/

/-- Whatever calls were made on a surface that was empty at first: a refused call leaves it as it is and
an answered one does one thing; the shapes that were created are live or removed, and their handles are
the numbers below the next one; no handle is removed twice, and none that is removed is live; live shapes
have valid geometries, of the family they were created with, and no attributes that the surface does not
take. -/
theorem afterAll_intact (supported : Option (List StyleKey)) (calls : List Call) :
    let start : Recorder := { supported := supported }
    let r := start.afterAll calls
    (∀ call : Call, Ends call.run r
      (fun _ r' => call.Did r r' ∧ r'.stats = r.stats.count call.counted) fun _ r' => r' = r) ∧
    r.stats.created = r.liveCount + r.stats.removed ∧ r.nextId = r.stats.created ∧
    (∀ k, (r.shape? k).isSome = true ∨ k ∈ r.removals → k.id < r.nextId) ∧
    r.removals.Nodup ∧ (∀ k, k ∈ r.removals → r.shape? k = none) ∧
    ∀ k shape, r.shape? k = some shape → ¬shape.geometry.Invalid ∧
      (∀ key, (shape.style.get? key).isSome = true → start.supports key = true) ∧
      MadeBy start calls k shape := by
  intro start r
  have hempty : ∀ k, start.shape? k = none := fun _ => Std.TreeMap.getElem?_emptyc
  have hnone : ∀ {k shape} {p : Prop}, start.shape? k = some shape → p := by
    intro k shape p hshape
    cases (hempty k).symm.trans hshape
  have hbalanced : start.Balanced := by
    refine ⟨?_, rfl⟩
    intro k hk
    rw [hempty] at hk
    cases hk
  have hstruck : r.Struck :=
    stable_struck.afterAll ⟨hbalanced, List.nodup_nil, fun _ hmem => nomatch hmem⟩ calls
  have hcounted : r.stats.created = r.nextId := stable_counted.afterAll rfl calls
  have hvetted : r.Vetted supported :=
    (stable_vetted supported).afterAll ⟨rfl, fun _ _ => hnone⟩ calls
  have hkeyed : r.Keyed supported :=
    (stable_keyed supported).afterAll ⟨rfl, fun _ _ => hnone⟩ calls
  refine ⟨fun call => call.run_ends r, hstruck.count, hcounted.symm, ?_, ?_, ?_, ?_⟩
  · rintro k (hlive | hremoved)
    · exact hstruck.below k hlive
    · exact (hstruck.gone k (List.mem_reverse.mp hremoved)).2
  · exact (List.reverse_perm _).nodup_iff.mpr hstruck.once
  · exact fun k hk => (hstruck.gone k (List.mem_reverse.mp hk)).1
  · intro k shape hshape
    refine ⟨?_, ?_, madeBy_afterAll hempty calls hshape⟩
    · rw [invalid_iff, not_not]
      exact hvetted.valid k shape hshape
    · exact (hkeyed.takes k shape hshape).congr hkeyed.supported.symm

/-- A rectangle is made and removed, then an ellipse is made; a size below zero, a change of family and a
second removal are refused. -/
def churned : List Call :=
  [.create (.rect ⟨0.0, 0.0, 1.0, 1.0⟩) {}, .setField ⟨0⟩ .width (-1.0), .remove ⟨0⟩,
    .create (.ellipse 0.0 0.0 2.0 2.0) {}, .setGeometry ⟨1⟩ (.rect ⟨0.0, 0.0, 1.0, 1.0⟩), .remove ⟨0⟩]

theorem afterAll_intact_churned :
    let r := (supporting []).afterAll churned
    r.stats = { created := 2, removed := 1 } ∧ r.removals = [⟨0⟩] ∧ r.liveCount = 1 ∧
      ∃ shape, r.shape? ⟨1⟩ = some shape ∧ MadeBy (supporting []) churned ⟨1⟩ shape := by
  intro r
  obtain ⟨-, hcount, -, -, -, -, hlive⟩ := afterAll_intact (some []) churned
  have hstats : r.stats = { created := 2, removed := 1 } := by decide +kernel
  have hshape : (r.shape? ⟨1⟩).isSome = true := by decide +kernel
  obtain ⟨shape, hshape⟩ := Option.isSome_iff_exists.mp hshape
  have hone : r.liveCount = 1 := by
    have hcount' : r.stats.created = r.liveCount + r.stats.removed := hcount
    rw [hstats] at hcount'
    exact (Nat.succ.inj hcount').symm
  exact ⟨hstats, by decide +kernel, hone, shape, hshape, (hlive ⟨1⟩ shape hshape).2.2⟩

end Recorder

end Redraw
