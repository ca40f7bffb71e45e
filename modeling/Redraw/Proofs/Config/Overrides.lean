import Redraw.Config.Basic

namespace Redraw

/-! ### Ranges -/

namespace Config

structure WithinRanges (c : Config) : Prop where
  width : 1 ≤ c.canvas.width ∧ c.canvas.width ≤ 10000
  height : 1 ≤ c.canvas.height ∧ c.canvas.height ≤ 10000
  framerate : 1 ≤ c.animation.framerate ∧ c.animation.framerate ≤ 240
  skipFrames : c.animation.skipFrames ≤ 10000
  gridSubdivisions : 1 ≤ c.batching.gridSubdivisions ∧ c.batching.gridSubdivisions ≤ 1000000

theorem withinRanges_iff (c : Config) :
    c.WithinRanges ↔ ∀ setting : RangedSetting, setting.inRange (c.get setting) = true := by
  constructor
  · intro h setting
    rw [RangedSetting.inRange_iff]
    cases setting with
    | canvasWidth => exact h.width
    | canvasHeight => exact h.height
    | framerate => exact h.framerate
    | skipFrames => exact ⟨Nat.zero_le _, h.skipFrames⟩
    | gridSubdivisions => exact h.gridSubdivisions
  · intro h
    simp only [RangedSetting.inRange_iff] at h
    exact ⟨h .canvasWidth, h .canvasHeight, h .framerate, (h .skipFrames).2, h .gridSubdivisions⟩

theorem withinRanges_clamped (c : Config) : c.clamped.WithinRanges := by
  rw [withinRanges_iff]
  intro setting
  rw [get_clamped]
  exact setting.inRange_clamp _

theorem outOfRange_mem_warnings_iff (c : Config) (setting : RangedSetting) (value : Nat) :
    .outOfRange setting value ∈ c.warnings ↔
      value = c.get setting ∧ setting.inRange value = false := by
  have hframes : .outOfRange setting value ∉ if c.animation.frames = 0 then
      [ConfigWarning.noFrames] else [] := by
    split <;> simp
  unfold warnings rangeWarnings
  rw [List.mem_append, or_iff_left hframes, List.mem_map]
  constructor
  · rintro ⟨_, hout, heq⟩
    injection heq with hsetting hvalue
    subst hsetting hvalue
    exact ⟨rfl, by simpa using (List.mem_filter.mp hout).2⟩
  · rintro ⟨rfl, hout⟩
    exact ⟨setting, List.mem_filter.mpr ⟨setting.mem_all, by simp [hout]⟩, rfl⟩

end Config

/-! ### Overrides put together -/

namespace RangedSetting

theorem clamp_eq_self_iff (setting : RangedSetting) (value : Nat) :
    setting.clamp value = value ↔ setting.inRange value = true := by
  constructor
  · intro h
    rw [← h]
    exact setting.inRange_clamp value
  · intro h
    exact clamp_eq_self h

theorem clamp_clamp (setting : RangedSetting) (value : Nat) :
    setting.clamp (setting.clamp value) = setting.clamp value :=
  clamp_eq_self (setting.inRange_clamp value)

end RangedSetting

namespace Overrides

/-- The overrides of which each setting takes the last that was given, and debugging is on if it was
ever turned on. -/
def lastGiven (calls : List Overrides) : Overrides where
  frames := (calls.filterMap frames).getLast?
  skipFrames := (calls.filterMap skipFrames).getLast?
  debug := calls.any debug

def andThen (o later : Overrides) : Overrides where
  frames := later.frames.or o.frames
  skipFrames := later.skipFrames.or o.skipFrames
  debug := o.debug || later.debug

theorem getLast?_filterMap_cons {α β : Type} (f : α → Option β) (a : α) (rest : List α) :
    ((a :: rest).filterMap f).getLast? = ((rest.filterMap f).getLast?).or (f a) := by
  cases h : f a with
  | none => rw [List.filterMap_cons_none h, Option.or_none]
  | some b =>
    rw [List.filterMap_cons_some h, List.getLast?_cons]
    cases (rest.filterMap f).getLast? <;> rfl

theorem lastGiven_cons (o : Overrides) (rest : List Overrides) :
    lastGiven (o :: rest) = o.andThen (lastGiven rest) := by
  simp only [lastGiven, andThen, getLast?_filterMap_cons, List.any_cons]

end Overrides

namespace Config

/-- Overrides given one after another, with a check after each. -/
def overrideAll (c : Config) (calls : List Overrides) : Config :=
  calls.foldl (fun c o => (c.applyOverrides o).1) c

variable {calls : List Overrides}

theorem override_override (c : Config) (o later : Overrides) :
    (c.override o).override later = c.override (o.andThen later) := by
  cases o with
  | mk frames skipFrames debug =>
    cases later with
    | mk frames' skipFrames' debug' =>
      cases frames' <;> cases skipFrames' <;>
        simp [override, Overrides.andThen, Bool.or_assoc]

theorem override_lastGiven_nil (c : Config) : c.override (Overrides.lastGiven []) = c := by
  simp [override, Overrides.lastGiven]

/-- A check before the overrides is undone by the check after them. -/
theorem clamped_override_clamped (c : Config) (o : Overrides) :
    (c.clamped.override o).clamped = (c.override o).clamped := by
  have hskip : RangedSetting.skipFrames.clamp
        (o.skipFrames.getD (RangedSetting.skipFrames.clamp c.animation.skipFrames)) =
      RangedSetting.skipFrames.clamp (o.skipFrames.getD c.animation.skipFrames) := by
    cases o.skipFrames with
    | none => exact RangedSetting.clamp_clamp _ _
    | some skipFrames => rfl
  simp only [clamped, override, RangedSetting.clamp_clamp, hskip]

theorem overrideAll_cons (c : Config) (o : Overrides) (rest : List Overrides) :
    c.overrideAll (o :: rest) = (c.override o).clamped.overrideAll rest := rfl

/-- Overrides in a row come to the same as their last words at once. -/
theorem overrideAll_eq (c : Config) (h : calls ≠ []) :
    c.overrideAll calls = (c.override (Overrides.lastGiven calls)).clamped := by
  induction calls generalizing c with
  | nil => exact absurd rfl h
  | cons o rest ih =>
    rw [overrideAll_cons, Overrides.lastGiven_cons, ← override_override]
    by_cases hrest : rest = []
    · subst hrest
      rw [override_lastGiven_nil]
      rfl
    · rw [ih _ hrest, clamped_override_clamped]

theorem overrideAll_keeps (c : Config) (calls : List Overrides) :
    (c.overrideAll calls).canvas.background = c.canvas.background ∧
      (c.overrideAll calls).batching.enabled = c.batching.enabled ∧
      (c.overrideAll calls).animation.realtime = c.animation.realtime := by
  induction calls generalizing c with
  | nil => exact ⟨rfl, rfl, rfl⟩
  | cons o rest ih => exact ih (c.override o).clamped

/-- After each of several overrides in a row the settings are in their ranges, and after the last one
they are what a single override with the last words gives; the background, batching as such and the
pace are those of the beginning. A check changes a setting with a range, and tells of it, exactly if it
is out of that range, and leaves the frames and debugging as they were given. -/
theorem overrides_collapse (c : Config) (h : calls ≠ []) :
    c.overrideAll calls = (c.applyOverrides (Overrides.lastGiven calls)).1 ∧
      (∀ done, done ≠ [] → done <+: calls → (c.overrideAll done).WithinRanges) ∧
      (∀ done, done <+: calls →
        (c.overrideAll done).canvas.background = c.canvas.background ∧
        (c.overrideAll done).batching.enabled = c.batching.enabled ∧
        (c.overrideAll done).animation.realtime = c.animation.realtime) ∧
      ∀ o : Overrides,
        (c.applyOverrides o).1.animation.frames = o.frames.getD c.animation.frames ∧
        (c.applyOverrides o).1.animation.debug = (c.animation.debug || o.debug) ∧
        ∀ setting : RangedSetting,
          ((c.applyOverrides o).1.get setting = (c.override o).get setting ↔
            setting.inRange ((c.override o).get setting) = true) ∧
          ∀ value, .outOfRange setting value ∈ (c.applyOverrides o).2 ↔
            value = (c.override o).get setting ∧ setting.inRange value = false := by
  refine ⟨overrideAll_eq c h, ?_, fun done _ => overrideAll_keeps c done, ?_⟩
  · intro done hdone _
    rw [overrideAll_eq c hdone]
    exact withinRanges_clamped _
  · intro o
    refine ⟨rfl, rfl, ?_⟩
    intro setting
    refine ⟨?_, outOfRange_mem_warnings_iff (c.override o) setting⟩
    show (c.override o).clamped.get setting = _ ↔ _
    rw [get_clamped]
    exact setting.clamp_eq_self_iff _

/-- The frames are given in the first call, and the frames to skip in both, once beyond their range. -/
theorem overrides_collapse_twice :
    let c : Config := { canvas := { width := 0 }, animation := { framerate := 1000 } }
    let first : Overrides := ⟨some 7, some 20000, true⟩
    let second : Overrides := ⟨none, some 3, false⟩
    [first, second] ≠ [] ∧
      c.overrideAll [first, second] =
        { canvas := { width := 1 }
          animation := { frames := 7, framerate := 240, skipFrames := 3, debug := true } } ∧
      [first] ≠ [] ∧ [first] <+: [first, second] ∧ (c.overrideAll [first]).WithinRanges ∧
      .outOfRange .skipFrames 20000 ∈ (c.applyOverrides first).2 ∧
      .outOfRange .skipFrames 3 ∉ (c.applyOverrides second).2 := by
  intro c first second
  have hprefix : [first] <+: [first, second] := ⟨[second], rfl⟩
  have hcalls : [first, second] ≠ [] := by decide
  obtain ⟨hsame, hranges, -, hchecks⟩ := c.overrides_collapse hcalls
  refine ⟨hcalls, hsame.trans (by decide), by decide, hprefix, hranges _ (by decide) hprefix, ?_, ?_⟩
  · exact (((hchecks first).2.2 .skipFrames).2 20000).mpr (by decide)
  · intro hmem
    exact absurd ((((hchecks second).2.2 .skipFrames).2 3).mp hmem) (by decide)

end Config

end Redraw
