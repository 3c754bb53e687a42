import ClaimCells.Proofs.Settings

/-!
# A lookup on top of settings

Each field of settings has a variable of its own. With a lookup on top, a field whose variable is
present is what the variable says, and any other field is as it was. So putting lookups on top of
settings is an action: of lookups put on top one after the other, the last one that has a variable
decides.

Which mode such settings ask for. A variable that is present replaces the mode of the settings, also
when it names no mode: such settings ask for none any more, and every build serves them. Only a
variable that is absent leaves the mode as it was.

Main results: `overlay_action` and `merged_mode`.
-/

namespace ClaimCells

variable {l l' : Lookup} {m : RefcountMode} {v : String}

/-! ## One lookup on top of another -/

/-- The lookup that has what the first one has, and what the second one has besides. -/
def Lookup.over (l l' : Lookup) : Lookup :=
  fun key => (l key).or (l' key)

/-- The lookups say the same of every variable that settings have. -/
def Lookup.Agrees (l l' : Lookup) : Prop :=
  ∀ key ∈ [refcountModeVar, profileVar, profileReportVar], l key = l' key

instance : Decidable (l.Agrees l') :=
  inferInstanceAs
    (Decidable (∀ key ∈ [refcountModeVar, profileVar, profileReportVar], l key = l' key))

/-- What is said on top of something that was said before. -/
theorem getD_map_or {α β : Type} (f : α → β) (a b : Option α) (d : β) :
    ((a.or b).map f).getD d = (a.map f).getD ((b.map f).getD d) := by
  cases a <;> rfl

namespace Settings

variable {c c' : Settings}

theorem eq_of_fields (hmode : c.cells.refcountMode = c'.cells.refcountMode)
    (henabled : c.profiling.enabled = c'.profiling.enabled)
    (hreport : c.profiling.reportOnShutdown = c'.profiling.reportOnShutdown) : c = c' := by
  obtain ⟨⟨mode⟩, ⟨enabled, report⟩⟩ := c
  obtain ⟨⟨mode'⟩, ⟨enabled', report'⟩⟩ := c'
  obtain rfl : mode = mode' := hmode
  obtain rfl : enabled = enabled' := henabled
  obtain rfl : report = report' := hreport
  rfl

/-! Each field is what its own variable says, or else what it was. -/

theorem overlay_refcountMode : (c.overlay l).cells.refcountMode =
    ((l refcountModeVar).map RefcountMode.parse?).getD c.cells.refcountMode := by
  rw [overlay_mode]
  cases l refcountModeVar <;> rfl

theorem overlay_enabled : (c.overlay l).profiling.enabled =
    ((l profileVar).map switchOf).getD c.profiling.enabled := by
  simp only [overlay, ofLookup, ProfilingSettings.ofLookup]
  cases l profileVar <;> rfl

theorem overlay_reportOnShutdown : (c.overlay l).profiling.reportOnShutdown =
    ((l profileReportVar).map switchOf).getD c.profiling.reportOnShutdown := by
  simp only [overlay, ofLookup, ProfilingSettings.ofLookup]
  cases l profileReportVar <;> rfl

/-- Of two lookups that are put on top one after the other, the later one wins. -/
theorem overlay_over : (c.overlay l').overlay l = c.overlay (l.over l') := by
  apply eq_of_fields
  · rw [overlay_refcountMode, overlay_refcountMode, overlay_refcountMode, Lookup.over, getD_map_or]
  · rw [overlay_enabled, overlay_enabled, overlay_enabled, Lookup.over, getD_map_or]
  · rw [overlay_reportOnShutdown, overlay_reportOnShutdown, overlay_reportOnShutdown, Lookup.over,
      getD_map_or]

/-- On top of the default settings there is nothing but the lookup. -/
theorem overlay_default : ({} : Settings).overlay l = .ofLookup l := by
  apply eq_of_fields
  · rw [overlay_refcountMode]
    show _ = (l refcountModeVar).bind RefcountMode.parse?
    cases l refcountModeVar <;> rfl
  · exact overlay_enabled
  · exact overlay_reportOnShutdown

/-- Nothing but the three variables is looked up. -/
theorem overlay_congr (h : l.Agrees l') : c.overlay l = c.overlay l' := by
  have hmode : l refcountModeVar = l' refcountModeVar := h _ (by simp)
  have henabled : l profileVar = l' profileVar := h _ (by simp)
  have hreport : l profileReportVar = l' profileReportVar := h _ (by simp)
  apply eq_of_fields
  · rw [overlay_refcountMode, overlay_refcountMode, hmode]
  · rw [overlay_enabled, overlay_enabled, henabled]
  · rw [overlay_reportOnShutdown, overlay_reportOnShutdown, hreport]

end Settings

/-- **Putting lookups on top of settings is an action.** A lookup that is put on top twice might as
well be put there once. Of two lookups the later one wins where it has a variable. The default
settings with a lookup on top are what the lookup says. Lookups that agree on the variables of
settings do the same, and a field whose variable is absent stays as it was. -/
theorem overlay_action (c : Settings) (l l₁ l₂ : Lookup) :
    (c.overlay l).overlay l = c.overlay l ∧
    (c.overlay l₁).overlay l₂ = c.overlay (l₂.over l₁) ∧
    ({} : Settings).overlay l = .ofLookup l ∧
    (l₁.Agrees l₂ → c.overlay l₁ = c.overlay l₂ ∧ Settings.ofLookup l₁ = .ofLookup l₂) ∧
    (l refcountModeVar = none → (c.overlay l).cells.refcountMode = c.cells.refcountMode) ∧
    (l profileVar = none → (c.overlay l).profiling.enabled = c.profiling.enabled) ∧
    (l profileReportVar = none →
      (c.overlay l).profiling.reportOnShutdown = c.profiling.reportOnShutdown) := by
  refine ⟨Settings.overlay_overlay, Settings.overlay_over, Settings.overlay_default, ?_, ?_, ?_, ?_⟩
  · intro h
    refine ⟨Settings.overlay_congr h, ?_⟩
    rw [← Settings.overlay_default, ← Settings.overlay_default]
    exact Settings.overlay_congr h
  · intro h
    rw [Settings.overlay_refcountMode, h]
    rfl
  · intro h
    rw [Settings.overlay_enabled, h]
    rfl
  · intro h
    rw [Settings.overlay_reportOnShutdown, h]
    rfl

/-- A lookup that has nothing but a switch leaves the mode alone, and so does one that has a
variable of something else besides. -/
theorem overlay_action_switch :
    let c : Settings := { cells := { refcountMode := some .atomic } }
    let l : Lookup := (Table.ofList [(profileVar, "maybe")]).get?
    let l' : Lookup := (Table.ofList [(profileVar, "maybe"), ("PATH", "/")]).get?
    c.overlay l = c.overlay l' ∧ (c.overlay l).profiling.enabled = true ∧
      (c.overlay l).cells.refcountMode = some .atomic ∧
      (c.overlay l).profiling.reportOnShutdown = false := by
  intro c l l'
  obtain ⟨-, -, -, hcongr, hmode, -, hreport⟩ := overlay_action c l l l'
  exact ⟨(hcongr (by decide)).1, by decide, hmode (by decide), hreport (by decide)⟩

/-! ## The names of a mode -/

namespace RefcountMode

/-- The modes have no name in common. -/
theorem names_disjoint : ∀ name ∈ plain.names, name ∉ atomic.names := by
  decide

theorem eq_of_mem_names {m' : RefcountMode} {name : String} (h : name ∈ m.names)
    (h' : name ∈ m'.names) : m = m' := by
  cases m with
  | plain =>
    cases m' with
    | plain => rfl
    | atomic => exact absurd h' (names_disjoint name h)
  | atomic =>
    cases m' with
    | plain => exact absurd h (names_disjoint name h')
    | atomic => rfl

theorem mem_names_of_parse? (h : parse? v = some m) : Text.lowercase v ∈ m.names := by
  unfold parse? at h
  have hnamed := List.find?_some h
  exact List.contains_iff_mem.1 hnamed

/-- A text names a mode if it is one of its names, in whatever case. -/
theorem parse?_eq_some_iff : parse? v = some m ↔ Text.lowercase v ∈ m.names := by
  refine ⟨mem_names_of_parse?, fun h => ?_⟩
  cases hp : parse? v with
  | none =>
    have hno := List.find?_eq_none.1 hp m (by cases m <;> simp)
    exact absurd (List.contains_iff_mem.2 h) hno
  | some m' => rw [eq_of_mem_names h (mem_names_of_parse? hp)]

end RefcountMode

/-! ## The mode that is asked for -/

/-- The lookup has the variable, with a name of the mode. -/
def Lookup.Names (l : Lookup) (m : RefcountMode) : Prop :=
  ∃ v, l refcountModeVar = some v ∧ Text.lowercase v ∈ m.names

namespace Settings

variable {c : Settings} {b : Build} {e : SettingsError}

/-- Settings are refused for the mode that they ask for, and for nothing else. -/
theorem validate_eq_error : c.validate b = .error e ↔
    ∃ m, c.cells.refcountMode = some m ∧ m ≠ b.mode ∧ e = .modeMismatch m b.mode := by
  constructor
  · intro h
    cases hm : c.cells.refcountMode with
    | none =>
      rw [validate, hm] at h
      cases h
    | some m =>
      have hne : m ≠ b.mode := by
        intro heq
        rw [validate_eq_ok.2 fun m' hm' => (Option.mem_unique hm' hm).trans heq] at h
        cases h
      rw [validate_of_ne hm hne] at h
      exact ⟨m, rfl, hne, (Except.error.inj h).symm⟩
  · rintro ⟨m, hm, hne, rfl⟩
    exact validate_of_ne hm hne

theorem overlay_mode_eq_some : (c.overlay l).cells.refcountMode = some m ↔
    l.Names m ∨ l refcountModeVar = none ∧ c.cells.refcountMode = some m := by
  rw [overlay_mode, Lookup.Names]
  cases l refcountModeVar with
  | none => simp
  | some v => simp [RefcountMode.parse?_eq_some_iff]

end Settings

/-- **The mode of merged settings.** Settings with a lookup on top ask for a mode exactly if the
lookup names it, or has no such variable and the settings asked for it before. A build refuses
them exactly if that mode is not its own. So a variable that names no mode takes away what the
settings asked for, and no build refuses what is left. -/
theorem merged_mode (c : Settings) (l : Lookup) (b : Build) :
    (∀ m, (c.overlay l).cells.refcountMode = some m ↔
      l.Names m ∨ l refcountModeVar = none ∧ c.cells.refcountMode = some m) ∧
    ∀ e, (c.overlay l).validate b = .error e ↔
      ∃ m, (l.Names m ∨ l refcountModeVar = none ∧ c.cells.refcountMode = some m) ∧
        m ≠ b.mode ∧ e = .modeMismatch m b.mode := by
  refine ⟨fun m => Settings.overlay_mode_eq_some, fun e => ?_⟩
  rw [Settings.validate_eq_error]
  exact exists_congr fun m => and_congr_left fun _ => Settings.overlay_mode_eq_some

/-- A variable that names no mode is not as good as none: settings that ask for the atomic mode
ask for none with it on top, and the plain build no longer refuses them. -/
theorem merged_mode_dropped :
    (¬ ∀ (c : Settings) (l : Lookup), (c.overlay l).cells.refcountMode =
        ((l refcountModeVar).bind RefcountMode.parse?).or c.cells.refcountMode) ∧
      ¬ ∀ (c : Settings) (l : Lookup) (b : Build) (m : RefcountMode),
        (l refcountModeVar).bind RefcountMode.parse? = none → c.cells.refcountMode = some m →
        m ≠ b.mode → ∃ e, (c.overlay l).validate b = .error e := by
  have hnone : RefcountMode.parse? "quantum" = none := by decide +kernel
  constructor
  · intro h
    have hkept := h { cells := { refcountMode := some .atomic } } fun _ => some "quantum"
    simp [Settings.overlay_mode, hnone] at hkept
  · intro h
    obtain ⟨e, he⟩ := h { cells := { refcountMode := some .atomic } } (fun _ => some "quantum")
      .plain .atomic (by simp [hnone]) rfl (by decide)
    simp [Settings.validate, Settings.overlay_mode, hnone] at he

end ClaimCells
