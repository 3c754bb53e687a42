import ClaimCells.Proofs.Runs

/-!
# Settings in place

The process has settings in place, or will load some when it first needs them: `State.stored` says
which. The actions on settings are described as steps on whole states.

The first start from the environment checks the settings twice. Those of the file and the
environment together are checked when they are loaded; settings that fail are dropped for the
default ones, with a warning. Then the environment is put on top once more, and only what comes of
that decides whether the start fails. The mode that the file asks for does not.

Main results: `initSettings_apply`, `initFromEnvironment_apply` and `first_start`.
-/

namespace ClaimCells

variable {s : State} {c F : Settings} {l : Lookup} {b : Build}

/-! ## Settings and builds -/

namespace Settings

/-- The build serves settings that ask for no mode or for its own. -/
theorem validate_eq_ok : c.validate b = .ok () ↔ ∀ m ∈ c.cells.refcountMode, m = b.mode := by
  rw [validate]
  cases c.cells.refcountMode with
  | none => simp
  | some m =>
    by_cases h : m = b.mode
    · simp [h]
    · simp [h]

/-- It refuses any others, for their mode. -/
theorem validate_of_ne {m : RefcountMode} (hm : c.cells.refcountMode = some m) (h : m ≠ b.mode) :
    c.validate b = .error (.modeMismatch m b.mode) := by
  simp [validate, hm, h]

theorem validate_default : ({} : Settings).validate b = .ok () := rfl

/-- Putting a lookup on top a second time changes nothing. -/
theorem overlay_overlay : (c.overlay l).overlay l = c.overlay l := by
  simp only [overlay]
  congr 2 <;> split <;> rfl

/-- The mode that is asked for with a lookup on top: that of the lookup, if it has the variable. -/
theorem overlay_mode : (c.overlay l).cells.refcountMode =
    if (l refcountModeVar).isSome then (l refcountModeVar).bind RefcountMode.parse?
    else c.cells.refcountMode := rfl

/-- A lookup that names another mode than the build has spoils any settings. -/
theorem validate_overlay_of_ne {m : RefcountMode}
    (hm : (l refcountModeVar).bind RefcountMode.parse? = some m) (h : m ≠ b.mode) :
    (c.overlay l).validate b = .error (.modeMismatch m b.mode) := by
  refine validate_of_ne ?_ h
  rw [overlay_mode, if_pos, hm]
  cases hl : l refcountModeVar with
  | none => rw [hl] at hm; cases hm
  | some => rfl

/-- With any other lookup on top the default settings can be served. -/
theorem validate_overlay_default
    (h : ∀ m ∈ (l refcountModeVar).bind RefcountMode.parse?, m = b.mode) :
    (({} : Settings).overlay l).validate b = .ok () := by
  rw [validate_eq_ok, overlay_mode]
  split
  · exact h
  · exact nofun

end Settings

/-! ## The settings of the process -/

namespace State

/-- What comes of loading settings now. -/
def loading (s : State) : Except SettingsError Settings :=
  Settings.start s.build (if s.build.files ∧ s.file.isSome then some s.file else none) s.lookup

/-- The settings in place, or those that will be when they are first needed. -/
def stored (s : State) : Settings :=
  s.settings.getD (s.loading.toOption.getD {})

/-- The state once settings are in place. -/
def loaded (s : State) : State :=
  match s.settings, s.loading with
  | some _, _ => s
  | none, .ok c => { s with settings := some c }
  | none, .error e => { s.emit (.fallback e) with settings := some {} }

/-- Switches the profiler as settings say, and reports it. -/
def configure (s : State) (c : Settings) : State :=
  (s.tune (if c.profiling.enabled then s.profiler.enable else s.profiler.disable)).emit
    (.configured s.build.mode c.profiling.enabled)

/-- Puts settings in place and follows them. -/
def putInPlace (s : State) (c : Settings) : State :=
  { s.loaded with settings := some c }.configure c

theorem stored_of_some (h : s.settings = some c) : s.stored = c := by
  rw [stored, h, Option.getD_some]

@[simp] theorem loaded_settings (s : State) : s.loaded.settings = some s.stored := by
  rw [loaded, stored]
  split
  · next h => rw [h]; rfl
  · next h h' => rw [h, h']; rfl
  · next h h' => rw [h, h']; rfl

@[simp] theorem loaded_stored (s : State) : s.loaded.stored = s.stored :=
  stored_of_some s.loaded_settings

theorem loaded_of_some (h : s.settings = some c) : s.loaded = s := by
  rw [loaded, h]

/-- Loading settings changes nothing else, but for a warning in the journal. -/
theorem loaded_rest (s : State) :
    ∃ c j, s.loaded = { s with settings := c, journal := j } := by
  rw [loaded]
  split
  · exact ⟨s.settings, s.journal, rfl⟩
  · exact ⟨_, s.journal, rfl⟩
  · exact ⟨_, _, rfl⟩

@[simp] theorem loaded_build (s : State) : s.loaded.build = s.build := by
  obtain ⟨c, j, h⟩ := s.loaded_rest
  rw [h]

@[simp] theorem loaded_thread (s : State) : s.loaded.thread = s.thread := by
  obtain ⟨c, j, h⟩ := s.loaded_rest
  rw [h]

@[simp] theorem loaded_profiler (s : State) : s.loaded.profiler = s.profiler := by
  obtain ⟨c, j, h⟩ := s.loaded_rest
  rw [h]

@[simp] theorem loaded_lookup (s : State) : s.loaded.lookup = s.lookup := by
  obtain ⟨c, j, h⟩ := s.loaded_rest
  rw [h]
  rfl

@[simp] theorem putInPlace_settings (s : State) (c : Settings) :
    (s.putInPlace c).settings = some c := rfl

@[simp] theorem putInPlace_enabled (s : State) (c : Settings) :
    (s.putInPlace c).profiler.enabled = c.profiling.enabled := by
  show (if c.profiling.enabled then _ else _ : Profiler).enabled = _
  cases h : c.profiling.enabled <;> rfl

end State

/-! ## Actions on them -/

namespace Action

theorem loadSettings_apply (s : State) : loadSettings s = match s.loading with
    | .ok c => .done c s
    | .error e => .done {} (s.emit (.fallback e)) := by
  show (match s.loading with | .ok c => _ | .error e => _ : Action Settings) s = _
  cases s.loading <;> rfl

theorem processSettings_apply (s : State) : processSettings s = .done s.stored s.loaded := by
  simp only [processSettings, bind_apply, get_apply, done_bind, State.stored, State.loaded]
  cases h : s.settings with
  | some c => rfl
  | none =>
    simp only [bind_apply, loadSettings_apply]
    cases s.loading <;> rfl

theorem setProcessSettings_apply (c : Settings) (s : State) :
    setProcessSettings c s = .done () { s.loaded with settings := some c } := by
  simp only [setProcessSettings, bind_apply, processSettings_apply, done_bind, modify_apply]

theorem applySettings_apply (c : Settings) (s : State) :
    applySettings c s = .done () (s.configure c) := rfl

/-- Settings are put in place as a whole or not at all. -/
theorem initSettings_apply (c : Settings) (s : State) : initSettings c s =
    match c.validate s.build with
    | .ok _ => .done () (s.putInPlace c)
    | .error e => .fail (.settings e) s := by
  simp only [initSettings, bind_apply, get_apply, done_bind]
  cases c.validate s.build with
  | error e => rfl
  | ok u =>
    simp only [ofSettings, pure_apply, done_bind, bind_apply, setProcessSettings_apply,
      applySettings_apply]
    rfl

/-- Starting from the environment puts its variables on top of the settings in place. -/
theorem initFromEnvironment_apply (s : State) : initFromEnvironment s =
    match (s.stored.overlay s.lookup).validate s.build with
    | .ok _ => .done () (s.putInPlace (s.stored.overlay s.lookup))
    | .error e => .fail (.settings e) s.loaded := by
  simp only [initFromEnvironment, environment, bind_apply, processSettings_apply, done_bind,
    get_apply, pure_apply, initSettings_apply, State.loaded_lookup, State.loaded_build]
  simp only [State.putInPlace, State.loaded_of_some (State.loaded_settings s)]

end Action

/-! ## The first start -/

/-- The mode that the environment names, if it names one. -/
def State.namedMode (s : State) : Option RefcountMode :=
  (s.lookup refcountModeVar).bind RefcountMode.parse?

/-- What a file leaves in place when the process first needs settings. -/
theorem State.stored_of_file (hs : s.settings = none) (hfiles : s.build.files)
    (hfile : s.file.isSome) (hF : Settings.ofFile s.build s.file = .ok F) :
    s.stored = if (F.overlay s.lookup).validate s.build = .ok () then F.overlay s.lookup else {} := by
  have hload : s.loading = match (F.overlay s.lookup).validate s.build with
      | .ok _ => .ok (F.overlay s.lookup)
      | .error e => .error e := by
    rw [loading, if_pos ⟨hfiles, hfile⟩, Settings.start]
    simp only [hF, bind, Except.bind]
    cases (F.overlay s.lookup).validate s.build <;> rfl
  rw [stored, hs, Option.getD_none, hload]
  cases (F.overlay s.lookup).validate s.build <;> rfl

/-- The environment on top of what the file leaves in place. -/
theorem State.overlay_stored_of_file (hs : s.settings = none) (hfiles : s.build.files)
    (hfile : s.file.isSome) (hF : Settings.ofFile s.build s.file = .ok F) :
    s.stored.overlay s.lookup =
      if (F.overlay s.lookup).validate s.build = .ok () then F.overlay s.lookup
      else ({} : Settings).overlay s.lookup := by
  rw [stored_of_file hs hfiles hfile hF]
  split
  · exact Settings.overlay_overlay
  · rfl

/-- A start that succeeds. -/
theorem step_initFromEnvironment (hv : (s.stored.overlay s.lookup).validate s.build = .ok ())
    (n : Nat) : step (n + 1) (.process .initFromEnvironment) s =
      .ended (.ok .nothing) (s.putInPlace (s.stored.overlay s.lookup)) := by
  refine step_done ?_ nofun
  show (Action.initFromEnvironment >>= fun _ => pure .nothing : Action Answer) s = _
  rw [Action.bind_apply, Action.initFromEnvironment_apply, hv]
  rfl

/-- A start that fails. -/
theorem step_initFromEnvironment_error {e : SettingsError}
    (hv : (s.stored.overlay s.lookup).validate s.build = .error e) (n : Nat) :
    step (n + 1) (.process .initFromEnvironment) s = .ended (.error (.settings e)) s.loaded := by
  refine step_fail ?_ (by rw [State.loaded_thread]) nofun
  show (Action.initFromEnvironment >>= fun _ => pure .nothing : Action Answer) s = _
  rw [Action.bind_apply, Action.initFromEnvironment_apply, hv]
  rfl

/-- **The first start from the environment fails just when the environment names a mode that the
build does not have.** A file that asks for such a mode is dropped whole, unless the environment
names another one. -/
theorem first_start (hs : s.settings = none) (hfiles : s.build.files) (hfile : s.file.isSome)
    (hF : Settings.ofFile s.build s.file = .ok F) (n : Nat) :
    ∃ r s', step (n + 1) (.process .initFromEnvironment) s = .ended r s' ∧
      (∀ m ∈ s.namedMode, m ≠ s.build.mode →
        r = .error (.settings (.modeMismatch m s.build.mode))) ∧
      ((∀ m ∈ s.namedMode, m = s.build.mode) → r = .ok .nothing ∧ s'.settings = some
        (if (F.overlay s.lookup).validate s.build = .ok () then F.overlay s.lookup
          else ({} : Settings).overlay s.lookup)) := by
  by_cases hm : ∃ m ∈ s.namedMode, m ≠ s.build.mode
  · obtain ⟨m, hm, hne⟩ := hm
    refine ⟨_, _, step_initFromEnvironment_error (Settings.validate_overlay_of_ne hm hne) n, ?_, ?_⟩
    · intro m' hm' _
      rw [Option.mem_unique hm hm']
    · intro h
      exact absurd (h m hm) hne
  · simp only [not_exists, not_and, not_not] at hm
    -- either way the environment is on top of settings that its mode does not spoil
    have hover := State.overlay_stored_of_file hs hfiles hfile hF
    have hvalid : (s.stored.overlay s.lookup).validate s.build = .ok () := by
      rw [hover]
      split
      · assumption
      · exact Settings.validate_overlay_default hm
    refine ⟨_, _, step_initFromEnvironment hvalid n, ?_, ?_⟩
    · intro m hm' hne
      exact absurd (hm m hm') hne
    · intro _
      rw [hover]
      exact ⟨rfl, rfl⟩

/-- A process of the atomic build whose file asks for plain counts. -/
def State.askedForPlain : State :=
  .start .atomic false {} (some "[cells]\nrefcount_mode = \"Plain\"\n".toUTF8.toList)

theorem State.askedForPlain_file : Settings.ofFile .atomic askedForPlain.file =
    .ok { cells := { refcountMode := some .plain } } := by
  have h : (Settings.ofFile .atomic askedForPlain.file).toOption =
      some { cells := { refcountMode := some .plain } } := by decide +kernel
  cases hF : Settings.ofFile .atomic askedForPlain.file with
  | error e =>
    rw [hF] at h
    cases h
  | ok F =>
    rw [hF] at h
    exact congrArg Except.ok (Option.some.inj h)

/-- It starts, with the default settings. -/
theorem first_start_dropped : ∃ s',
    step 1 (.process .initFromEnvironment) .askedForPlain = .ended (.ok .nothing) s' ∧
      s'.settings = some {} := by
  obtain ⟨r, s', he, -, hok⟩ := first_start (s := .askedForPlain) rfl rfl rfl
    State.askedForPlain_file 0
  obtain ⟨rfl, hs'⟩ := hok nofun
  exact ⟨s', he, hs'⟩

/-- The first start does not answer for what the file asks for: it need not fail when the settings
of the file and the environment ask for another mode than the build has, and need not put them in
place when it succeeds. -/
theorem first_start_unchecked : ¬ ∀ (s : State) (F : Settings), s.settings = none → s.build.files →
    s.file.isSome → Settings.ofFile s.build s.file = .ok F →
    ∃ r s', step 1 (.process .initFromEnvironment) s = .ended r s' ∧
      ((∃ e, r = .error e) ↔ ∃ m ∈ (F.overlay s.lookup).cells.refcountMode, m ≠ s.build.mode) ∧
      (r = .ok .nothing → s'.settings = some (F.overlay s.lookup)) := by
  intro h
  obtain ⟨r, s', he, hfails, -⟩ := h .askedForPlain _ rfl rfl rfl State.askedForPlain_file
  have hover := State.overlay_stored_of_file (s := .askedForPlain) rfl rfl rfl
    State.askedForPlain_file
  have hvalid : (State.askedForPlain.stored.overlay State.askedForPlain.lookup).validate
      State.askedForPlain.build = .ok () := by
    rw [hover]
    rfl
  rw [step_initFromEnvironment hvalid] at he
  cases he
  obtain ⟨e, he⟩ := hfails.2 ⟨.plain, rfl, by decide⟩
  cases he

end ClaimCells
