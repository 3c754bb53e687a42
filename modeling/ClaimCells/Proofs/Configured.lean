import ClaimCells.Proofs.Classes

/-!
# Settings stay valid

As long as no operation writes the settings of the process past the check, those in place can be
served by the build, whatever else the run does. An operation that puts settings in place does so as
a whole, and switches the profiler as they say, or fails and leaves both as they were.

Main result: `settings_checked`.
-/

namespace ClaimCells

open Act (Outcome)

variable {α β : Type} {s t : State} {c : Settings} {P : State → Prop}

/-! ## Actions that keep a property -/

namespace Act.Keeps

theorem bind {x : Act α} {k : α → State → Act β} (h : x.Keeps P)
    (hk : ∀ a t, P t → (k a t).Keeps P) : (x.bind k).Keeps P := by
  induction x with
  | done a t => exact hk a t h
  | fail => exact h
  | halt => trivial
  | send g t next ih => exact ⟨h.1, fun t' hc hs ht' => ih t' (h.2 t' hc hs ht')⟩

theorem attempt {x : Act α} (h : x.Keeps P) : x.attempt.Keeps P := by
  induction x with
  | done | fail => exact h
  | halt => trivial
  | send g t next ih => exact ⟨h.1, fun t' hc hs ht' => ih t' (h.2 t' hc hs ht')⟩

end Act.Keeps

/-! ## Starting settings -/

namespace Settings

variable {b : Build} {file : Option FileContent} {l : Lookup} {e : SettingsError}

/-- What a start builds on: the settings of a file, if one is asked for, or the default ones. -/
def base (b : Build) : Option FileContent → Except SettingsError Settings
  | some content => ofFile b content
  | none => .ok {}

/-- A start gives what it builds on with the lookup on top, if the build can serve that. -/
theorem start_eq_ok : start b file l = .ok c ↔
    ∃ d, base b file = .ok d ∧ c = d.overlay l ∧ c.validate b = .ok () := by
  have hstart : start b file l = (base b file).bind fun d =>
      ((d.overlay l).validate b).bind fun _ => .ok (d.overlay l) := by
    cases file <;> rfl
  rw [hstart]
  cases base b file with
  | error e => simp [Except.bind]
  | ok d =>
    simp only [Except.bind]
    cases hv : (d.overlay l).validate b with
    | error e =>
      simp only [reduceCtorEq, Except.ok.injEq, false_iff, not_exists, not_and]
      rintro _ rfl rfl
      rw [hv]
      nofun
    | ok u =>
      simp only [Except.ok.injEq]
      constructor
      · rintro rfl
        exact ⟨d, rfl, rfl, hv⟩
      · rintro ⟨_, rfl, rfl, -⟩
        rfl

end Settings

/-! ## Settings in place -/

/-- The settings in place can be served. -/
def State.Valid (s : State) : Prop :=
  ∀ c ∈ s.settings, c.validate s.build = .ok ()

/-- The settings of the manager at hand, or of the process. -/
def State.managed (s : State) (ofProcess : Bool) : Settings :=
  if ofProcess then s.stored else s.thread.managed

/-- The state once a manager has settings. -/
def State.managing (s : State) (ofProcess : Bool) : State :=
  if ofProcess then s.loaded else s

/-- Gives settings to a manager. -/
def State.manage (s : State) (ofProcess : Bool) (c : Settings) : State :=
  if ofProcess then { s.loaded with settings := some c } else s.inThread ({ · with managed := c })

namespace State.Valid

theorem of_same (h : s.Valid) (hc : t.settings = s.settings) (hb : t.build = s.build) : t.Valid := by
  intro c hm
  rw [hb]
  exact h c (hc ▸ hm)

theorem of_some (hc : s.settings = some c) (hv : c.validate s.build = .ok ()) : s.Valid := by
  intro d hd
  rw [hc] at hd
  cases hd
  exact hv

/-- So can those that will be loaded. -/
theorem stored (h : s.Valid) : s.stored.validate s.build = .ok () := by
  rw [State.stored]
  cases hs : s.settings with
  | some c => exact h c hs
  | none =>
    rw [Option.getD_none]
    cases hl : s.loading with
    | error e => rfl
    | ok c =>
      obtain ⟨d, -, -, hv⟩ := Settings.start_eq_ok.1 hl
      exact hv

theorem loaded (h : s.Valid) : s.loaded.Valid :=
  .of_some s.loaded_settings (by rw [loaded_build]; exact h.stored)

theorem putInPlace (hv : c.validate s.build = .ok ()) : (s.putInPlace c).Valid :=
  .of_some rfl (by show c.validate s.loaded.build = _; rw [loaded_build]; exact hv)

end State.Valid

namespace Action

/-- The action leaves valid settings in place. -/
def Validates (a : Action α) : Prop :=
  ∀ s, s.Valid → (a s).Keeps State.Valid

namespace Validates

theorem pure (a : α) : Validates (pure a) :=
  fun _ h => h

theorem fail (f : Failure) : Validates (fail f : Action α) :=
  fun _ h => h

theorem bind {a : Action α} {k : α → Action β} (ha : Validates a) (hk : ∀ x, Validates (k x)) :
    Validates (a >>= k) :=
  fun s h => (ha s h).bind fun x => hk x

theorem tried {a : Action α} (ha : Validates a) : Validates (attempt a) :=
  fun s h => (ha s h).attempt

theorem read {k : State → Action α} (hk : ∀ s, Validates (k s)) : Validates (get >>= k) :=
  fun s h => hk s s h

theorem readThread {k : Thread → Action α} (hk : ∀ t, Validates (k t)) : Validates (thread >>= k) :=
  read fun s => hk s.thread

theorem moved {a : Action α} {x : α} {f : State → State} (ha : ∀ s, a s = .done x (f s))
    (hf : ∀ s, ((f s).settings, (f s).build) = (s.settings, s.build)) : Validates a := by
  intro s h
  rw [ha]
  exact h.of_same (congrArg Prod.fst (hf s)) (congrArg Prod.snd (hf s))

end Validates

/-- Around the cells everything but the settings of the process may change. -/
def unsetting : Scope :=
  .wide fun s t => t.settings = s.settings ∧ t.build = s.build

theorem unsetting_allows :
    unsetting.Allows fun s t => t.settings = s.settings ∧ t.build = s.build :=
  { refuses := trivial
    gains := fun _ => trivial
    refl := fun _ => ⟨rfl, rfl⟩
    trans := fun _ _ _ h h' => ⟨h'.1.trans h.1, h'.2.trans h.2⟩
    beside := fun h => ⟨(congrArg State.settings h.surroundings :),
      (congrArg State.build h.surroundings :)⟩
    outer := fun h => h }

theorem Cellular.At.validates {a : Action α} {s : State} (h : Cellular.At unsetting a s)
    (hs : s.Valid) : (a s).Keeps State.Valid :=
  (h.stays unsetting_allows).keeps (fun h hv => hv.of_same h.1 h.2) hs

theorem Cellular.validates {a : Action α} (h : Cellular unsetting a) : Validates a :=
  fun s hs => At.validates (s := s) (.of h) hs

/-! ### Actions on settings -/

theorem processSettings_validates : Validates processSettings := by
  intro s h
  rw [processSettings_apply]
  exact h.loaded

theorem initSettings_validates (c : Settings) : Validates (initSettings c) := by
  intro s h
  rw [initSettings_apply]
  cases hv : c.validate s.build with
  | error e => exact h
  | ok u => exact .putInPlace hv

theorem initFromEnvironment_validates : Validates initFromEnvironment := by
  intro s h
  rw [initFromEnvironment_apply]
  cases hv : (s.stored.overlay s.lookup).validate s.build with
  | error e => exact h.loaded
  | ok u => exact .putInPlace hv

theorem emit_validates (e : Event) : Validates (emit e) :=
  .moved (fun _ => rfl) fun _ => rfl

theorem initLogging_validates (fallback : String) : Validates (initLogging fallback) := by
  intro s h
  simp only [initLogging, bind_apply, get_apply, done_bind, ite_apply]
  split
  · exact h.of_same rfl rfl
  · exact h

theorem startUp_validates : Validates startUp :=
  .bind (initLogging_validates _) fun _ => .bind initFromEnvironment_validates fun _ =>
    .read fun _ => emit_validates _

theorem startWith_validates (c : Settings) : Validates (startWith c) :=
  .bind (initLogging_validates _) fun _ => initSettings_validates c

theorem ofSettings_validates : ∀ r : Except SettingsError α, Validates (ofSettings r)
  | .ok a => .pure a
  | .error _ => .fail _

theorem shutDown_validates : Validates shutDown := by
  refine .bind processSettings_validates fun c => ?_
  dsimp only
  split
  · exact .read fun s => .bind (report_cellular _).validates fun _ =>
      .bind (Cellular.checked _).validates fun _ =>
      (Cellular.forM (fun _ => .emit (e := .leaking _ _) (fun _ => trivial) (.inr rfl)) _).validates
  · exact .pure _

theorem performSettings_validates (op : SettingsOp) : Validates (performSettings op) := by
  have hset : ∀ c, Validates (setSettings c) := fun c =>
    .bind (.moved (fun _ => rfl) fun _ => rfl) fun _ => .pure _
  refine .readThread fun t => .read fun s => ?_
  cases op with
  | default | lookup | merge => exact hset _
  | fromEnvironment | mergeEnvironment => exact .bind environment_cellular.validates fun _ => hset _
  | decode => exact .bind (Cellular.decoded _ _).validates fun _ => hset _
  | load => exact .bind (ofSettings_validates _) fun _ => hset _
  | json | debug => exact .pure _
  | eq => exact .bind (Cellular.decoded _ _).validates fun _ => .pure _
  | validate => exact .bind (ofSettings_validates _) fun _ => .pure _
  | apply => exact .bind (.moved (applySettings_apply _) fun _ => rfl) fun _ => .read fun _ => .pure _
  | init => exact .bind (initSettings_validates _) fun _ => .pure _
  | initWith => exact .bind (startWith_validates _) fun _ => .pure _
  | save => exact .bind (ofSettings_validates _) fun _ => .pure _

theorem managed_apply (ofProcess : Bool) (s : State) :
    managed ofProcess s = .done (s.managed ofProcess) (s.managing ofProcess) := by
  cases ofProcess with
  | true => exact processSettings_apply s
  | false => rfl

theorem setManaged_apply (ofProcess : Bool) (c : Settings) (s : State) :
    setManaged ofProcess c s = .done () (s.manage ofProcess c) := by
  cases ofProcess with
  | true => exact setProcessSettings_apply c s
  | false => rfl

/-- A manager takes over what comes of a start, or stays as it is. -/
theorem performManager_init (ofProcess : Bool) (file : Option FileContent) (s : State) :
    performManager ofProcess (.init file) s =
      match Settings.start s.build file s.lookup with
      | .ok c => .done .nothing (s.manage ofProcess c)
      | .error e => .fail (.settings e) (s.managing ofProcess) := by
  simp only [performManager, bind_apply, managed_apply, done_bind, get_apply]
  have hb : (s.managing ofProcess).build = s.build := by
    cases ofProcess <;> simp [State.managing]
  have hl : (s.managing ofProcess).lookup = s.lookup := by
    cases ofProcess <;> simp [State.managing]
  rw [hb, hl]
  cases Settings.start s.build file s.lookup with
  | error e => rfl
  | ok c =>
    simp only [ofSettings, pure_apply, done_bind, bind_apply, setManaged_apply]
    cases ofProcess with
    | true => simp [State.manage, State.managing, State.loaded_of_some (State.loaded_settings s)]
    | false => rfl

theorem performManager_validates (ofProcess : Bool) {op : ManagerOp}
    (h : ∀ source, ofProcess = true → op ≠ .update source) :
    Validates (performManager ofProcess op) := by
  have hget : Validates (managed ofProcess) := by
    intro s hs
    rw [managed_apply]
    cases ofProcess with
    | true => exact hs.loaded
    | false => exact hs
  have hown : ∀ c, Validates (setManaged false c) := fun c => .moved (fun _ => rfl) fun _ => rfl
  cases op with
  | new => exact .bind (hown _) fun _ => .pure _
  | init file =>
    intro s hs
    rw [performManager_init]
    cases hc : Settings.start s.build file s.lookup with
    | error e =>
      cases ofProcess with
      | true => exact hs.loaded
      | false => exact hs
    | ok c =>
      obtain ⟨d, -, -, hv⟩ := Settings.start_eq_ok.1 hc
      cases ofProcess with
      | true => exact .of_some (s := { s.loaded with settings := some c }) rfl (by simpa using hv)
      | false => exact hs.of_same rfl rfl
  | get | profiling => exact .bind hget fun _ => .pure _
  | update source =>
    cases ofProcess with
    | true => exact absurd rfl (h source rfl)
    | false =>
      exact .bind hget fun _ => .bind (Cellular.decoded _ _).validates fun _ =>
        .bind (hown _) fun _ => .pure _

theorem performProcess_validates (op : ProcessOp) : Validates (performProcess op) := by
  cases op with
  | init => exact .bind startUp_validates fun _ => .pure _
  | initFromEnvironment => exact .bind initFromEnvironment_validates fun _ => .pure _
  | initLogging => exact .bind (initLogging_validates _) fun _ => .pure _
  | shutdown => exact .bind shutDown_validates fun _ => .pure _
  | setEnvironment => exact .bind (.moved (fun _ => rfl) fun _ => rfl) fun _ => .pure _
  | parseMode =>
    unfold performProcess
    dsimp only
    split
    · exact .pure _
    · exact .fail _
  | activeMode => exact .read fun _ => .pure _
  | decode type source =>
    cases type <;> exact .bind (Cellular.decoded _ _).validates fun _ => .pure _

theorem install_validates (f : Functions) : Validates (install f) := by
  refine .read fun s => ?_
  split
  · exact .pure _
  · refine .bind (.tried initFromEnvironment_validates) fun r => ?_
    split
    · exact .bind (.moved (fun _ => rfl) fun _ => rfl) fun _ => .pure _
    · exact (Cellular.violate _).validates
    · exact .fail _

end Action

/-- Operations that do not write the settings of the process past the check. -/
def Op.Checked : Op → Prop
  | .manager true (.update _) => False
  | _ => True

theorem Action.perform_validates {op : Op} (h : op.Checked) : Validates (perform op) := by
  have hcalls : unsetting.calls := fun _ _ _ => ⟨rfl, rfl⟩
  have hrest : ¬ op.SetsUp → Validates (perform op) := fun hop s hs => by
    refine (perform_wide s hcalls ⟨fun _ _ _ => ⟨rfl, rfl⟩, fun _ _ => ⟨rfl, rfl⟩⟩
      (fun h => absurd h hop) fun g body _ s => ?_).validates hs
    unfold State.setHook
    split <;> exact ⟨rfl, rfl⟩
  cases op with
  | settings op => exact performSettings_validates op
  | manager ofProcess op =>
    refine performManager_validates ofProcess fun source hb ho => ?_
    rw [hb, ho] at h
    exact h
  | process op => exact performProcess_validates op
  | native op =>
    by_cases hop : ∃ f g, op = .install f g
    · obtain ⟨f, g, rfl⟩ := hop
      exact .bind (.moved (fun _ => rfl) fun _ => rfl) fun _ =>
        .bind (.tried (.bind (install_validates _) fun _ => .pure _)) fun r =>
        .bind (.moved (fun _ => rfl) fun _ => rfl) fun _ =>
          (Cellular.ofExcept (r := r) fun _ _ _ => trivial).validates
    · exact hrest fun h => by
        cases op with
        | install f g => exact hop ⟨f, g, rfl⟩
        | _ => exact h
  | _ => exact hrest id

theorem Action.unwinding_validates {a : Action α} (ha : Validates a) : Validates (unwinding a) := by
  refine .readThread fun _ => .bind (.tried ha) fun r => ?_
  cases r with
  | ok x => exact .pure _
  | error f =>
    exact .readThread fun _ => .bind
      (Cellular.forM (fun c => cleanUp_cellular (release_cellular c)) _).validates fun _ => .fail f

/-- **Settings stay valid** while every operation checks those of the process. -/
theorem State.Valid.upheld : Upheld Op.Checked State.Valid where
  course {op s} ho _ _ hs := by
    have hc : op.Checked := by
      cases op with
      | hook | thread => trivial
      | _ => exact ho
    exact Action.unwinding_validates (Action.perform_validates hc) s hs
  answered _ h := h.of_same rfl rfl
  hooked g h := by
    refine h.of_same ?_ ?_ <;> unfold State.eraseHook State.note <;> dsimp only <;> split <;> rfl
  startThread h := h.of_same rfl rfl
  endThread _ h := h.of_same rfl rfl
  switch _ h := h.of_same rfl rfl

/-! ## Putting settings in place -/

/-- The settings that an operation is to put in place. -/
def Op.proposes (s : State) : Op → Option Settings
  | .settings .init | .settings .initWith => some s.thread.settings
  | .process .init | .process .initFromEnvironment => some (s.stored.overlay s.lookup)
  | .native (.install _ _) => if s.functions = none then some (s.stored.overlay s.lookup) else none
  | _ => none

/-- Settings are in place and the profiler follows them. -/
structure State.Follows (s : State) (c : Settings) : Prop where
  settings : s.settings = some c
  profiler : s.profiler.enabled = c.profiling.enabled

/-- The settings that are or will be in place, and the switch of the profiler, are those of an
earlier state. -/
structure State.Unsettled (s s' : State) : Prop where
  stored : s'.stored = s.stored
  profiler : s'.profiler.enabled = s.profiler.enabled

theorem State.loaded_unsettled (s : State) : s.Unsettled s.loaded :=
  ⟨by simp, by simp⟩

/-- How an operation ends whose settings are refused. In a call from native code that is fatal. -/
def Op.refused (e : SettingsError) (s : State) : Op → Outcome Answer
  | .native _ => .halted (.fatal (.invariant (.startUp e))) s
  | _ => .ended (.error (.settings e)) s

namespace Action

/-- How an action ends that is to put settings in place. -/
def Proposes (c : Settings) (s : State) (x : Act α) : Prop :=
  (c.validate s.build = .ok () → ∃ a s', x = .done a s' ∧ s'.Follows c) ∧
  ∀ e, c.validate s.build = .error e → ∃ s', x = .fail (.settings e) s' ∧ s.Unsettled s' ∧
    s'.thread = s.thread

theorem Proposes.bind {x : Act α} {k : α → State → Act β} (h : Proposes c s x)
    (hk : ∀ a t, t.Follows c → ∃ b t', k a t = .done b t' ∧ t'.Follows c) :
    Proposes c s (x.bind k) := by
  refine ⟨fun hv => ?_, fun e hv => ?_⟩
  · obtain ⟨a, t, rfl, ht⟩ := h.1 hv
    exact hk a t ht
  · obtain ⟨t, rfl, ht⟩ := h.2 e hv
    exact ⟨t, rfl, ht⟩

/-- Setting up which events are written comes first. -/
theorem Proposes.afterLogging {a : Action α} {fallback : String}
    (h : ∀ f, Proposes c { s with filter := f } (a { s with filter := f })) :
    Proposes c s ((initLogging fallback >>= fun _ => a) s) := by
  have hlog : ∃ f, initLogging fallback s = .done () { s with filter := f } := by
    simp only [initLogging, bind_apply, get_apply, done_bind, ite_apply]
    split
    · exact ⟨_, rfl⟩
    · exact ⟨s.filter, rfl⟩
  obtain ⟨f, hf⟩ := hlog
  rw [bind_apply, hf, done_bind]
  refine ⟨(h f).1, fun e hv => ?_⟩
  obtain ⟨s', hx, hu, ht⟩ := (h f).2 e hv
  exact ⟨s', hx, ⟨hu.stored, hu.profiler⟩, ht⟩

theorem initSettings_proposes (c : Settings) (s : State) : Proposes c s (initSettings c s) := by
  rw [initSettings_apply]
  refine ⟨fun hv => ?_, fun e hv => ?_⟩
  · rw [hv]
    exact ⟨(), _, rfl, by simp, by simp⟩
  · rw [hv]
    exact ⟨_, rfl, ⟨rfl, rfl⟩, rfl⟩

theorem initFromEnvironment_proposes (s : State) :
    Proposes (s.stored.overlay s.lookup) s (initFromEnvironment s) := by
  rw [initFromEnvironment_apply]
  refine ⟨fun hv => ?_, fun e hv => ?_⟩
  · rw [hv]
    exact ⟨(), _, rfl, by simp, by simp⟩
  · rw [hv]
    exact ⟨_, rfl, State.loaded_unsettled s, by simp⟩

/-- The calls that put settings in place, but for the one from native code. -/
theorem perform_proposes {op : Op} (h : op.proposes s = some c) (hop : ∀ f, op ≠ .native f) :
    Proposes c s (perform op s) := by
  have hend : ∀ (a : Unit) (t : State), t.Follows c →
      ∃ b t', (pure .nothing : Action Answer) t = .done b t' ∧ t'.Follows c :=
    fun _ t ht => ⟨_, t, rfl, ht⟩
  cases op with
  | settings op =>
    cases op with
    | init =>
      cases h
      exact (initSettings_proposes _ s).bind hend
    | initWith =>
      cases h
      show Proposes _ s ((startWith s.thread.settings >>= fun _ => pure .nothing : Action Answer) s)
      exact .bind (.afterLogging fun _ => initSettings_proposes _ _) hend
    | _ => cases h
  | process op =>
    cases op with
    | init =>
      cases h
      show Proposes _ s ((startUp >>= fun _ => pure .nothing : Action Answer) s)
      refine .bind (.afterLogging fun f => .bind ?_ ?_) hend
      · exact initFromEnvironment_proposes { s with filter := f }
      exact fun _ t ht => ⟨(), _, rfl, ht.settings, ht.profiler⟩
    | initFromEnvironment =>
      cases h
      exact (initFromEnvironment_proposes s).bind hend
    | _ => cases h
  | native f => exact absurd rfl (hop f)
  | _ => cases h

/-- The first installation of native functions starts from the environment. -/
theorem callNative_install {f g : Library} (hf : s.functions = none) :
    callNative (.install f g) s = match (s.stored.overlay s.lookup).validate s.build with
    | .ok _ => .done (.flag true)
        { s.putInPlace (s.stored.overlay s.lookup) with functions := some ⟨f, g⟩ }
    | .error e => violate (.startUp e) s.loaded := by
  simp only [callNative, install, bind_apply, get_apply, done_bind, hf, attempt_apply,
    initFromEnvironment_apply]
  cases (s.stored.overlay s.lookup).validate s.build with
  | ok u => rfl
  | error e => exact violate_bind _ _ _

/-- A panic within a call from native code is fatal. -/
theorem violate_calling {i : Invariant} (h : s.thread.nativeDepth ≠ 0) :
    (violate i s : Act α) = .halt (.fatal (.invariant i)) (s.emit (.violated i)) := by
  simp only [violate, bind_apply, emit_apply, done_bind, raise, thread_apply, ite_apply, halt_apply]
  exact if_neg h

end Action

/-- The first installation takes effect, or is fatal. -/
theorem step_install {f g : Library} (hf : s.functions = none) (n : Nat) :
    (((s.stored.overlay s.lookup).validate s.build = .ok () →
      ∃ s', step (n + 1) (.native (.install f g)) s = .ended (.ok (.flag true)) s' ∧
        s'.Follows (s.stored.overlay s.lookup) ∧ s'.functions = some ⟨f, g⟩)) ∧
    ∀ e, (s.stored.overlay s.lookup).validate s.build = .error e →
      ∃ s', step (n + 1) (.native (.install f g)) s =
        .halted (.fatal (.invariant (.startUp e))) s' ∧ s.Unsettled s' := by
  have hi := Action.callNative_install (s := s.calling) (f := f) (g := g) hf
  rw [show s.calling.stored = s.stored from rfl, show s.calling.lookup = s.lookup from rfl,
    show s.calling.build = s.build from rfl] at hi
  refine ⟨fun hv => ?_, fun e hv => ?_⟩
  · rw [hv] at hi
    exact ⟨_, step_done (Action.nativeCall_done hi) nofun,
      ⟨rfl, State.putInPlace_enabled s.calling _⟩, rfl⟩
  · rw [hv] at hi
    have hdepth : s.calling.loaded.thread.nativeDepth ≠ 0 := by
      rw [State.loaded_thread]
      exact Nat.succ_ne_zero _
    have hhalt := hi.trans (Action.violate_calling hdepth)
    have hu := s.calling.loaded_unsettled
    exact ⟨_, step_halt (Action.nativeCall_halt hhalt) nofun, hu.stored, hu.profiler⟩

/-- **Settings are put in place as a whole or not at all.** -/
theorem step_proposes {op : Op} (h : op.proposes s = some c) (n : Nat) :
    (c.validate s.build = .ok () →
      ∃ a s', step (n + 1) op s = .ended (.ok a) s' ∧ s'.Follows c) ∧
    ∀ e, c.validate s.build = .error e →
      ∃ s', step (n + 1) op s = op.refused e s' ∧ s.Unsettled s' := by
  have hthread : ∀ body, op ≠ .thread body := by
    rintro body rfl
    cases h
  by_cases hop : ∃ f, op = .native f
  · obtain ⟨f, rfl⟩ := hop
    cases f with
    | install f g =>
      simp only [Op.proposes, Option.ite_none_right_eq_some, Option.some.injEq] at h
      obtain ⟨hf, rfl⟩ := h
      obtain ⟨hok, herror⟩ := step_install (f := f) (g := g) hf n
      refine ⟨fun hv => ?_, herror⟩
      obtain ⟨s', hs', hc, -⟩ := hok hv
      exact ⟨_, s', hs', hc⟩
    | _ => cases h
  · have hp := Action.perform_proposes h fun f hf => hop ⟨f, hf⟩
    refine ⟨fun hv => ?_, fun e hv => ?_⟩
    · obtain ⟨a, s', hx, hs'⟩ := hp.1 hv
      exact ⟨a, s', step_done hx hthread, hs'⟩
    · obtain ⟨s', hx, hs', ht⟩ := hp.2 e hv
      refine ⟨s', ?_, hs'⟩
      rw [step_fail hx (by rw [ht]) hthread, Op.refused]
      rintro f rfl
      exact hop ⟨f, rfl⟩

/-- A manager takes over what a start builds on, with the environment on top, if the build can
serve that, and otherwise stays as it is. -/
theorem step_managerInit (ofProcess : Bool) (file : Option FileContent) (s : State) (n : Nat) :
    (∀ d, Settings.base s.build file = .ok d → (d.overlay s.lookup).validate s.build = .ok () →
      ∃ s', step (n + 1) (.manager ofProcess (.init file)) s = .ended (.ok .nothing) s' ∧
        s'.managed ofProcess = d.overlay s.lookup) ∧
    ((∀ d, Settings.base s.build file = .ok d → (d.overlay s.lookup).validate s.build ≠ .ok ()) →
      ∃ e s', step (n + 1) (.manager ofProcess (.init file)) s = .ended (.error (.settings e)) s' ∧
        s'.managed ofProcess = s.managed ofProcess) := by
  have hi := Action.performManager_init ofProcess file s
  refine ⟨fun d hd hv => ?_, fun h => ?_⟩
  · rw [Settings.start_eq_ok.2 ⟨d, hd, rfl, hv⟩] at hi
    refine ⟨_, step_done hi nofun, ?_⟩
    cases ofProcess <;> rfl
  · cases hc : Settings.start s.build file s.lookup with
    | ok c =>
      obtain ⟨d, hd, rfl, hv⟩ := Settings.start_eq_ok.1 hc
      exact absurd hv (h d hd)
    | error e =>
      rw [hc] at hi
      have hthread : (s.managing ofProcess).thread = s.thread := by
        cases ofProcess
        · rfl
        · exact State.loaded_thread s
      refine ⟨e, _, step_fail hi (by rw [hthread]) nofun, ?_⟩
      cases ofProcess
      · rfl
      · exact State.loaded_stored s

/-- **The settings of the process are always such as the build can serve.** An operation that is to
put settings in place does so, and switches the profiler as they say, just when the build can serve
them; otherwise it fails and leaves both as they were. A manager takes over settings with the
environment on top of a file or the defaults in the same way. -/
theorem settings_checked (h : ReachedBy Op.Checked s) (n : Nat) :
    s.stored.validate s.build = .ok () ∧
    (∀ op c, Op.proposes s op = some c →
      (c.validate s.build = .ok () →
        ∃ a s', step (n + 1) op s = .ended (.ok a) s' ∧ s'.Follows c) ∧
      ∀ e, c.validate s.build = .error e →
        ∃ s', step (n + 1) op s = op.refused e s' ∧ s.Unsettled s') ∧
    ∀ ofProcess file,
      (∀ d, Settings.base s.build file = .ok d → (d.overlay s.lookup).validate s.build = .ok () →
        ∃ s', step (n + 1) (.manager ofProcess (.init file)) s = .ended (.ok .nothing) s' ∧
          s'.managed ofProcess = d.overlay s.lookup) ∧
      ((∀ d, Settings.base s.build file = .ok d →
          (d.overlay s.lookup).validate s.build ≠ .ok ()) →
        ∃ e s', step (n + 1) (.manager ofProcess (.init file)) s =
          .ended (.error (.settings e)) s' ∧ s'.managed ofProcess = s.managed ofProcess) := by
  have hv := (h.upheld State.Valid.upheld fun _ _ _ _ => nofun).1
  exact ⟨hv.stored, fun op c hc => step_proposes hc n,
    fun ofProcess file => step_managerInit ofProcess file s n⟩

/-- A process whose environment asks for statistics. -/
def State.askedToProfile : State :=
  .start .plain false (({} : Table String Text.Utf8.Bytes).insert profileVar [0x31]) none

theorem State.askedToProfile_proposes : Op.proposes .askedToProfile (.process .initFromEnvironment) =
    some { profiling := { enabled := true } } := by
  have hp : askedToProfile.lookup profileVar = some "1" := rfl
  have hm : askedToProfile.lookup refcountModeVar = none := rfl
  have hr : askedToProfile.lookup profileReportVar = none := rfl
  have hover : ({} : Settings).overlay askedToProfile.lookup =
      { profiling := { enabled := true } } := by
    simp [Settings.overlay, hp, hm, hr, Settings.ofLookup, ProfilingSettings.ofLookup, switchOf]
  have hload : askedToProfile.loading = .ok { profiling := { enabled := true } } :=
    Settings.start_eq_ok.2 ⟨{}, rfl, hover.symm, rfl⟩
  have hstored : askedToProfile.stored = ({} : Settings).overlay askedToProfile.lookup := by
    rw [hover, stored, hload]
    rfl
  rw [Op.proposes, hstored, Settings.overlay_overlay, hover]

/-- It keeps them once it is started. -/
theorem settings_checked_profiling : ∃ a s,
    step 1 (.process .initFromEnvironment) .askedToProfile = .ended (.ok a) s ∧
    s.profiler.enabled = true ∧ s.stored.validate s.build = .ok () := by
  have h0 : ReachedBy Op.Checked .askedToProfile := .start ..
  obtain ⟨-, hp, -⟩ := settings_checked h0 0
  obtain ⟨a, s, hs, hfollows⟩ := (hp _ _ State.askedToProfile_proposes).1 rfl
  have h1 := h0.ended (show Op.Only Op.Checked (.process .initFromEnvironment) from trivial) hs
  exact ⟨a, s, hs, hfollows.profiler, (settings_checked h1 0).1⟩

end ClaimCells
