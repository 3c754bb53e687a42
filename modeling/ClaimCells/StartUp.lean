import ClaimCells.Action

/-!
# Settings of the process

The process loads its settings when they are first needed, from its file and its environment. If
they cannot be served it starts with the default ones. Settings that are put in place later must
be such as the build can serve; then the profiler is switched accordingly.
-/

namespace ClaimCells.Action

/-- The environment of the process. -/
def environment : Action Lookup := do
  let s ← get
  return s.lookup

/-- What the process starts with. -/
def loadSettings : Action Settings := do
  let s ← get
  let file := if s.build.files ∧ s.file.isSome then some s.file else none
  match Settings.start s.build file s.lookup with
  | .ok loaded => return loaded
  | .error e =>
    emit (.fallback e)
    return {}

/-- The settings of the process, loaded if they are not yet. -/
def processSettings : Action Settings := do
  match (← get).settings with
  | some c => return c
  | none =>
    let loaded ← loadSettings
    modify ({ · with settings := some loaded })
    return loaded

/-- Changes the settings of the process. -/
def setProcessSettings (c : Settings) : Action Unit := do
  let _ ← processSettings
  modify ({ · with settings := some c })

/-- Goes on with a value, or fails because of settings. -/
def ofSettings {α : Type} : Except SettingsError α → Action α
  | .ok a => pure a
  | .error e => fail (.settings e)

/-- Switches the profiler as the settings say. -/
def applySettings (c : Settings) : Action Unit := do
  let p := (← get).profiler
  tune (if c.profiling.enabled then p.enable else p.disable)
  emit (.configured (← get).build.mode c.profiling.enabled)

/-- Puts settings in place. -/
def initSettings (c : Settings) : Action Unit := do
  ofSettings (c.validate (← get).build)
  setProcessSettings c
  applySettings c

/-- Puts the variables of the environment on top of the settings in place. -/
def initFromEnvironment : Action Unit := do
  let c ← processSettings
  initSettings (c.overlay (← environment))

/-- Sets up which events are written, unless that was done before. -/
def initLogging (fallback : String) : Action Unit := do
  let s ← get
  if s.filter.isNone then
    set { s with filter := some (Filter.choose (s.lookup "RUST_LOG") fallback) }

/-- Starts from the environment. -/
def startUp : Action Unit := do
  initLogging Filter.standard
  initFromEnvironment
  emit (.ready (← get).build.mode)

/-- Starts with given settings. -/
def startWith (c : Settings) : Action Unit := do
  initLogging Filter.standard
  initSettings c

/-! ## Reports -/

/-- Reports the counters of every kind that has some. -/
def report (p : Profiler) : Action Unit :=
  p.recorded.forM fun (kind, stats) => do
    emit (.summary kind stats (← checked stats.outstanding))

/-- Reports the statistics, if the settings ask for it. -/
def shutDown : Action Unit := do
  let c ← processSettings
  if c.profiling.enabled && c.profiling.reportOnShutdown then
    let p := (← get).profiler
    report p
    (← checked p.leaking).forM fun (kind, outstanding) => emit (.leaking kind outstanding)

end ClaimCells.Action
