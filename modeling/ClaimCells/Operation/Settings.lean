import ClaimCells.StartUp

/-!
# Operations on settings

An operation that changes settings answers their document; one that fails leaves them alone.
-/

namespace ClaimCells

/-- The document of settings. -/
def Settings.json (c : Settings) : String :=
  c.toJson.compact

namespace Action

/-! ## The settings at hand -/

def setSettings (c : Settings) : Action Answer := do
  inThread ({ · with settings := c })
  return .text c.json

def performSettings (op : SettingsOp) : Action Answer := do
  let c := (← thread).settings
  let build := (← get).build
  match op with
  | .default => setSettings {}
  | .lookup values => setSettings (.ofLookup values.get?)
  | .merge values => setSettings (c.overlay values.get?)
  | .fromEnvironment => do setSettings (.ofLookup (← environment))
  | .mergeEnvironment => do setSettings (c.overlay (← environment))
  | .decode source => do setSettings (← decoded Settings.decoder source)
  | .load file => do setSettings (← ofSettings (Settings.ofFile build file))
  | .json => return .text c.json
  | .debug => return .text c.debugText
  | .eq source => return .flag ((← decoded Settings.decoder source) = c)
  | .validate => do
    ofSettings (c.validate build)
    return .nothing
  | .apply => do
    applySettings c
    return .flag (← get).profiler.enabled
  | .init => do
    initSettings c
    return .nothing
  | .initWith => do
    startWith c
    return .nothing
  | .save => return .text (← ofSettings (c.save build))

/-! ## Managers -/

/-- The settings of the manager at hand, or of the process. -/
def managed (ofProcess : Bool) : Action Settings := do
  if ofProcess then processSettings else return (← thread).managed

def setManaged (ofProcess : Bool) (c : Settings) : Action Unit :=
  if ofProcess then setProcessSettings c else inThread ({ · with managed := c })

def performManager (ofProcess : Bool) : ManagerOp → Action Answer
  | .new => do
    setManaged false {}
    return .nothing
  | .init file => do
    let _ ← managed ofProcess
    let s ← get
    setManaged ofProcess (← ofSettings (Settings.start s.build file s.lookup))
    return .nothing
  | .get => return .text (← managed ofProcess).json
  | .profiling => do
    let p := (← managed ofProcess).profiling
    return .profiling p.toJson.compact p.enabled
  | .update source => do
    let _ ← managed ofProcess
    let c ← decoded Settings.decoder source
    setManaged ofProcess c
    return .nothing

/-! ## The process -/

/-- What a document of some type holds, written again. -/
def decodeDocument (source : Json.Source) : DocumentType → Action Answer
  | .refcountMode => return .text (← decoded RefcountMode.decoder source).toJson.compact
  | .ownershipMode => return .text (← decoded OwnershipMode.decoder source).toJson.compact
  | .cellKind => do
    let k ← decoded CellKind.decoder source
    return .texts k.toJson.compact k.word
  | .cellSettings => return .text (← decoded CellSettings.decoder source).toJson.compact
  | .profilingSettings => return .text (← decoded ProfilingSettings.decoder source).toJson.compact

def setVariable (name : String) (value : Option Text.Utf8.Bytes) : Action Unit :=
  modify fun s => { s with environment := match value with
    | some v => s.environment.insert name v
    | none => s.environment.erase name }

def performProcess : ProcessOp → Action Answer
  | .init => do
    startUp
    return .nothing
  | .initFromEnvironment => do
    initFromEnvironment
    return .nothing
  | .initLogging fallback => do
    initLogging (fallback.getD Filter.standard)
    return .nothing
  | .shutdown => do
    shutDown
    return .nothing
  | .setEnvironment name value => do
    setVariable name value
    return .nothing
  | .parseMode text => match RefcountMode.parse? text with
    | some m => return .texts m.variant m.word
    | none => fail (.unknownMode text)
  | .activeMode => return .text (← get).build.mode.word
  | .decode type source => decodeDocument source type

end Action

end ClaimCells
