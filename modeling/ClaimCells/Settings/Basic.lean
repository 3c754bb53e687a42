import ClaimCells.Settings.Mode

/-!
# Settings

Which refcount mode a deployment expects, and whether claim statistics are kept and reported.
Settings can be overridden from a lookup shaped like the environment: `overlay` replaces exactly
the fields whose variable is present, and `ofLookup` is the overlay on the default.
-/

namespace ClaimCells

structure CellSettings where
  /-- The mode that the deployment needs. Without one any mode will do. -/
  refcountMode : Option RefcountMode := none
deriving DecidableEq, Repr, Inhabited

structure ProfilingSettings where
  enabled : Bool := false
  /-- Whether the statistics are written out at shutdown. -/
  reportOnShutdown : Bool := false
deriving DecidableEq, Repr, Inhabited

structure Settings where
  cells : CellSettings := {}
  profiling : ProfilingSettings := {}
deriving DecidableEq, Repr, Inhabited

/-- A source of values by name, such as the environment. -/
abbrev Lookup := String → Option String

/-! ## Variables -/

def refcountModeVar : String := "VARCELL_REFCOUNT_MODE"

def profileVar : String := "VARCELL_PROFILE"

def profileReportVar : String := "VARCELL_PROFILE_REPORT"

/-- A variable switches something off only with the exact word. -/
def switchOf (value : String) : Bool :=
  value != "false"

/-! ## Reading a lookup -/

/-- The mode that the lookup names. A name that is no mode counts as absent. -/
def CellSettings.ofLookup (l : Lookup) : CellSettings where
  refcountMode := (l refcountModeVar).bind RefcountMode.parse?

def ProfilingSettings.ofLookup (l : Lookup) : ProfilingSettings where
  enabled := ((l profileVar).map switchOf).getD false
  reportOnShutdown := ((l profileReportVar).map switchOf).getD false

def Settings.ofLookup (l : Lookup) : Settings where
  cells := .ofLookup l
  profiling := .ofLookup l

/-- The settings with every field replaced whose variable is present. -/
def Settings.overlay (s : Settings) (l : Lookup) : Settings where
  cells.refcountMode :=
    if (l refcountModeVar).isSome then (ofLookup l).cells.refcountMode else s.cells.refcountMode
  profiling.enabled :=
    if (l profileVar).isSome then (ofLookup l).profiling.enabled else s.profiling.enabled
  profiling.reportOnShutdown :=
    if (l profileReportVar).isSome then (ofLookup l).profiling.reportOnShutdown
    else s.profiling.reportOnShutdown

/-! ## Fitness -/

/-- Why settings cannot be taken over. -/
inductive SettingsError
  /-- The settings need another mode than the build has. -/
  | modeMismatch (expected active : RefcountMode)
  /-- The build cannot read or write settings files. -/
  | filesUnsupported
  | fileMissing
  /-- The bytes of the file are no text. -/
  | fileNotText
  /-- The text of the file is no settings document. -/
  | fileMalformed
deriving DecidableEq, Repr

/-- Whether the build can serve the settings. -/
def Settings.validate (s : Settings) (build : Build) : Except SettingsError Unit :=
  match s.cells.refcountMode with
  | some expected =>
    if expected = build.mode then .ok () else .error (.modeMismatch expected build.mode)
  | none => .ok ()

/-! ## Texts -/

def SettingsError.message : SettingsError → String
  | .modeMismatch expected active =>
    "configuration expects " ++ expected.word ++ " reference counts but the runtime was built with "
      ++ active.word ++ "; toggle the 'atomic-refcount' feature"
  | .filesUnsupported => "TOML support not enabled. Enable the 'toml-config' feature."
  | .fileMissing => "No such file or directory (os error 2)"
  | .fileNotText => "stream did not contain valid UTF-8"
  | .fileMalformed => "TOML"

/-- A switch as it is written everywhere. -/
def boolText (b : Bool) : String :=
  if b then "true" else "false"

def CellSettings.debugText (s : CellSettings) : String :=
  let mode := match s.refcountMode with
    | some m => "Some(" ++ m.variant ++ ")"
    | none => "None"
  "CellConfig \x7b refcount_mode: " ++ mode ++ " \x7d"

def ProfilingSettings.debugText (s : ProfilingSettings) : String :=
  "ProfilingConfig \x7b enabled: " ++ boolText s.enabled
    ++ ", report_on_shutdown: " ++ boolText s.reportOnShutdown ++ " \x7d"

def Settings.debugText (s : Settings) : String :=
  "RuntimeConfig \x7b cells: " ++ s.cells.debugText
    ++ ", profiling: " ++ s.profiling.debugText ++ " \x7d"

end ClaimCells
