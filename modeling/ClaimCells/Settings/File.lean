import ClaimCells.Settings.Basic
import ClaimCells.Text.Utf8
import ClaimCells.Toml.Decoder
import ClaimCells.Toml.Reader

/-!
# Settings files

Settings are kept in a TOML document with one table for each section. A build without support
for files can neither read nor write one.
-/

namespace ClaimCells

open Text.Utf8 (Bytes decode?)
open Toml (Field choice? bool? record?)

/-- The content of a file, if there is one. -/
abbrev FileContent := Option Bytes

/-! ## Reading -/

def CellSettings.ofToml? : Toml → Option CellSettings :=
  record? [
    .stored "refcount_mode" (choice? [("Plain", RefcountMode.plain), ("Atomic", .atomic)])
      fun m s => { s with refcountMode := some m }] {}

def ProfilingSettings.ofToml? : Toml → Option ProfilingSettings :=
  record? [
    .stored "enabled" bool? fun b s => { s with enabled := b },
    .stored "report_on_shutdown" bool? fun b s => { s with reportOnShutdown := b }] {}

def Settings.ofToml? : Toml → Option Settings :=
  record? [
    .stored "cells" CellSettings.ofToml? fun c s => { s with cells := c },
    .stored "profiling" ProfilingSettings.ofToml? fun p s => { s with profiling := p }] {}

/-- The settings that a file holds. -/
def Settings.ofFile (build : Build) (file : FileContent) : Except SettingsError Settings :=
  if !build.files then .error .filesUnsupported
  else match file with
    | none => .error .fileMissing
    | some bytes => match decode? bytes with
      | none => .error .fileNotText
      | some text => match (Toml.ofText? text).bind Settings.ofToml? with
        | none => .error .fileMalformed
        | some s => .ok s

/-! ## Writing -/

/-- The document that holds the settings. -/
def Settings.fileText (s : Settings) : String :=
  let mode := match s.cells.refcountMode with
    | some m => "refcount_mode = \"" ++ m.variant ++ "\"\n"
    | none => ""
  "[cells]\n" ++ mode ++ "\n[profiling]\nenabled = " ++ boolText s.profiling.enabled
    ++ "\nreport_on_shutdown = " ++ boolText s.profiling.reportOnShutdown ++ "\n"

/-- What is written to a file for the settings. -/
def Settings.save (s : Settings) (build : Build) : Except SettingsError String :=
  if build.files then .ok s.fileText else .error .filesUnsupported

/-! ## Start -/

/-- Settings from a file, if one is asked for, with the variables of a lookup on top. They are
only given if the build can serve them. -/
def Settings.start (build : Build) (file : Option FileContent) (l : Lookup) :
    Except SettingsError Settings := do
  let base ← match file with
    | some content => ofFile build content
    | none => .ok {}
  let s := base.overlay l
  s.validate build
  .ok s

end ClaimCells
