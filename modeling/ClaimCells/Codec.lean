import ClaimCells.Json.Decoder
import ClaimCells.Json.Document
import ClaimCells.Cell
import ClaimCells.Settings.Basic

/-!
# Settings and statistics as JSON

The JSON form of settings, modes and counters, and the decoders that read it back. Settings may
leave out any section and any field; counters must all be given.
-/

namespace ClaimCells

open Json (Decoder)

/-! ## Writing -/

def RefcountMode.toJson (m : RefcountMode) : Json := .text m.variant

def OwnershipMode.toJson (m : OwnershipMode) : Json := .text m.variant

def CellKind.toJson (k : CellKind) : Json := .text k.variant

def CellSettings.toJson (s : CellSettings) : Json :=
  .object [("refcount_mode", (s.refcountMode.map RefcountMode.toJson).getD .null)]

def ProfilingSettings.toJson (s : ProfilingSettings) : Json :=
  .object [("enabled", .bool s.enabled), ("report_on_shutdown", .bool s.reportOnShutdown)]

def Settings.toJson (s : Settings) : Json :=
  .object [("cells", s.cells.toJson), ("profiling", s.profiling.toJson)]

def KindStats.toJson (s : KindStats) : Json :=
  .object [("constructed", .number (.natural s.constructed)),
    ("claims_bound", .number (.natural s.bound)),
    ("claims_released", .number (.natural s.released)),
    ("transferred_out", .number (.natural s.transferred)),
    ("unbound_errors", .number (.natural s.unbound)),
    ("cells_freed", .number (.natural s.freed))]

/-! ## Reading -/

def RefcountMode.decoder : Decoder RefcountMode :=
  .choice [("Plain", .plain), ("Atomic", .atomic)]

def OwnershipMode.decoder : Decoder OwnershipMode :=
  .choice [("Owned", .owned), ("Borrowed", .borrowed)]

def CellKind.decoder : Decoder CellKind :=
  .choice [("Plain", .plain), ("Parameter", .parameter), ("Shared", .shared), ("Temp", .temp)]

def CellSettings.record : Decoder.Record CellSettings where
  name := "CellConfig"
  start := {}
  fields := [
    .stored "refcount_mode" (.optional RefcountMode.decoder)
      fun m s => { s with refcountMode := m }]

def CellSettings.decoder : Decoder CellSettings := .record CellSettings.record

def ProfilingSettings.record : Decoder.Record ProfilingSettings where
  name := "ProfilingConfig"
  start := {}
  fields := [
    .stored "enabled" .bool fun b s => { s with enabled := b },
    .stored "report_on_shutdown" .bool fun b s => { s with reportOnShutdown := b }]

def ProfilingSettings.decoder : Decoder ProfilingSettings := .record ProfilingSettings.record

def Settings.record : Decoder.Record Settings where
  name := "RuntimeConfig"
  start := {}
  fields := [
    .stored "cells" CellSettings.decoder fun c s => { s with cells := c },
    .stored "profiling" ProfilingSettings.decoder fun p s => { s with profiling := p }]

def Settings.decoder : Decoder Settings := .record Settings.record

def KindStats.decoder : Decoder KindStats := .record {
  name := "KindStats"
  start := {}
  strict := true
  fields := [
    .stored "constructed" .word64 fun n s => { s with constructed := n },
    .stored "claims_bound" .word64 fun n s => { s with bound := n },
    .stored "claims_released" .word64 fun n s => { s with released := n },
    .stored "transferred_out" .word64 fun n s => { s with transferred := n },
    .stored "unbound_errors" .word64 fun n s => { s with unbound := n },
    .stored "cells_freed" .word64 fun n s => { s with freed := n }] }

/-- Where a document comes from: a value at hand, or text. -/
inductive Json.Source
  | value (v : Json)
  | text (s : String)

/-- Reads a document from wherever it comes. -/
def Json.Decoder.decode {α : Type} (d : Decoder α) : Json.Source → Except Json.Fault α
  | .value v => d.ofValue v
  | .text s => d.decodeText s

end ClaimCells
