import ClaimCells.Proofs.Records
import ClaimCells.Proofs.Written
import ClaimCells.Proofs.Overlay

/-!
# Documents of settings

A document of settings may leave things out, and may have members that mean nothing. Settings are
read from it as an overlay on the default settings: a field is what the document says of it, or else
what it is by default (`Settings.given`).

Main result: `documents_read`.
-/

namespace ClaimCells

open Json (Decoder)

/-! ## What a document says -/

/-- The mode that a value names, if it does. -/
def RefcountMode.given : Json → Option RefcountMode
  | .text s => [plain, atomic].find? (·.variant = s)
  | _ => none

/-- Whether a value is the switch that is on. -/
def Json.isOn : Json → Bool
  | .bool b => b
  | _ => false

namespace Settings

/-- The default settings with every field replaced that the document has. -/
def given (doc : Json) : Settings where
  cells.refcountMode :=
    ((doc.values ["cells", "refcount_mode"]).head?.map RefcountMode.given).getD
      ({} : Settings).cells.refcountMode
  profiling.enabled :=
    ((doc.values ["profiling", "enabled"]).head?.map Json.isOn).getD
      ({} : Settings).profiling.enabled
  profiling.reportOnShutdown :=
    ((doc.values ["profiling", "report_on_shutdown"]).head?.map Json.isOn).getD
      ({} : Settings).profiling.reportOnShutdown

/-- An object with each section and each field in it at most once, where every section is an
object and every field has a value of its kind. There may be any other members. -/
structure Partial (doc : Json) : Prop where
  document : ∃ ms, doc = .object ms
  sections : ∀ key ∈ ["cells", "profiling"], (doc.values [key]).length ≤ 1 ∧
    ∀ v ∈ doc.values [key], ∃ ms, v = .object ms
  mode : (doc.values ["cells", "refcount_mode"]).length ≤ 1 ∧
    ∀ v ∈ doc.values ["cells", "refcount_mode"],
      v = .null ∨ v = .text "Plain" ∨ v = .text "Atomic"
  switches : ∀ key ∈ ["enabled", "report_on_shutdown"],
    (doc.values ["profiling", key]).length ≤ 1 ∧
      ∀ v ∈ doc.values ["profiling", key], ∃ b, v = .bool b

/-- A document with a section that is neither an object nor an array, or a switch in the profiling
section that is neither on nor off. -/
inductive Spoiled (doc : Json) : Prop
  | inSection (key : String) (v : Json) (hkey : key ∈ ["cells", "profiling"])
    (hv : v ∈ doc.values [key]) (hobject : ∀ ms, v ≠ .object ms) (harray : ∀ vs, v ≠ .array vs)
  | inSwitch (key : String) (v : Json) (hkey : key ∈ ["enabled", "report_on_shutdown"])
    (hv : v ∈ doc.values ["profiling", key]) (hbool : ∀ b, v ≠ .bool b)

end Settings

/-! ## Reading sections -/

namespace CellSettings

theorem mode_part :
    record.Part "refcount_mode" (.optional RefcountMode.decoder) refcountMode where
  field := ⟨_, rfl, fun _ _ => rfl⟩
  apart := by simp [record]

theorem decoder_agrees : decoder.Agrees := by
  refine Decoder.agrees_record fun f hf => ?_
  obtain rfl := List.mem_singleton.1 hf
  exact ((Decoder.agrees_choice _).optional).map _

/-- A section with a fitting mode, or without one, is read. -/
theorem read_given {v : Json} (hv : ∃ ms, v = .object ms)
    (hone : (v.under "refcount_mode").length ≤ 1)
    (hfits : ∀ w ∈ v.under "refcount_mode", w = .null ∨ w = .text "Plain" ∨ w = .text "Atomic") :
    decoder.ofValue v =
      .ok ⟨((v.under "refcount_mode").head?.map RefcountMode.given).getD none⟩ := by
  obtain ⟨ms, rfl⟩ := hv
  have hmode : ∀ w ∈ (Json.object ms).under "refcount_mode",
      (Decoder.optional RefcountMode.decoder).ofValue w = .ok (RefcountMode.given w) := by
    intro w hw
    obtain rfl | rfl | rfl := hfits w hw
    · rfl
    · rfl
    · rfl
  obtain ⟨c, hc⟩ : ∃ c, record.members ms [] record.start = .ok c := by
    refine Decoder.Record.members_succeeds rfl fun f hf => ?_
    obtain rfl := List.mem_singleton.1 hf
    exact ⟨hone, nofun, fun w hw => Decoder.Field.accepts_stored.2 ⟨_, hmode w hw⟩⟩
  show record.members ms [] record.start = _
  rw [hc]
  exact congrArg Except.ok (congrArg mk (mode_part.read_head hmode hc))

end CellSettings

namespace ProfilingSettings

theorem enabled_part : record.Part "enabled" .bool enabled where
  field := ⟨_, rfl, fun _ _ => rfl⟩
  apart := by simp [record, Decoder.Field.keeps_stored]

theorem report_part : record.Part "report_on_shutdown" .bool reportOnShutdown where
  field := ⟨_, rfl, fun _ _ => rfl⟩
  apart := by simp [record, Decoder.Field.keeps_stored]

theorem decoder_agrees : decoder.Agrees := by
  refine Decoder.agrees_record fun f hf => ?_
  obtain rfl | rfl : f = _ ∨ f = _ := by simpa [record] using hf
  · exact Decoder.agrees_bool.map _
  · exact Decoder.agrees_bool.map _

/-- A section whose switches are on or off is read. -/
theorem read_given {v : Json} (hv : ∃ ms, v = .object ms)
    (hfits : ∀ key ∈ ["enabled", "report_on_shutdown"],
      (v.under key).length ≤ 1 ∧ ∀ w ∈ v.under key, ∃ b, w = .bool b) :
    decoder.ofValue v = .ok ⟨((v.under "enabled").head?.map Json.isOn).getD false,
      ((v.under "report_on_shutdown").head?.map Json.isOn).getD false⟩ := by
  obtain ⟨ms, rfl⟩ := hv
  have hswitch : ∀ key ∈ ["enabled", "report_on_shutdown"], ∀ w ∈ (Json.object ms).under key,
      Decoder.bool.ofValue w = .ok w.isOn := by
    intro key hkey w hw
    obtain ⟨b, rfl⟩ := (hfits key hkey).2 w hw
    rfl
  have henabled := hswitch "enabled" (by simp)
  have hreport := hswitch "report_on_shutdown" (by simp)
  obtain ⟨p, hp⟩ : ∃ p, record.members ms [] record.start = .ok p := by
    refine Decoder.Record.members_succeeds rfl fun f hf => ?_
    obtain rfl | rfl : f = _ ∨ f = _ := by simpa [record] using hf
    · exact ⟨(hfits "enabled" (by simp)).1, nofun,
        fun w hw => Decoder.Field.accepts_stored.2 ⟨_, henabled w hw⟩⟩
    · exact ⟨(hfits "report_on_shutdown" (by simp)).1, nofun,
        fun w hw => Decoder.Field.accepts_stored.2 ⟨_, hreport w hw⟩⟩
  show record.members ms [] record.start = _
  rw [hp]
  exact congrArg Except.ok (congrArg₂ mk (enabled_part.read_head henabled hp)
    (report_part.read_head hreport hp))

end ProfilingSettings

/-! ## Reading documents -/

namespace Settings

theorem cells_part : record.Part "cells" CellSettings.decoder cells where
  field := ⟨_, rfl, fun _ _ => rfl⟩
  apart := by simp [record, Decoder.Field.keeps_stored]

theorem profiling_part : record.Part "profiling" ProfilingSettings.decoder profiling where
  field := ⟨_, rfl, fun _ _ => rfl⟩
  apart := by simp [record, Decoder.Field.keeps_stored]

theorem decoder_agrees : decoder.Agrees := by
  refine Decoder.agrees_record fun f hf => ?_
  obtain rfl | rfl : f = _ ∨ f = _ := by simpa [record] using hf
  · exact CellSettings.decoder_agrees.map _
  · exact ProfilingSettings.decoder_agrees.map _

variable {doc : Json}

/-- The section of a partial document about cells is read, if there is one. -/
theorem Partial.read_cells (h : Partial doc) {v : Json} (hv : v ∈ doc.under "cells") :
    CellSettings.decoder.ofValue v = .ok (given doc).cells := by
  obtain ⟨hone, hobject⟩ := h.sections "cells" (by simp)
  rw [Json.values_key] at hone hobject
  have hvalues := Json.values_pair_of_one (Json.eq_singleton_of_mem hone hv) "refcount_mode"
  obtain ⟨hmode, hfits⟩ := h.mode
  rw [hvalues] at hmode hfits
  rw [CellSettings.read_given (hobject v hv) hmode hfits, given, hvalues]

/-- The section of a partial document about profiling is read, if there is one. -/
theorem Partial.read_profiling (h : Partial doc) {v : Json} (hv : v ∈ doc.under "profiling") :
    ProfilingSettings.decoder.ofValue v = .ok (given doc).profiling := by
  obtain ⟨hone, hobject⟩ := h.sections "profiling" (by simp)
  rw [Json.values_key] at hone hobject
  have hvalues := Json.values_pair_of_one (Json.eq_singleton_of_mem hone hv)
  have hfits : ∀ key ∈ ["enabled", "report_on_shutdown"],
      (v.under key).length ≤ 1 ∧ ∀ w ∈ v.under key, ∃ b, w = .bool b :=
    fun key hkey => hvalues key ▸ h.switches key hkey
  rw [ProfilingSettings.read_given (hobject v hv) hfits, given, hvalues, hvalues]

/-- **A partial document is an overlay on the default settings.** -/
theorem Partial.read (h : Partial doc) : decoder.ofValue doc = .ok (given doc) := by
  obtain ⟨ms, rfl⟩ := h.document
  obtain ⟨hcells, -⟩ := h.sections "cells" (by simp)
  obtain ⟨hprofiling, -⟩ := h.sections "profiling" (by simp)
  rw [Json.values_key] at hcells hprofiling
  obtain ⟨c, hc⟩ : ∃ c, record.members ms [] record.start = .ok c := by
    refine Decoder.Record.members_succeeds rfl fun f hf => ?_
    obtain rfl | rfl : f = _ ∨ f = _ := by simpa [record] using hf
    · exact ⟨hcells, nofun, fun v hv => Decoder.Field.accepts_stored.2 ⟨_, h.read_cells hv⟩⟩
    · exact ⟨hprofiling, nofun,
        fun v hv => Decoder.Field.accepts_stored.2 ⟨_, h.read_profiling hv⟩⟩
  have hsame : c.cells = (given (.object ms)).cells := by
    obtain ⟨hnone, hget⟩ | ⟨-, v, hv, hget⟩ := cells_part.read hc
    · rw [hget, given, Json.values_pair_of_none hnone]
      rfl
    · exact Except.ok.inj (hget.symm.trans (h.read_cells (hv ▸ List.mem_singleton_self v)))
  have hsame' : c.profiling = (given (.object ms)).profiling := by
    obtain ⟨hnone, hget⟩ | ⟨-, v, hv, hget⟩ := profiling_part.read hc
    · rw [hget, given, Json.values_pair_of_none hnone, Json.values_pair_of_none hnone]
      rfl
    · exact Except.ok.inj (hget.symm.trans (h.read_profiling (hv ▸ List.mem_singleton_self v)))
  show record.members ms [] record.start = _
  rw [hc]
  exact congrArg Except.ok (congrArg₂ Settings.mk hsame hsame')

/-- A spoiled document is not read. -/
theorem Spoiled.unread (h : Spoiled doc) : ∃ f, decoder.ofValue doc = .error f := by
  cases hc : decoder.ofValue doc with
  | error f => exact ⟨f, rfl⟩
  | ok c =>
    exfalso
    cases h with
    | inSection key v hkey hv hobject harray =>
      rw [Json.values_key] at hv
      have hshape : (∃ ms, v = .object ms) ∨ ∃ vs, v = .array vs := by
        obtain rfl | rfl : key = _ ∨ key = _ := by simpa using hkey
        · obtain ⟨c, hc⟩ := cells_part.accepted hc hv
          exact Decoder.Record.ofValue_shape hc
        · obtain ⟨p, hp⟩ := profiling_part.accepted hc hv
          exact Decoder.Record.ofValue_shape hp
      obtain ⟨ms, hms⟩ | ⟨vs, hvs⟩ := hshape
      · exact hobject ms hms
      · exact harray vs hvs
    | inSwitch key v hkey hv hbool =>
      rw [Json.values_pair] at hv
      obtain ⟨w, hw, hv⟩ := List.mem_flatMap.1 hv
      obtain ⟨p, hp⟩ := profiling_part.accepted hc hw
      have hread : ∃ b, Decoder.bool.ofValue v = .ok b := by
        obtain rfl | rfl : key = _ ∨ key = _ := by simpa using hkey
        · exact ProfilingSettings.enabled_part.accepted hp hv
        · exact ProfilingSettings.report_part.accepted hp hv
      obtain ⟨b, hb⟩ := hread
      cases v with
      | bool b => exact hbool b rfl
      | null | number n | text t | array vs | object ms => cases hb

/-! ## Order and other members -/

/-- Two objects have the same members with these names, in whatever order. What they have beside
them does not matter. -/
def SameAt (names : List String) (ms ms' : List (String × Json)) : Prop :=
  (ms.filter (·.1 ∈ names)).Perm (ms'.filter (·.1 ∈ names))

/-- The sections of settings, each with its fields. -/
def sectionFields : List (String × List String) :=
  [("cells", ["refcount_mode"]), ("profiling", ["enabled", "report_on_shutdown"])]

/-- From one document to another by changing the order of members, and by adding, dropping and
changing members that mean nothing, in the document itself or in a section of it. -/
inductive Rearranged : Json → Json → Prop
  | document {ms ms' : List (String × Json)} (h : SameAt (sectionFields.map Prod.fst) ms ms') :
    Rearranged (.object ms) (.object ms')
  | within (before after : List (String × Json)) {key : String} {names : List String}
    {fs fs' : List (String × Json)} (hkey : (key, names) ∈ sectionFields)
    (h : SameAt names fs fs') :
    Rearranged (.object (before ++ (key, .object fs) :: after))
      (.object (before ++ (key, .object fs') :: after))
  | trans {d d' d'' : Json} (h : Rearranged d d') (h' : Rearranged d' d'') : Rearranged d d''

theorem SameAt.under {names : List String} {ms ms' : List (String × Json)}
    (h : SameAt names ms ms') {key : String} (hkey : key ∈ names) :
    ((Json.object ms).under key).Perm ((Json.object ms').under key) := by
  have hfilter (ms : List (String × Json)) :
      ms.filter (·.1 = key) = (ms.filter (·.1 ∈ names)).filter (·.1 = key) := by
    rw [List.filter_filter]
    refine List.filter_congr fun m _ => ?_
    by_cases hm : m.1 = key <;> simp [hm, hkey]
  rw [Json.under, Json.under, hfilter ms, hfilter ms']
  exact (h.filter _).map _

theorem sectionFields_unique {key : String} {names names' : List String}
    (h : (key, names) ∈ sectionFields) (h' : (key, names') ∈ sectionFields) : names = names' := by
  simp only [sectionFields, List.mem_cons, List.not_mem_nil, or_false, Prod.mk.injEq] at h h'
  obtain ⟨rfl, rfl⟩ | ⟨rfl, rfl⟩ := h
  · simpa [eq_comm] using h'
  · simpa [eq_comm] using h'

namespace Rearranged

variable {d d' : Json} {key name : String} {names : List String}

theorem object (h : Rearranged d d') : ∃ ms, d' = .object ms := by
  induction h with
  | document h => exact ⟨_, rfl⟩
  | within before after hkey h => exact ⟨_, rfl⟩
  | trans h h' ih ih' => exact ih'

/-- There are as many sections as before, and they are still objects. -/
theorem sections (h : Rearranged d d') (hkey : (key, names) ∈ sectionFields) :
    (d'.under key).length = (d.under key).length ∧
      ((∀ v ∈ d.under key, ∃ ms, v = .object ms) → ∀ v ∈ d'.under key, ∃ ms, v = .object ms) := by
  induction h with
  | document h =>
    have hperm := h.under (List.mem_map_of_mem hkey)
    exact ⟨hperm.length_eq.symm, fun hobject v hv => hobject v (hperm.mem_iff.2 hv)⟩
  | @within before after key' names' fs fs' hkey' h =>
    simp only [Json.under_append, Json.under_cons]
    split
    · refine ⟨by simp, fun hobject v hv => ?_⟩
      obtain hv | rfl | hv : v ∈ _ ∨ v = _ ∨ v ∈ _ := by simpa using hv
      · exact hobject v (List.mem_append_left _ hv)
      · exact ⟨fs', rfl⟩
      · exact hobject v (List.mem_append_right _ (.tail _ hv))
    · exact ⟨rfl, id⟩
  | trans h h' ih ih' => exact ⟨ih'.1.trans ih.1, ih'.2 ∘ ih.2⟩

/-- What is said of a field is the same as before, up to order. -/
theorem fields (h : Rearranged d d') (hkey : (key, names) ∈ sectionFields) (hname : name ∈ names) :
    (d.values [key, name]).Perm (d'.values [key, name]) := by
  induction h with
  | document h =>
    rw [Json.values_pair, Json.values_pair]
    exact (h.under (List.mem_map_of_mem hkey)).flatMap_right _
  | @within before after key' names' fs fs' hkey' h =>
    rw [Json.values_pair, Json.values_pair, Json.under_append, Json.under_append, Json.under_cons,
      Json.under_cons]
    split
    · next heq =>
      subst heq
      obtain rfl := sectionFields_unique hkey hkey'
      simp only [List.flatMap_append, List.flatMap_cons]
      exact ((h.under hname).append_right _).append_left _
    · exact .refl _
  | trans h h' ih ih' => exact ih.trans ih'

/-- What is said once of a field, or not at all, is the same as before. -/
theorem values (h : Rearranged d d') (hkey : (key, names) ∈ sectionFields) (hname : name ∈ names)
    (hone : (d.values [key, name]).length ≤ 1) : d'.values [key, name] = d.values [key, name] :=
  Json.eq_of_perm hone (h.fields hkey hname)

end Rearranged

/-- A partial document stays one when it is rearranged, and gives the same settings. -/
theorem Partial.rearranged {d d' : Json} (h : Partial d) (hd : Rearranged d d') :
    Partial d' ∧ given d' = given d := by
  have hcells : ("cells", ["refcount_mode"]) ∈ sectionFields := by simp [sectionFields]
  have hprofiling : ("profiling", ["enabled", "report_on_shutdown"]) ∈ sectionFields := by
    simp [sectionFields]
  have hmode := hd.values hcells (List.mem_singleton_self _) h.mode.1
  have hswitch : ∀ key ∈ ["enabled", "report_on_shutdown"],
      d'.values ["profiling", key] = d.values ["profiling", key] :=
    fun key hkey => hd.values hprofiling hkey (h.switches key hkey).1
  refine ⟨⟨hd.object, fun key hkey => ?_, ?_, fun key hkey => ?_⟩, ?_⟩
  · obtain ⟨hone, hobject⟩ := h.sections key hkey
    obtain ⟨names, hnames⟩ : ∃ names, (key, names) ∈ sectionFields := by
      obtain rfl | rfl : key = _ ∨ key = _ := by simpa using hkey
      · exact ⟨_, hcells⟩
      · exact ⟨_, hprofiling⟩
    obtain ⟨hlength, hstill⟩ := hd.sections hnames
    rw [Json.values_key] at hone hobject ⊢
    exact ⟨hlength ▸ hone, hstill hobject⟩
  · rw [hmode]
    exact h.mode
  · rw [hswitch key hkey]
    exact h.switches key hkey
  · rw [given, given, hmode, hswitch "enabled" (by simp), hswitch "report_on_shutdown" (by simp)]

/-! ## Written settings -/

variable (c : Settings)

theorem toJson_mode : c.toJson.values ["cells", "refcount_mode"] =
    [(c.cells.refcountMode.map RefcountMode.toJson).getD .null] := rfl

theorem toJson_enabled : c.toJson.values ["profiling", "enabled"] =
    [.bool c.profiling.enabled] := rfl

theorem toJson_report : c.toJson.values ["profiling", "report_on_shutdown"] =
    [.bool c.profiling.reportOnShutdown] := rfl

theorem partial_toJson : Partial c.toJson where
  document := ⟨_, rfl⟩
  sections key hkey := by
    obtain rfl | rfl : key = _ ∨ key = _ := by simpa using hkey
    · exact ⟨le_rfl, fun v hv => ⟨_, List.mem_singleton.1 hv⟩⟩
    · exact ⟨le_rfl, fun v hv => ⟨_, List.mem_singleton.1 hv⟩⟩
  mode := by
    rw [toJson_mode]
    refine ⟨le_rfl, fun v hv => ?_⟩
    rw [List.mem_singleton.1 hv]
    obtain _ | _ | _ := c.cells.refcountMode
    · exact .inl rfl
    · exact .inr (.inl rfl)
    · exact .inr (.inr rfl)
  switches key hkey := by
    obtain rfl | rfl : key = _ ∨ key = _ := by simpa using hkey
    · exact ⟨le_rfl, fun v hv => ⟨_, List.mem_singleton.1 hv⟩⟩
    · exact ⟨le_rfl, fun v hv => ⟨_, List.mem_singleton.1 hv⟩⟩

theorem given_toJson : given c.toJson = c := by
  apply eq_of_fields
  · rw [given, toJson_mode]
    obtain _ | _ | _ := c.cells.refcountMode
    · rfl
    · rfl
    · rfl
  · rw [given, toJson_enabled]
    rfl
  · rw [given, toJson_report]
    rfl

theorem unnumbered_toJson : c.toJson.Unnumbered := by
  have hmode : ((c.cells.refcountMode.map RefcountMode.toJson).getD .null).Unnumbered := by
    obtain _ | m := c.cells.refcountMode
    · exact .null
    · exact .text _
  have hcells : c.cells.toJson.Unnumbered := .object (List.forall_mem_singleton.2 hmode)
  have hprofiling : c.profiling.toJson.Unnumbered :=
    .object (List.forall_mem_cons.2 ⟨.bool _, List.forall_mem_singleton.2 (.bool _)⟩)
  exact .object (List.forall_mem_cons.2 ⟨hcells, List.forall_mem_singleton.2 hprofiling⟩)

end Settings

/-- **Documents are overlays on the default settings.** A partial document, at hand or as a text, is
read as the default settings with the fields replaced that it has. Nothing depends on the order of
its members or on members that mean nothing, so settings that were written are read back whatever
is added to them. A document with a section or a switch that is none is not read. -/
theorem documents_read {src : Json.Source} {doc : Json} (hsrc : src.Holds doc) :
    (Settings.Partial doc → Settings.decoder.decode src = .ok (Settings.given doc)) ∧
      (∀ base, Settings.Partial base → Settings.Rearranged base doc →
        Settings.decoder.decode src = .ok (Settings.given base)) ∧
      (∀ c : Settings, Settings.Rearranged c.toJson doc → Settings.decoder.decode src = .ok c) ∧
      (∀ c : Settings, Settings.decoder.decode (.text c.toJson.compact) = .ok c) ∧
      (Settings.Spoiled doc → ∃ f, Settings.decoder.decode src = .error f) := by
  obtain ⟨hread, hunread⟩ := Settings.decoder_agrees.decode hsrc
  have hbase : ∀ base, Settings.Partial base → Settings.Rearranged base doc →
      Settings.decoder.decode src = .ok (Settings.given base) := by
    intro base hpart hfrom
    obtain ⟨hdoc, hgiven⟩ := hpart.rearranged hfrom
    rw [← hgiven]
    exact hread _ hdoc.read
  refine ⟨fun hdoc => hread _ hdoc.read, hbase, fun c hfrom => ?_, fun c => ?_, fun hdoc => ?_⟩
  · rw [hbase _ c.partial_toJson hfrom, c.given_toJson]
  · have hheld : (Json.Source.text c.toJson.compact).Holds c.toJson :=
      c.unnumbered_toJson.ofText_compact
    rw [(Settings.decoder_agrees.decode hheld).1 _ c.partial_toJson.read, c.given_toJson]
  · obtain ⟨f, hf⟩ := hdoc.unread
    exact hunread f hf

/-- Profiling is switched on without a word about cells, with or without a stranger in the document.
Settings that were written are read back from a shuffled document. A switch cannot be null. -/
theorem documents_read_profiling :
    Settings.decoder.decode (.value (.object [("profiling", .object [("enabled", .bool true)])])) =
        .ok { profiling.enabled := true } ∧
      Settings.decoder.decode
          (.text "\x7b\"a\":[0],\"profiling\":\x7b\"enabled\":true\x7d\x7d") =
        .ok { profiling.enabled := true } ∧
      Settings.decoder.decode (.value (.object [
          ("profiling", .object [("report_on_shutdown", .bool true), ("enabled", .bool false),
            ("a", .null)]),
          ("cells", .object [("refcount_mode", .text "Plain")])])) =
        .ok { cells.refcountMode := some .plain, profiling.reportOnShutdown := true } ∧
      ∃ f, Settings.decoder.decode
          (.value (.object [("profiling", .object [("enabled", .null)])])) = .error f := by
  have hbase : Settings.Partial (.object [("profiling", .object [("enabled", .bool true)])]) := by
    refine ⟨⟨_, rfl⟩, fun key hkey => ?_, ?_, fun key hkey => ?_⟩
    · obtain rfl | rfl : key = _ ∨ key = _ := by simpa using hkey
      · exact ⟨by decide, by simp [Json.values, Json.under]⟩
      · exact ⟨le_rfl, fun v hv => ⟨_, List.mem_singleton.1 hv⟩⟩
    · exact ⟨by decide, by simp [Json.values, Json.under]⟩
    · obtain rfl | rfl : key = _ ∨ key = _ := by simpa using hkey
      · exact ⟨le_rfl, fun v hv => ⟨_, List.mem_singleton.1 hv⟩⟩
      · exact ⟨by decide, by simp [Json.values, Json.under]⟩
  refine ⟨(documents_read (Json.Source.holds_value _)).1 hbase, ?_, ?_, ?_⟩
  · have htext : Json.ofText "\x7b\"a\":[0],\"profiling\":\x7b\"enabled\":true\x7d\x7d" =
        .ok (.object [("a", .array [.number (.natural 0)]),
          ("profiling", .object [("enabled", .bool true)])]) := by cbv
    have hholds : (Json.Source.text _).Holds _ := htext
    exact (documents_read hholds).2.1 _ hbase (.document (.refl _))
  · have hswap : Settings.SameAt ["enabled", "report_on_shutdown"]
        [("enabled", .bool false), ("report_on_shutdown", .bool true)]
        [("report_on_shutdown", .bool true), ("enabled", .bool false), ("a", .null)] :=
      List.Perm.swap _ _ []
    have hsections : Settings.SameAt ["cells", "profiling"]
        [("cells", .object [("refcount_mode", .text "Plain")]), ("profiling", .object [
          ("enabled", .bool false), ("report_on_shutdown", .bool true)])]
        [("profiling", .object [("enabled", .bool false), ("report_on_shutdown", .bool true)]),
          ("cells", .object [("refcount_mode", .text "Plain")])] :=
      List.Perm.swap _ _ []
    exact (documents_read (Json.Source.holds_value _)).2.2.1
      { cells.refcountMode := some .plain, profiling.reportOnShutdown := true }
      (.trans (.document hsections) (.within [] _ (.tail _ (.head _)) hswap))
  · have hspoiled : Settings.Spoiled (.object [("profiling", .object [("enabled", .null)])]) :=
      .inSwitch "enabled" .null (by simp) (List.mem_singleton_self _) (by simp)
    exact (documents_read (Json.Source.holds_value _)).2.2.2.2 hspoiled

end ClaimCells
