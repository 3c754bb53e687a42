import ClaimCells.Proofs.Overlay
import Mathlib

/-!
# The names of a mode

A text names a mode if it is one of the names of the mode in lower case, and the lower case is that
of the whole of Unicode. Still nothing outside ASCII names a mode. What is outside ASCII stays
there in lower case, at least in part; only the Kelvin sign leaves it whole, for a `k`, and no name
has a `k`. So a text names a mode exactly if it is one of its names but for the case of ASCII
letters.

**Sigmas.** At the end of a word a sigma has a lower case of its own. `LowerCase` leaves open which
of the two a sigma takes, since neither leads to a name.

Main result: `modes_named`.
-/

namespace ClaimCells

namespace Text

variable {c : Char} {cs ds : List Char} {s t : String}

/-! ## Case -/

/-- The texts differ in nothing but the case of ASCII letters. -/
def EqButCase (s t : String) : Prop :=
  s.toList.map Char.toLower = t.toList.map Char.toLower

instance : Decidable (EqButCase s t) :=
  inferInstanceAs (Decidable (_ = _))

/-- Characters in lower case, whichever form each sigma takes. -/
inductive LowerCase : List Char → List Char → Prop
  | nil : LowerCase [] []
  | form {cs ds : List Char} (c : Char) (h : LowerCase cs ds) :
    LowerCase (c :: cs) (lowercaseChar c ++ ds)
  | sigma {cs ds : List Char} (h : LowerCase cs ds) : LowerCase ('Σ' :: cs) ('ς' :: ds)

theorem lowerCase_lowercase (s : String) : LowerCase s.toList (lowercase s).toList := by
  rw [lowercase, String.toList_ofList]
  induction s.toList with
  | nil => exact .nil
  | cons c cs ih => exact .form c ih

/-! ## ASCII -/

/-- A character that is ASCII and no blank in lower case is so before. -/
theorem printed_of_toLower (h : ' ' < c.toLower ∧ c.toLower.toNat < 0x80) :
    ' ' < c ∧ c.toNat < 0x80 := by
  by_cases hc : c.isUpper
  · simp only [Char.isUpper, decide_eq_true_eq, UInt32.le_iff_toNat_le, Char.toNat_val] at hc
    exact ⟨Nat.lt_of_lt_of_le (by decide) hc.1, hc.2.trans_lt (by decide)⟩
  · rwa [Char.toLower_eq_of_not_isUpper hc] at h

/-- There is only one way to write ASCII characters in lower case. -/
theorem LowerCase.of_ascii (h : LowerCase cs ds) (hcs : ∀ c ∈ cs, c.toNat < 0x80) :
    ds = cs.map Char.toLower := by
  induction h with
  | nil => rfl
  | form c h ih =>
    rw [lowercaseChar, if_pos (hcs c List.mem_cons_self), ih fun d hd => hcs d (.tail _ hd)]
    rfl
  | sigma => exact absurd (hcs 'Σ' List.mem_cons_self) (by decide)

/-! ## Outside ASCII -/

/-- What a character outside ASCII has in its lower case. -/
def Exotic (c : Char) : Prop :=
  0x80 ≤ c.toNat ∨ c = 'k'

/-- A run of capitals has its forms outside ASCII, or is the Kelvin sign. -/
theorem capitalRuns_forms : ∀ r ∈ capitalRuns, r.first = r.last ∧ r.form = 'k'.toNat ∨
    0x80 ≤ r.form ∧ (r.last - r.first + r.form < 0xD800 ∨
      0xDFFF < r.form ∧ r.last - r.first + r.form < 0x110000) := by
  decide +kernel

theorem exotic_lower {r : CapitalRun} {n f : Nat} (hr : r ∈ capitalRuns)
    (h : r.lower? n = some f) : Exotic (Char.ofNat f) := by
  rw [CapitalRun.lower?] at h
  split at h
  · next hn =>
    obtain ⟨hfirst, hlast, -⟩ := hn
    cases h
    obtain ⟨hone, hform⟩ | ⟨hform, hvalid⟩ := capitalRuns_forms r hr
    · have hk : n - r.first + r.form = 'k'.toNat := by omega
      exact .inr (by rw [hk, Char.ofNat_toNat])
    · have hv : (n - r.first + r.form).isValidChar := by
        rw [Nat.isValidChar]
        omega
      refine .inl ?_
      rw [Char.toNat_ofNat, if_pos hv]
      omega
  · cases h

theorem exists_exotic (h : 0x80 ≤ c.toNat) : ∃ d ∈ lowercaseChar c, Exotic d := by
  rw [lowercaseChar, if_neg (Nat.not_lt.2 h)]
  split
  · exact ⟨Char.ofNat 0x307, by simp, .inl (by decide)⟩
  · split
    · next f hf =>
      obtain ⟨r, hr, hlower⟩ := List.exists_of_findSome?_eq_some hf
      exact ⟨_, List.mem_singleton_self _, exotic_lower hr hlower⟩
    · exact ⟨c, List.mem_singleton_self c, .inl h⟩

theorem LowerCase.exotic (h : LowerCase cs ds) (hc : c ∈ cs) (hout : 0x80 ≤ c.toNat) :
    ∃ d ∈ ds, Exotic d := by
  induction h with
  | nil => cases hc
  | form b h ih =>
    cases hc with
    | head =>
      obtain ⟨d, hd, hf⟩ := exists_exotic hout
      exact ⟨d, List.mem_append_left _ hd, hf⟩
    | tail _ hc =>
      obtain ⟨d, hd, hf⟩ := ih hc
      exact ⟨d, List.mem_append_right _ hd, hf⟩
  | sigma => exact ⟨'ς', List.mem_cons_self, .inl (by decide)⟩

end Text

/-! ## Names -/

namespace RefcountMode

open Text (EqButCase LowerCase Exotic)

variable {m : RefcountMode} {name s t : String} {c : Char}

/-- The names are written in ASCII without capitals and blanks, and none has a `k`. -/
theorem names_letters : ∀ name ∈ m.names, ∀ c ∈ name.toList,
    (' ' < c ∧ c.toNat < 0x80) ∧ c.toLower = c ∧ c ≠ 'k' := by
  cases m <;> simp [names]

theorem names_not_exotic (h : name ∈ m.names) (hc : c ∈ name.toList) : ¬ Exotic c := by
  obtain ⟨⟨-, hascii⟩, -, hk⟩ := names_letters name h c hc
  rintro (hout | heq)
  · exact Nat.not_lt.2 hout hascii
  · exact hk heq

theorem names_toLower (h : name ∈ m.names) : name.toList.map Char.toLower = name.toList :=
  (List.map_congr_left fun c hc => (names_letters name h c hc).2.1).trans (List.map_id' _)

/-- What is a name but for its case has no blank in it and nothing outside ASCII. -/
theorem printed_of_eqButCase (h : name ∈ m.names) (hs : EqButCase s name) (hc : c ∈ s.toList) :
    ' ' < c ∧ c.toNat < 0x80 := by
  have hmem : c.toLower ∈ name.toList := by
    rw [← names_toLower h, ← hs]
    exact List.mem_map_of_mem hc
  exact Text.printed_of_toLower (names_letters name h _ hmem).1

/-- Whatever form its sigmas take, a text is a name in lower case exactly if it is one but for the
case of ASCII letters. -/
theorem lowerCase_mem_names (h : LowerCase s.toList t.toList) :
    t ∈ m.names ↔ ∃ name ∈ m.names, EqButCase s name := by
  constructor
  · intro ht
    have hascii : ∀ c ∈ s.toList, c.toNat < 0x80 := by
      intro c hc
      by_contra hout
      obtain ⟨d, hd, hexotic⟩ := h.exotic hc (Nat.not_lt.1 hout)
      exact names_not_exotic ht hd hexotic
    refine ⟨t, ht, ?_⟩
    rw [EqButCase, names_toLower ht, h.of_ascii hascii]
  · rintro ⟨name, hname, hs⟩
    have hlower : t.toList = name.toList := by
      rw [h.of_ascii fun c hc => (printed_of_eqButCase hname hs hc).2, hs, names_toLower hname]
    rwa [String.toList_inj.1 hlower]

theorem parse?_iff_eqButCase : parse? s = some m ↔ ∃ name ∈ m.names, EqButCase s name := by
  rw [parse?_eq_some_iff, lowerCase_mem_names (Text.lowerCase_lowercase s)]

end RefcountMode

/-- **Exactly its names name a mode.** A text names a mode if it is one of the names of the mode but
for the case of ASCII letters, and any other text is refused with a message that ends with it. No
text does that has a character outside ASCII in it, nor one with a blank, in front, behind or
inside; it does not matter which lower case a sigma takes. The word for a mode names it. -/
theorem modes_named (s : String) :
    (RefcountMode.parse? s = some .plain ↔
      ∃ name ∈ ["plain", "rc", "single-threaded"], Text.EqButCase s name) ∧
    (RefcountMode.parse? s = some .atomic ↔
      ∃ name ∈ ["atomic", "arc", "threaded"], Text.EqButCase s name) ∧
    ((∀ name ∈ ["plain", "rc", "single-threaded"] ++ ["atomic", "arc", "threaded"],
        ¬ Text.EqButCase s name) →
      RefcountMode.parse? s = none ∧
      Action.performProcess (.parseMode s) = Action.fail (.unknownMode s)) ∧
    RefcountMode.unknownMessage s = "Unknown refcount mode: " ++ s ∧
    (∀ c ∈ s.toList, 0x80 ≤ c.toNat ∨ c ≤ ' ' → RefcountMode.parse? s = none) ∧
    (∀ t, Text.LowerCase s.toList t.toList → ∀ m, t ∈ m.names ↔ RefcountMode.parse? s = some m) ∧
    ∀ m, RefcountMode.parse? m.word = some m := by
  have hnamed := @RefcountMode.parse?_iff_eqButCase
  refine ⟨hnamed, hnamed, fun h => ?_, rfl, fun c hc hout => ?_, fun t ht m => ?_, fun m => ?_⟩
  · have hnone : RefcountMode.parse? s = none := by
      refine Option.eq_none_iff_forall_ne_some.2 fun m hm => ?_
      obtain ⟨name, hname, hs⟩ := hnamed.1 hm
      cases m with
      | plain => exact h name (List.mem_append_left _ hname) hs
      | atomic => exact h name (List.mem_append_right _ hname) hs
    refine ⟨hnone, ?_⟩
    rw [Action.performProcess, hnone]
  · refine Option.eq_none_iff_forall_ne_some.2 fun m hm => ?_
    obtain ⟨name, hname, hs⟩ := hnamed.1 hm
    obtain ⟨hblank, hascii⟩ := RefcountMode.printed_of_eqButCase hname hs hc
    exact hout.elim (Nat.not_le.2 hascii) (Nat.not_le.2 hblank)
  · rw [hnamed, RefcountMode.lowerCase_mem_names ht]
  · exact hnamed.2 ⟨m.word, by cases m <;> simp [RefcountMode.names, RefcountMode.word], rfl⟩

/-- Capitals do no harm; a blank does, and so does a dotted capital I, which has an `i` in lower
case. -/
theorem modes_named_capitals :
    RefcountMode.parse? "Single-Threaded" = some .plain ∧
    RefcountMode.parse? "arc " = none ∧ RefcountMode.parse? "pla\u0130n" = none ∧
    Action.performProcess (.parseMode "quantum") = Action.fail (.unknownMode "quantum") := by
  obtain ⟨hplain, -⟩ := modes_named "Single-Threaded"
  obtain ⟨-, -, -, -, hblank, -⟩ := modes_named "arc "
  obtain ⟨-, -, -, -, hout, -⟩ := modes_named "pla\u0130n"
  obtain ⟨-, -, hunknown, -⟩ := modes_named "quantum"
  refine ⟨hplain.2 ⟨"single-threaded", by simp, by decide⟩, hblank ' ' (by simp) (by decide),
    hout '\u0130' (by simp) (by decide), (hunknown ?_).2⟩
  decide

end ClaimCells
