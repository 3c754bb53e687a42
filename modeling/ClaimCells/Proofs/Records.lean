import ClaimCells.Proofs.Decoding

/-!
# Members of records

What is read of an object depends on a few of its members: those at the keys that are fields.

**Paths.** What a document has for a field is found by keys, one for each object on the way to it.
`Json.values` has every value at a path, in order; where each key occurs at most once there is at
most one.

**Parts.** A part of a record (`Record.Part`) is what one field stores and no other field touches.
So it can be followed alone through the members of an object, past those for other fields and those
for none.

Main results: `Record.members_succeeds`, `Part.read`, `Part.accepted`.
-/

namespace ClaimCells

namespace Json

/-! ## Paths -/

/-- The values of the members with the key, in order. -/
def under (key : String) : Json → List Json
  | .object ms => (ms.filter (·.1 = key)).map Prod.snd
  | _ => []

/-- The values of a document at a path of keys, in order. -/
def values (doc : Json) : List String → List Json
  | [] => [doc]
  | key :: path => (doc.under key).flatMap (values · path)

variable {k key : String} {v : Json} {ms ms' : List (String × Json)}

@[simp] theorem under_nil : (object []).under key = [] := rfl

theorem under_cons : (object ((k, v) :: ms)).under key =
    if k = key then v :: (object ms).under key else (object ms).under key := by
  by_cases h : k = key <;> simp [under, h]

theorem under_append : (object (ms ++ ms')).under key =
    (object ms).under key ++ (object ms').under key := by
  simp [under]

/-- Only an object has anything under a key. -/
theorem object_of_mem_under {doc : Json} (h : v ∈ doc.under key) : ∃ ms, doc = .object ms := by
  cases doc with
  | object ms => exact ⟨ms, rfl⟩
  | null | bool b | number n | text t | array vs => cases h

theorem eq_singleton_of_mem {l : List Json} (hone : l.length ≤ 1) (hv : v ∈ l) : l = [v] := by
  obtain ⟨w, rfl⟩ := List.length_eq_one_iff.1 (hone.antisymm (List.length_pos_of_mem hv))
  rw [List.mem_singleton.1 hv]

theorem eq_of_perm {l l' : List Json} (hone : l.length ≤ 1) (h : l.Perm l') : l' = l := by
  obtain hnone | hone := Nat.le_one_iff_eq_zero_or_eq_one.1 hone
  · obtain rfl := List.eq_nil_of_length_eq_zero hnone
    exact h.nil_eq.symm
  · obtain ⟨v, rfl⟩ := List.length_eq_one_iff.1 hone
    exact h.symm.eq_singleton

theorem values_key (doc : Json) (key : String) : doc.values [key] = doc.under key := by
  simp [values]

theorem values_pair (doc : Json) (key key' : String) :
    doc.values [key, key'] = (doc.under key).flatMap (·.under key') := by
  simp [values]

theorem values_pair_of_none {doc : Json} (h : doc.under key = []) (key' : String) :
    doc.values [key, key'] = [] := by
  rw [values_pair, h, List.flatMap_nil]

theorem values_pair_of_one {doc : Json} (h : doc.under key = [v]) (key' : String) :
    doc.values [key, key'] = v.under key' := by
  rw [values_pair, h, List.flatMap_cons, List.flatMap_nil, List.append_nil]

/-! ## Members -/

namespace Decoder

namespace Field

variable {α β ρ : Type} {d : Decoder β} {store : β → ρ → ρ}

@[simp] theorem stored_name : (stored key d store).name = key := rfl

/-- The value can be read for the field. -/
def Accepts (f : Field ρ) (v : Json) : Prop :=
  ∃ set, f.update.ofValue v = .ok set

theorem accepts_stored : (stored key d store).Accepts v ↔ ∃ b, d.ofValue v = .ok b := by
  constructor
  · rintro ⟨set, hset⟩
    obtain ⟨b, hb, -⟩ := ok_of_map hset
    exact ⟨b, hb⟩
  · rintro ⟨b, hb⟩
    refine ⟨store b, ?_⟩
    show (d.ofValue v).map store = _
    rw [hb]
    rfl

/-- Storing the field leaves the part of the record alone. -/
def Keeps (f : Field ρ) (get : ρ → α) : Prop :=
  ∀ v set, f.update.ofValue v = .ok set → ∀ c, get (set c) = get c

theorem keeps_stored {get : ρ → α} (h : ∀ b c, get (store b c) = get c) :
    (stored key d store).Keeps get := by
  intro v set hset c
  obtain ⟨b, -, rfl⟩ := ok_of_map hset
  exact h b c

end Field

namespace Record

variable {α ρ : Type} {r : Record ρ} {seen : List String} {value c : ρ} {f : Field ρ}

theorem mem_fields (h : r.field? key = some f) : f ∈ r.fields ∧ f.name = key :=
  ⟨List.mem_of_find?_eq_some h, by simpa using List.find?_some h⟩

/-- A record is read if it may leave out fields, has no field twice, and each field that it has can
be read. -/
theorem members_succeeds (hr : r.strict = false)
    (h : ∀ f ∈ r.fields, ((object ms).under f.name).length ≤ 1 ∧
      (f.name ∈ seen → (object ms).under f.name = []) ∧
      ∀ v ∈ (object ms).under f.name, f.Accepts v) :
    ∃ c, r.members ms seen value = .ok c := by
  -- The second condition carries the induction: of a key that was seen no member is left.
  induction ms generalizing seen value with
  | nil => exact ⟨value, by simp [members, complete, missing, hr]⟩
  | cons m ms ih =>
    obtain ⟨key, v⟩ := m
    cases hf : r.field? key with
    | none =>
      simp only [members, hf]
      refine ih fun f hmem => ?_
      have hne : key ≠ f.name := by
        rintro rfl
        exact absurd hf (by simpa [field?] using ⟨f, hmem, rfl⟩)
      simpa only [under_cons, if_neg hne] using h f hmem
    | some f =>
      obtain ⟨hmem, rfl⟩ := mem_fields hf
      obtain ⟨hone, hseen, hok⟩ := h f hmem
      rw [under_cons, if_pos rfl] at hone hseen hok
      have hnew : seen.contains f.name = false := by
        rw [Bool.eq_false_iff]
        intro hmem
        cases hseen (List.contains_iff_mem.1 hmem)
      obtain ⟨set, hset⟩ := hok v List.mem_cons_self
      simp only [members, hf, hnew, hset, Bool.false_eq_true, if_false]
      refine ih fun f' hmem' => ?_
      by_cases hkey : f.name = f'.name
      · have hrest : (object ms).under f'.name = [] := by simpa [hkey] using hone
        simp [hrest]
      · obtain ⟨hone', hseen', hok'⟩ := h f' hmem'
        rw [under_cons, if_neg hkey] at hone' hseen' hok'
        refine ⟨hone', fun hmem => hseen' ?_, hok'⟩
        exact (List.mem_cons.1 hmem).resolve_left (Ne.symm hkey)

/-- The first member is for no field and skipped, or for one that is new and can be read. -/
theorem members_cases (h : r.members ((k, v) :: ms) seen value = .ok c) :
    (r.field? k = none ∧ r.members ms seen value = .ok c) ∨
      ∃ f set, r.field? k = some f ∧ k ∉ seen ∧ f.update.ofValue v = .ok set ∧
        r.members ms (k :: seen) (set value) = .ok c := by
  rw [members] at h
  split at h
  · next hk => exact .inl ⟨hk, h⟩
  · next f hk =>
    split at h
    · cases h
    · next hnew =>
      split at h
      · cases h
      · next set hset =>
        exact .inr ⟨f, set, hk, fun hmem => hnew (List.contains_iff_mem.2 hmem), hset, h⟩

theorem ne_of_field? (hk : r.field? k = none) (hf : r.field? key = some f) : k ≠ key := by
  rintro rfl
  rw [hf] at hk
  cases hk

/-- Nothing is read if some field cannot be. -/
theorem members_accepted (h : r.members ms seen value = .ok c) (hf : r.field? key = some f)
    (hv : v ∈ (object ms).under key) : f.Accepts v := by
  induction ms generalizing seen value with
  | nil => cases hv
  | cons m ms ih =>
    obtain ⟨k, w⟩ := m
    rw [under_cons] at hv
    obtain ⟨hk, h⟩ | ⟨g, set, hk, -, hset, h⟩ := members_cases h
    · rw [if_neg (ne_of_field? hk hf)] at hv
      exact ih h hv
    · split at hv
      · next heq =>
        subst heq
        obtain rfl : g = f := Option.some.inj (hk.symm.trans hf)
        obtain rfl | hv := List.mem_cons.1 hv
        · exact ⟨set, hset⟩
        · exact ih h hv
      · exact ih h hv

/-- A part of a record that one field sets to what it reads, and no other field touches. -/
structure Part (r : Record ρ) (key : String) (d : Decoder α) (get : ρ → α) : Prop where
  field : ∃ store : α → ρ → ρ, r.field? key = some (.stored key d store) ∧
    ∀ a c, get (store a c) = a
  apart : ∀ f ∈ r.fields, f.name ≠ key → f.Keeps get

/-- A part of a record that was read is what it was, or what the only member for it says. -/
theorem Part.read {d : Decoder α} {get : ρ → α} (hp : r.Part key d get)
    (h : r.members ms seen value = .ok c) :
    (object ms).under key = [] ∧ get c = get value ∨
      key ∉ seen ∧ ∃ v, (object ms).under key = [v] ∧ d.ofValue v = .ok (get c) := by
  obtain ⟨store, hfield, hget⟩ := hp.field
  induction ms generalizing seen value with
  | nil =>
    rw [members, complete] at h
    split at h
    · cases h
    · cases h
      exact .inl ⟨rfl, rfl⟩
  | cons m ms ih =>
    obtain ⟨k, v⟩ := m
    rw [under_cons]
    obtain ⟨hk, h⟩ | ⟨f, set, hk, hnew, hset, h⟩ := members_cases h
    · rw [if_neg (ne_of_field? hk hfield)]
      exact ih h
    · by_cases hkey : k = key
      · -- The key is seen from here on, so there is no second member for the part.
        subst hkey
        obtain rfl := Option.some.inj (hk.symm.trans hfield)
        obtain ⟨a, ha, rfl⟩ := ok_of_map hset
        rw [if_pos rfl]
        obtain ⟨hrest, hc⟩ | ⟨hout, -⟩ := ih h
        · exact .inr ⟨hnew, v, by rw [hrest], by rw [hc, hget, ha]⟩
        · exact absurd List.mem_cons_self hout
      · rw [if_neg hkey]
        obtain ⟨hrest, hc⟩ | ⟨hout, hv⟩ := ih h
        · obtain ⟨hmem, hname⟩ := mem_fields hk
          have hkeeps := hp.apart f hmem (hname ▸ hkey)
          exact .inl ⟨hrest, hc.trans (hkeeps v set hset value)⟩
        · exact .inr ⟨fun hmem => hout (.tail _ hmem), hv⟩

/-- Where every member for a part can be read, the part is what the first one says. -/
theorem Part.read_head {d : Decoder α} {get : ρ → α} (hp : r.Part key d get) {reading : Json → α}
    (hreading : ∀ v ∈ (object ms).under key, d.ofValue v = .ok (reading v))
    (h : r.members ms seen value = .ok c) :
    get c = (((object ms).under key).head?.map reading).getD (get value) := by
  obtain ⟨hnone, hget⟩ | ⟨-, v, hv, hget⟩ := hp.read h
  · rw [hnone, hget]
    rfl
  · rw [hreading v (by rw [hv]; exact List.mem_singleton_self v)] at hget
    rw [hv]
    exact (Except.ok.inj hget).symm

/-- Where a record is read, so is every member for a part of it. -/
theorem Part.accepted {d : Decoder α} {get : ρ → α} (hp : r.Part key d get) {doc v : Json}
    (h : r.ofValue doc = .ok c) (hv : v ∈ doc.under key) : ∃ a, d.ofValue v = .ok a := by
  obtain ⟨ms, rfl⟩ := object_of_mem_under hv
  obtain ⟨store, hfield, -⟩ := hp.field
  exact Field.accepts_stored.1 (members_accepted h hfield hv)

/-- Only objects and arrays are records. -/
theorem ofValue_shape {v : Json} (h : r.ofValue v = .ok c) :
    (∃ ms, v = .object ms) ∨ ∃ vs, v = .array vs := by
  cases v with
  | object ms => exact .inl ⟨ms, rfl⟩
  | array vs => exact .inr ⟨vs, rfl⟩
  | null | bool b | number n | text t => cases h

end Record

end Decoder

end Json

end ClaimCells
