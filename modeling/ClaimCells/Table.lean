/-!
# Tables

A table maps keys to values. It is a list of pairs in which no key occurs twice; `get?` reads a
key, `insert` sets it, `erase` forgets it. The laws `get?_insert` and `get?_erase` say what each
operation does to the view `get?`, and `sum_insert`, `sum_erase_of_get?` what it does to a total
taken over all values.
-/

namespace ClaimCells

/-- No key occurs twice where there is none. -/
theorem Table.distinct_nil (κ α : Type) : (([] : List (κ × α)).map Prod.fst).Nodup :=
  .nil

/-- A finite map, newest key first. -/
structure Table (κ α : Type) where
  entries : List (κ × α) := []
  distinct : (entries.map Prod.fst).Nodup := by exact Table.distinct_nil _ _

namespace Table

variable {κ α : Type} [DecidableEq κ]

instance : Inhabited (Table κ α) := ⟨{}⟩

/-- The table without keys. -/
def empty : Table κ α := {}

/-- The value of a key. -/
def get? (t : Table κ α) (k : κ) : Option α :=
  t.entries.lookup k

/-- Whether a key has a value. -/
def contains (t : Table κ α) (k : κ) : Bool :=
  (t.get? k).isSome

/-- The table without the key. -/
def erase (t : Table κ α) (k : κ) : Table κ α where
  entries := t.entries.filter (·.1 ≠ k)
  distinct := t.distinct.sublist (List.filter_sublist.map Prod.fst)

/-- The table in which the key has this value. -/
def insert (t : Table κ α) (k : κ) (v : α) : Table κ α where
  entries := (k, v) :: (t.erase k).entries
  distinct := by
    rw [List.map_cons, List.nodup_cons]
    refine ⟨fun h => ?_, (t.erase k).distinct⟩
    obtain ⟨p, hp, rfl⟩ := List.mem_map.1 h
    simpa using (List.mem_filter.1 hp).2

/-- Changes the value of a key; without one nothing happens. -/
def modify (t : Table κ α) (k : κ) (f : α → α) : Table κ α where
  entries := t.entries.map fun p => (p.1, if p.1 = k then f p.2 else p.2)
  distinct := by
    rw [List.map_map]
    exact t.distinct

def keys (t : Table κ α) : List κ :=
  t.entries.map Prod.fst

def values (t : Table κ α) : List α :=
  t.entries.map Prod.snd

/-- How many keys have a value. -/
def size (t : Table κ α) : Nat :=
  t.entries.length

/-- The sum of a weight over pairs. -/
def weigh (weight : κ → α → Nat) : List (κ × α) → Nat
  | [] => 0
  | (k, v) :: l => weight k v + weigh weight l

/-- The sum of a weight over all entries. -/
def sum (t : Table κ α) (weight : κ → α → Nat) : Nat :=
  weigh weight t.entries

/-- The table with the given pairs, of which a later one wins. -/
def ofList (pairs : List (κ × α)) : Table κ α :=
  pairs.foldl (fun t p => t.insert p.1 p.2) empty

/-! ## Reading -/

@[simp] theorem get?_empty (k : κ) : (empty : Table κ α).get? k = none := rfl

theorem lookup_filter_ne {k k' : κ} (h : k' ≠ k) (l : List (κ × α)) :
    (l.filter (·.1 ≠ k)).lookup k' = l.lookup k' := by
  induction l with
  | nil => rfl
  | cons p l ih =>
    obtain ⟨a, v⟩ := p
    by_cases ha : a = k
    · subst ha
      have hb : (k' == a) = false := by simpa using h
      simp only [ne_eq, not_true_eq_false, decide_false, Bool.false_eq_true, not_false_eq_true,
        List.filter_cons_of_neg, List.lookup_cons, hb]
      exact ih
    · simp only [ne_eq, ha, not_false_eq_true, decide_true, List.filter_cons_of_pos]
      simp only [List.lookup_cons, ih]

theorem lookup_filter_self (k : κ) (l : List (κ × α)) :
    (l.filter (·.1 ≠ k)).lookup k = none := by
  rw [List.lookup_eq_none_iff]
  intro p hp
  have := (List.mem_filter.1 hp).2
  simp only [ne_eq, decide_not, Bool.not_eq_eq_eq_not, Bool.not_true,
    decide_eq_false_iff_not] at this
  simpa using fun h => this h.symm

theorem get?_erase (t : Table κ α) (k k' : κ) :
    (t.erase k).get? k' = if k' = k then none else t.get? k' := by
  split
  · subst k'; exact lookup_filter_self k t.entries
  · next h => exact lookup_filter_ne h t.entries

theorem get?_insert (t : Table κ α) (k k' : κ) (v : α) :
    (t.insert k v).get? k' = if k' = k then some v else t.get? k' := by
  unfold insert get?
  by_cases h : k' = k
  · subst h; simp
  · have hb : (k' == k) = false := by simpa using h
    simp only [List.lookup_cons, hb, h, if_false]
    exact lookup_filter_ne h t.entries

@[simp] theorem get?_erase_self (t : Table κ α) (k : κ) : (t.erase k).get? k = none := by
  simp [get?_erase]

@[simp] theorem get?_insert_self (t : Table κ α) (k : κ) (v : α) :
    (t.insert k v).get? k = some v := by
  simp [get?_insert]

theorem get?_erase_ne (t : Table κ α) {k k' : κ} (h : k' ≠ k) :
    (t.erase k).get? k' = t.get? k' := by
  simp [get?_erase, h]

theorem get?_insert_ne (t : Table κ α) {k k' : κ} (v : α) (h : k' ≠ k) :
    (t.insert k v).get? k' = t.get? k' := by
  simp [get?_insert, h]

theorem get?_modify (t : Table κ α) (k k' : κ) (f : α → α) :
    (t.modify k f).get? k' = if k' = k then (t.get? k).map f else t.get? k' := by
  unfold modify get?
  dsimp only
  generalize t.entries = l
  induction l with
  | nil => split <;> rfl
  | cons p l ih =>
    obtain ⟨a, v⟩ := p
    simp only [List.map_cons, List.lookup_cons]
    by_cases ha : k' = a
    · subst ha
      by_cases hk : k' = k
      · subst hk; simp
      · simp [hk]
    · have hb : (k' == a) = false := by simpa using ha
      rw [hb]
      dsimp only
      rw [ih]
      by_cases hk : k' = k
      · subst hk; rw [hb]
      · rw [if_neg hk, if_neg hk]

@[simp] theorem get?_modify_self (t : Table κ α) (k : κ) (f : α → α) :
    (t.modify k f).get? k = (t.get? k).map f := by
  simp [get?_modify]

theorem get?_modify_ne (t : Table κ α) {k k' : κ} (f : α → α) (h : k' ≠ k) :
    (t.modify k f).get? k' = t.get? k' := by
  simp [get?_modify, h]

theorem mem_entries_iff (t : Table κ α) (k : κ) (v : α) :
    (k, v) ∈ t.entries ↔ t.get? k = some v := by
  have hd := t.distinct
  unfold get?
  generalize t.entries = l at hd
  induction l with
  | nil => simp
  | cons p l ih =>
    obtain ⟨a, w⟩ := p
    rw [List.map_cons, List.nodup_cons] at hd
    by_cases ha : k = a
    · subst ha
      have hk : ∀ u, (k, u) ∉ l := fun u h => hd.1 (List.mem_map.2 ⟨_, h, rfl⟩)
      simp [hk, eq_comm]
    · have hb : (k == a) = false := by simpa using ha
      simp [List.lookup_cons, hb, ha, ih hd.2]

theorem mem_values_iff (t : Table κ α) (v : α) : v ∈ t.values ↔ ∃ k, t.get? k = some v := by
  simp only [values, List.mem_map, Prod.exists, exists_eq_right, mem_entries_iff]

/-! ## Changing one value -/

omit [DecidableEq κ] in
theorem ext {t t' : Table κ α} (h : t.entries = t'.entries) : t = t' := by
  cases t
  cases t'
  cases h
  rfl

theorem modify_modify (t : Table κ α) (k : κ) (f g : α → α) :
    (t.modify k f).modify k g = t.modify k fun v => g (f v) := by
  refine ext ?_
  show (t.entries.map _).map _ = t.entries.map _
  rw [List.map_map]
  refine List.map_congr_left fun p _ => ?_
  by_cases h : p.1 = k <;> simp [h]

theorem modify_id (t : Table κ α) (k : κ) : t.modify k id = t := by
  refine ext ?_
  show t.entries.map _ = t.entries
  simp

theorem modify_absent {t : Table κ α} {k : κ} (h : t.get? k = none) (f : α → α) :
    t.modify k f = t := by
  refine ext ((List.map_congr_left fun p hp => ?_).trans (List.map_id _))
  have hne : p.1 ≠ k := fun hk => by
    have hp' := (t.mem_entries_iff p.1 p.2).1 hp
    rw [hk, h] at hp'
    cases hp'
  simp [hne]

theorem modify_comm (t : Table κ α) {k k' : κ} (h : k ≠ k') (f g : α → α) :
    (t.modify k f).modify k' g = (t.modify k' g).modify k f := by
  refine ext ?_
  show (t.entries.map _).map _ = (t.entries.map _).map _
  rw [List.map_map, List.map_map]
  refine List.map_congr_left fun p _ => ?_
  by_cases hk : p.1 = k
  · have hk' : p.1 ≠ k' := fun hk' => h (hk.symm.trans hk')
    simp [hk, h]
  · by_cases hk' : p.1 = k' <;> simp [hk, hk', Ne.symm h]

theorem modify_erase (t : Table κ α) (k k' : κ) (f : α → α) :
    (t.modify k f).erase k' = (t.erase k').modify k f := by
  refine ext ?_
  show (t.entries.map _).filter _ = (t.entries.filter _).map _
  rw [List.filter_map]
  rfl

theorem modify_insert (t : Table κ α) {k k' : κ} (h : k' ≠ k) (f : α → α) (v : α) :
    (t.modify k f).insert k' v = (t.insert k' v).modify k f := by
  refine ext ?_
  show (k', v) :: ((t.modify k f).erase k').entries =
    (k', if k' = k then f v else v) :: ((t.erase k').modify k f).entries
  rw [modify_erase, if_neg h]

theorem modify_congr {t : Table κ α} {k : κ} {v : α} (h : t.get? k = some v) {f g : α → α}
    (hfg : f v = g v) : t.modify k f = t.modify k g := by
  refine ext (List.map_congr_left fun p hp => ?_)
  by_cases hk : p.1 = k
  · have hv : p.2 = v := by
      have := (t.mem_entries_iff p.1 p.2).1 hp
      rw [hk, h] at this
      cases this
      rfl
    simp [hk, hv, hfg]
  · simp [hk]

/-! ## Totals -/

theorem weigh_filter_ne (w : κ → α → Nat) (k : κ) (l : List (κ × α))
    (hl : (l.map Prod.fst).Nodup) :
    weigh w l = weigh w (l.filter (·.1 ≠ k)) + ((l.lookup k).map (w k)).getD 0 := by
  induction l with
  | nil => rfl
  | cons p l ih =>
    obtain ⟨a, v⟩ := p
    rw [List.map_cons, List.nodup_cons] at hl
    have hw : weigh w ((a, v) :: l) = w a v + weigh w l := rfl
    rw [hw]
    by_cases ha : a = k
    · subst ha
      have hnone : l.lookup a = none := by
        rw [List.lookup_eq_none_iff]
        intro q hq
        have : a ≠ q.1 := fun h => hl.1 (by rw [h]; exact List.mem_map.2 ⟨q, hq, rfl⟩)
        simpa using this
      have hself : (l.filter (·.1 ≠ a)) = l := by
        rw [List.filter_eq_self]
        intro q hq
        have : q.1 ≠ a := fun h => hl.1 (by rw [← h]; exact List.mem_map.2 ⟨q, hq, rfl⟩)
        simpa using this
      rw [List.filter_cons_of_neg (by simp), hself, List.lookup_cons_self, Option.map_some,
        Option.getD_some, Nat.add_comm]
    · have hb : (k == a) = false := by simpa using fun h => ha (Eq.symm h)
      have hf : weigh w (((a, v) :: l).filter (·.1 ≠ k))
          = w a v + weigh w (l.filter (·.1 ≠ k)) := by
        rw [List.filter_cons_of_pos (by simpa using ha)]
        rfl
      rw [hf, ih hl.2]
      simp only [List.lookup_cons, hb]
      omega

theorem sum_eq_sum_erase (t : Table κ α) (k : κ) (w : κ → α → Nat) :
    t.sum w = (t.erase k).sum w + ((t.get? k).map (w k)).getD 0 :=
  weigh_filter_ne w k t.entries t.distinct

theorem sum_erase_of_get? {t : Table κ α} {k : κ} {v : α} (h : t.get? k = some v)
    (w : κ → α → Nat) : t.sum w = (t.erase k).sum w + w k v := by
  simpa [h] using t.sum_eq_sum_erase k w

theorem sum_insert (t : Table κ α) (k : κ) (v : α) (w : κ → α → Nat) :
    (t.insert k v).sum w = w k v + (t.erase k).sum w :=
  rfl

theorem sum_insert_fresh {t : Table κ α} {k : κ} (h : t.get? k = none) (v : α)
    (w : κ → α → Nat) : (t.insert k v).sum w = w k v + t.sum w := by
  rw [sum_insert, t.sum_eq_sum_erase k w, h, Option.map_none, Option.getD_none, Nat.add_zero]

theorem sum_erase_modify (t : Table κ α) (k : κ) (f : α → α) (w : κ → α → Nat) :
    ((t.modify k f).erase k).sum w = (t.erase k).sum w := by
  unfold modify erase sum
  dsimp only
  congr 1
  generalize t.entries = l
  induction l with
  | nil => rfl
  | cons p l ih =>
    obtain ⟨a, v⟩ := p
    by_cases ha : a = k
    · simpa [ha] using ih
    · simpa [ha] using ih

theorem sum_modify (t : Table κ α) (k : κ) (f : α → α) (w : κ → α → Nat)
    (h : ∀ v, t.get? k = some v → w k (f v) = w k v) : (t.modify k f).sum w = t.sum w := by
  rw [(t.modify k f).sum_eq_sum_erase k, t.sum_eq_sum_erase k, sum_erase_modify, get?_modify_self]
  cases hv : t.get? k with
  | some v => rw [Option.map_some, Option.map_some, Option.map_some, Option.getD_some, h v hv,
      Option.getD_some]
  | none => rfl

theorem sum_modify_of_get? {t : Table κ α} {k : κ} {v : α} (h : t.get? k = some v) (f : α → α)
    (w : κ → α → Nat) : (t.modify k f).sum w + w k v = t.sum w + w k (f v) := by
  have h1 := (t.modify k f).sum_eq_sum_erase k w
  rw [get?_modify_self, h, sum_erase_modify] at h1
  rw [h1, sum_erase_of_get? h w]
  exact Nat.add_right_comm _ _ _

theorem le_sum {t : Table κ α} {k : κ} {v : α} (h : t.get? k = some v) (w : κ → α → Nat) :
    w k v ≤ t.sum w := by
  rw [sum_erase_of_get? h]
  exact Nat.le_add_left _ _

omit [DecidableEq κ] in
theorem exists_of_weigh_pos {l : List (κ × α)} {w : κ → α → Nat} (h : 0 < weigh w l) :
    ∃ p ∈ l, 0 < w p.1 p.2 := by
  induction l with
  | nil => exact nomatch h
  | cons p l ih =>
    change 0 < w p.1 p.2 + weigh w l at h
    by_cases hp : 0 < w p.1 p.2
    · exact ⟨p, List.mem_cons_self, hp⟩
    · obtain ⟨q, hq, hw⟩ := ih (by omega)
      exact ⟨q, List.mem_cons_of_mem _ hq, hw⟩

/-- A total that is not zero has a value that counts. -/
theorem exists_of_sum_pos {t : Table κ α} {w : κ → α → Nat} (h : 0 < t.sum w) :
    ∃ k v, t.get? k = some v ∧ 0 < w k v := by
  obtain ⟨⟨k, v⟩, hp, hw⟩ := exists_of_weigh_pos h
  exact ⟨k, v, (t.mem_entries_iff k v).1 hp, hw⟩

omit [DecidableEq κ] in
@[simp] theorem sum_empty (w : κ → α → Nat) : (empty : Table κ α).sum w = 0 := rfl

end Table

end ClaimCells
