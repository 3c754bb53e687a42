import ClaimCells.Proofs.Lifetimes
import ClaimCells.Proofs.Conservation

/-!
# The balance of the profiler

Whatever happens to a cell is counted by the move that does it, so that the counters agree with the
cells that there are after every move: from a fresh profiler on, the claims that cells of a kind
took over, less those that they gave up or handed on, are the cells of the kind that are bound now,
less those that were bound then.

Main result: `profiler_balance`.
-/

namespace ClaimCells

variable {s s' s₀ : State} {l l' : List Cell} {ds : List Deed} {k : CellKind} {e : ClaimEvent}
  {p p' p'' : Profiler} {R R' : List (CellKind × ClaimEvent)} {v : Slot} {id : SlotId}

/-! ## Totals -/

theorem Table.sum_eq {κ α : Type} (t : Table κ α) (w : κ → α → Nat) :
    t.sum w = ((t.entries.map fun p => (p.1, w p.1 p.2)).map Prod.snd).sum := by
  unfold Table.sum
  generalize t.entries = L
  induction L with
  | nil => rfl
  | cons p L ih =>
    rw [List.map_cons, List.map_cons, List.sum_cons, ← ih]
    rfl

/-- A total depends on nothing but what each key has in it. -/
theorem Table.sum_congr {κ α β : Type} [DecidableEq κ] {t : Table κ α} {t' : Table κ β}
    {w : κ → α → Nat} {w' : κ → β → Nat}
    (h : ∀ k, (t.get? k).map (w k) = (t'.get? k).map (w' k)) : t.sum w = t'.sum w' := by
  have hnodup : ∀ {γ : Type} (t : Table κ γ) (w : κ → γ → Nat),
      (t.entries.map fun p => (p.1, w p.1 p.2)).Nodup := fun t w => by
    refine List.Nodup.of_map Prod.fst ?_
    rw [List.map_map]
    exact t.distinct
  have hmem : ∀ {γ : Type} (t : Table κ γ) (w : κ → γ → Nat) (k : κ) (n : Nat),
      (k, n) ∈ (t.entries.map fun p => (p.1, w p.1 p.2)) ↔ (t.get? k).map (w k) = some n :=
    fun t w k n => by
      rw [Option.map_eq_some_iff, List.mem_map]
      constructor
      · rintro ⟨⟨k', x⟩, hx, he⟩
        cases he
        exact ⟨x, (t.mem_entries_iff _ _).1 hx, rfl⟩
      · rintro ⟨x, hx, rfl⟩
        exact ⟨(k, x), (t.mem_entries_iff k x).2 hx, rfl⟩
  have hperm := (List.perm_ext_iff_of_nodup (hnodup t w) (hnodup t' w')).2 fun p => by
    rw [← Prod.mk.eta (p := p), hmem, hmem, h]
  rw [t.sum_eq, t'.sum_eq]
  exact (hperm.map Prod.snd).sum_eq

/-! ## Counting events -/

namespace Profiler

/-- How often an event was counted. -/
def counter (p : Profiler) (k : CellKind) (e : ClaimEvent) : Nat :=
  ((p.kindStats k).count e).toNat

/-- Of two profilers the second has counted these events more, if the first counts at all. -/
def Counts (p : Profiler) (R : List (CellKind × ClaimEvent)) (p' : Profiler) : Prop :=
  p.enabled = true → p'.enabled = true ∧ ∀ k e, p'.counter k e = p.counter k e + R.count (k, e)

theorem Counts.refl (p : Profiler) : p.Counts [] p :=
  fun h => ⟨h, fun _ _ => rfl⟩

theorem Counts.trans (h : p.Counts R p') (h' : p'.Counts R' p'') : p.Counts (R ++ R') p'' := by
  intro hp
  obtain ⟨hp', hc⟩ := h hp
  obtain ⟨hp'', hc'⟩ := h' hp'
  refine ⟨hp'', fun k e => ?_⟩
  rw [hc', hc, List.count_append, Nat.add_assoc]

theorem checkedAdd_some {a b c : UInt64} :
    checkedAdd a b = some c ↔ a.toNat + b.toNat < UInt64.size ∧ c.toNat = a.toNat + b.toNat := by
  unfold checkedAdd
  by_cases h : a.toNat + b.toNat < UInt64.size
  · have hsum : (a + b).toNat = a.toNat + b.toNat := by
      rw [UInt64.toNat_add, Nat.mod_eq_of_lt h]
    rw [if_pos h, Option.some.injEq]
    refine ⟨fun hc => ⟨h, hc ▸ hsum⟩, fun hc => UInt64.toNat_inj.1 (hsum.trans hc.2.symm)⟩
  · rw [if_neg h]
    exact ⟨nofun, fun hc => absurd hc.1 h⟩

theorem record_counts (h : p.record k e = some p') : p.Counts [(k, e)] p' := by
  intro hp
  rw [record, if_pos hp] at h
  obtain ⟨st, hst, rfl⟩ := Option.map_eq_some_iff.1 h
  obtain ⟨n, hn, rfl⟩ := Option.map_eq_some_iff.1 hst
  obtain ⟨-, hn⟩ := checkedAdd_some.1 hn
  refine ⟨hp, fun k' e' => ?_⟩
  rw [List.count_singleton, counter, counter, kindStats, Table.get?_insert]
  by_cases hk : k' = k
  · subst hk
    rw [if_pos rfl, Option.getD_some]
    by_cases he : e' = e
    · subst he
      rw [KindStats.count_setCount, hn, if_pos (by simp)]
      rfl
    · rw [KindStats.count_setCount_ne _ _ he, if_neg (by simp [Ne.symm he])]
      rfl
  · rw [if_neg hk, if_neg (by simp [Ne.symm hk])]
    rfl

/-- An event cannot be counted just when its counter has no room. -/
theorem record_none_iff :
    p.record k e = none ↔ p.enabled = true ∧ UInt64.size ≤ p.counter k e + 1 := by
  rw [record]
  split
  · next hp =>
    simp only [hp, true_and, Option.map_eq_none_iff, KindStats.record, checkedAdd,
      ite_eq_right_iff, reduceCtorEq, imp_false, not_lt]
    exact Iff.rfl
  · next hp => simp [hp]

theorem Full.mono (h : p.Full) (hc : p.Counts R p') : p'.Full := by
  obtain ⟨k, e, h⟩ := h
  obtain ⟨hp, hfull⟩ := record_none_iff.1 h
  obtain ⟨hp', hn⟩ := hc hp
  exact ⟨k, e, record_none_iff.2 ⟨hp', by rw [hn]; omega⟩⟩

theorem recordMade_counts {bound : Bool} (h : p.recordMade k bound = some p') :
    p.Counts ((k, .constructed) :: if bound then [(k, .bound)] else []) p' := by
  obtain ⟨p₁, h₁, h₂⟩ := Option.bind_eq_some_iff.1 h
  cases bound with
  | true => exact (record_counts h₁).trans (record_counts h₂)
  | false =>
    cases h₂
    exact record_counts h₁

theorem recordBound_counts {rebound : Bool} (h : p.recordBound k rebound = some p') :
    p.Counts ((k, .bound) :: if rebound then [(k, .released)] else []) p' := by
  obtain ⟨p₁, h₁, h₂⟩ := Option.bind_eq_some_iff.1 h
  cases rebound with
  | true => exact (record_counts h₁).trans (record_counts h₂)
  | false =>
    cases h₂
    exact record_counts h₁

end Profiler

/-! ## Counting cells -/

/-- A bound slot of the kind counts once. -/
def Slot.bindings (k : CellKind) (v : Slot) : Nat :=
  if v.kind = k ∧ v.value.isSome then 1 else 0

theorem Slot.bindings_none (h : v.value = none) : v.bindings k = 0 := by
  rw [Slot.bindings, h]
  exact if_neg fun hc => nomatch hc.2

/-- How many cells of a kind are bound, a shared one counted once. -/
def State.boundCells (s : State) (k : CellKind) : Nat :=
  s.slots.sum fun _ v => v.bindings k

/-- How many shared cells there are. -/
def State.sharedCells (s : State) : Nat :=
  s.sharing.sum fun _ _ => 1

/-- Whether the deed made a cell of the kind. -/
def Deed.makes (k : CellKind) : Deed → Bool
  | .made _ v => v.kind = k
  | _ => false

/-- How many cells of a kind were made, as the journal tells. -/
def Journal.made (j : Journal) (k : CellKind) : Nat :=
  j.deeds.countP (Deed.makes k)

theorem Journal.made_append (es j : Journal) (k : CellKind) :
    Journal.made (es ++ j) k = es.made k + j.made k := by
  rw [Journal.made, Journal.deeds, List.filterMap_append, List.countP_append]
  rfl

/-! ## The balance -/

/-- The counters tell what became of the cells since an earlier state. -/
structure Balanced (s₀ s : State) : Prop where
  enabled : s.profiler.enabled = true
  bound : ∀ k, s.profiler.counter k .bound + s₀.boundCells k =
    s.profiler.counter k .released + s.profiler.counter k .transferred + s.boundCells k
  constructed : ∀ k, s.profiler.counter k .constructed + s₀.journal.made k = s.journal.made k
  shared : s.profiler.counter .shared .constructed + s₀.sharedCells =
    s.profiler.counter .shared .cellFreed + s.sharedCells
  freed : ∀ k, k ≠ .shared → s.profiler.counter k .cellFreed = 0

/-- What the counted events and the cells must have in common. -/
theorem Balanced.step (h : Balanced s₀ s) (ds : List Deed) (hc : s.profiler.Counts R s'.profiler)
    (hd : s'.journal.deeds = ds.reverse ++ s.journal.deeds)
    (hb : ∀ k, R.count (k, .bound) + s.boundCells k =
      R.count (k, .released) + R.count (k, .transferred) + s'.boundCells k)
    (hm : ∀ k, R.count (k, .constructed) = ds.countP (Deed.makes k))
    (hsh : R.count (.shared, .constructed) + s.sharedCells =
      R.count (.shared, .cellFreed) + s'.sharedCells)
    (hf : ∀ k, k ≠ .shared → R.count (k, .cellFreed) = 0) : Balanced s₀ s' := by
  obtain ⟨hp, hn⟩ := hc h.enabled
  refine ⟨hp, fun k => ?_, fun k => ?_, ?_, fun k hk => ?_⟩
  · have h1 := h.bound k
    have h2 := hb k
    rw [hn, hn, hn]
    omega
  · have h1 := h.constructed k
    have h2 := hm k
    rw [Journal.made, Journal.made] at *
    rw [hn, hd, List.countP_append, List.countP_reverse]
    omega
  · have h1 := h.shared
    rw [hn, hn]
    omega
  · rw [hn, h.freed k hk, hf k hk]

/-- Nothing is counted, and no cell comes or goes or gets another value. -/
theorem Balanced.same (h : Balanced s₀ s) (hp : s'.profiler = s.profiler)
    (hd : s'.journal.deeds = ds.reverse ++ s.journal.deeds)
    (hb : ∀ k, s'.boundCells k = s.boundCells k) (hm : ∀ k, ds.countP (Deed.makes k) = 0)
    (hsh : s'.sharedCells = s.sharedCells) : Balanced s₀ s' :=
  h.step (R := []) ds (hp ▸ .refl _) hd (fun k => by simp [hb]) (fun k => by simp [hm])
    (by simp [hsh]) fun _ _ => rfl

theorem boundCells_congr (h : s'.slots = s.slots) (k : CellKind) :
    s'.boundCells k = s.boundCells k := by
  rw [State.boundCells, h]
  rfl

theorem boundCells_insert (hs : s.slots.get? id = none) (hs' : s'.slots = s.slots.insert id v)
    (k : CellKind) : s'.boundCells k = v.bindings k + s.boundCells k := by
  rw [State.boundCells, hs', Table.sum_insert_fresh hs]
  rfl

theorem boundCells_modify {value : Option ObjectId} (hv : s.slots.get? id = some v)
    (hs' : s'.slots = s.slots.modify id ({ · with value })) (k : CellKind) :
    s'.boundCells k + v.bindings k = s.boundCells k + { v with value }.bindings k := by
  rw [State.boundCells, hs']
  exact Table.sum_modify_of_get? hv ({ · with value }) fun _ v => v.bindings k

theorem boundCells_erase (hv : s.slots.get? id = some v) (hs' : s'.slots = s.slots.erase id)
    (k : CellKind) : s.boundCells k = s'.boundCells k + v.bindings k := by
  rw [State.boundCells, State.boundCells, hs']
  exact Table.sum_erase_of_get? hv _

theorem sharedCells_congr (h : s'.sharing = s.sharing) : s'.sharedCells = s.sharedCells := by
  rw [State.sharedCells, h]
  rfl

theorem sharedCells_modify (f : Sharing → Sharing) (h : s'.sharing = s.sharing.modify id f) :
    s'.sharedCells = s.sharedCells := by
  rw [State.sharedCells, h]
  exact Table.sum_modify _ _ _ _ fun _ _ => rfl

/-- Only a look at a variable is counted. -/
theorem Balanced.looked (h : Balanced s₀ s) (hp : s.profiler.record k .unboundAccess = some p) :
    Balanced s₀ { s with profiler := p } := by
  refine h.step [] (Profiler.record_counts hp) rfl (fun k => ?_) (fun k => ?_) ?_
    fun k _ => ?_
  · have h1 : { s with profiler := p }.boundCells k = s.boundCells k := boundCells_congr rfl k
    simp [h1]
  · simp
  · have h1 : { s with profiler := p }.sharedCells = s.sharedCells := sharedCells_congr rfl
    simp [h1]
  · simp

/-- A slot was made, and put behind a handle if it is of the shared kind. -/
theorem Balanced.made (h : Balanced s₀ s) (hs : Sound l s)
    (hp : s.profiler.recordMade v.kind v.value.isSome = some s'.profiler)
    (hd : s'.journal.deeds = ds.reverse ++ s.journal.deeds)
    (hm : ∀ k, ds.countP (Deed.makes k) = if v.kind = k then 1 else 0)
    (hslots : s'.slots = s.slots.insert s.next v)
    (hsh : s'.sharedCells = s.sharedCells + if v.kind = .shared then 1 else 0) :
    Balanced s₀ s' := by
  refine h.step ds (Profiler.recordMade_counts hp) hd (fun k => ?_) (fun k => ?_) ?_ fun k _ => ?_
  · rw [boundCells_insert hs.fresh hslots, Slot.bindings]
    cases v.value <;> by_cases hk : v.kind = k <;> simp [hk]
  · rw [hm]
    cases v.value <;> simp [List.count_cons]
  · rw [hsh]
    cases v.value <;> simp [List.count_cons] <;> omega
  · cases v.value <;> simp

/-- A slot was bound. -/
theorem Balanced.assigned {o : ObjectId} (h : Balanced s₀ s) (hv : s.slots.get? id = some v)
    (hp : s.profiler.recordBound v.kind v.value.isSome = some s'.profiler)
    (hd : s'.journal.deeds = .set id (some o) :: s.journal.deeds)
    (hslots : s'.slots = s.slots.modify id ({ · with value := some o }))
    (hsh : s'.sharedCells = s.sharedCells) : Balanced s₀ s' := by
  refine h.step [.set id (some o)] (Profiler.recordBound_counts hp) hd (fun k => ?_)
    (fun k => ?_) ?_ fun k _ => ?_
  · have h1 := boundCells_modify hv hslots k
    rw [Slot.bindings, Slot.bindings] at h1
    cases hval : v.value <;> by_cases hk : v.kind = k <;> simp [hval, hk] at h1 ⊢ <;> omega
  · cases v.value <;> simp [Deed.makes]
  · rw [hsh]
    cases v.value <;> simp
  · cases v.value <;> simp

/-- A claim left a slot, or went away with it. -/
theorem Balanced.emptied {d : Deed} {e : ClaimEvent} (h : Balanced s₀ s)
    (he : e = .released ∨ e = .transferred)
    (hp : s.profiler.record v.kind e = some s'.profiler) (hval : v.value.isSome = true)
    (hd : s'.journal.deeds = d :: s.journal.deeds) (hm : ∀ k, d.makes k = false)
    (hb : ∀ k, s.boundCells k = s'.boundCells k + v.bindings k)
    (hsh : s'.sharedCells = s.sharedCells) : Balanced s₀ s' := by
  refine h.step [d] (Profiler.record_counts hp) hd (fun k => ?_) (fun k => ?_) ?_
    fun k _ => ?_
  · have h1 := hb k
    rw [Slot.bindings] at h1
    obtain rfl | rfl := he <;> by_cases hk : v.kind = k <;> simp [hval, hk] at h1 ⊢ <;> omega
  · obtain rfl | rfl := he <;> simp [hm]
  · obtain rfl | rfl := he <;> simp [hsh]
  · obtain rfl | rfl := he <;> simp

/-- The last handle of a shared cell was given up. -/
theorem Balanced.unshared {sh : Sharing} {f : Sharing → Sharing} (h : Balanced s₀ s)
    (hsh : s.sharing.get? id = some sh)
    (hp : s.profiler.record .shared .cellFreed = some s'.profiler)
    (hd : s'.journal.deeds = .dropped id :: s.journal.deeds) (hslots : s'.slots = s.slots)
    (hshare : s'.sharing = (s.sharing.modify id f).erase id) : Balanced s₀ s' := by
  refine h.step [.dropped id] (Profiler.record_counts hp) hd (fun k => ?_) (fun k => ?_) ?_
    fun k hk => ?_
  · simp [boundCells_congr hslots]
  · simp [Deed.makes]
  · have h1 := Table.sum_erase_of_get? hsh fun _ _ => 1
    rw [State.sharedCells, State.sharedCells, hshare, Table.sum_erase_modify, h1]
    simp [Nat.add_comm]
  · simp [Ne.symm hk]

/-- **Every move counts what it does to cells**, as long as there is room in the counters. -/
theorem Move.balanced (m : Move l s ds l' s') (hs : Sound l s) (h : Balanced s₀ s)
    (hfull : ¬ s'.profiler.Full) (ht : ∀ p, s'.journal ≠ .tuned p :: s.journal) :
    Balanced s₀ s' := by
  have hd := m.deeds
  cases m with
  | aside ha =>
    exact h.same ha.profiler hd (boundCells_congr ha.slots) (fun _ => rfl)
      (sharedCells_congr ha.sharing)
  | tuned p => exact absurd rfl (ht p)
  | counted hp he =>
    obtain rfl | hp' := he
    · exact h.looked hp
    · exact absurd hp' hfull
  | @made v p form hv hc hp =>
    refine h.made hs hp hd (fun k => by simp [Deed.makes, List.countP_cons]) rfl ?_
    rw [if_neg hv]
    rfl
  | @madeShared v p hv hc hp =>
    refine h.made hs hp hd (fun k => by simp [Deed.makes, List.countP_cons]) rfl ?_
    rw [if_pos hv, Nat.add_comm]
    exact Table.sum_insert_fresh hs.fresh_sharing _ _
  | bound hv hc hp => exact h.assigned hv hp hd rfl rfl
  | @emptied id v o p r hv ho hp =>
    refine h.emptied (by cases r <;> simp [UnbindReason.event]) hp (by simp [ho]) hd (fun _ => rfl)
      (fun k => ?_) rfl
    have h1 : (s.setValue id none).boundCells k + v.bindings k = _ :=
      boundCells_modify hv rfl k
    rw [Slot.bindings_none (v := { v with value := none }) rfl] at h1
    exact h1.symm
  | ended hl hv ho =>
    refine h.same rfl hd (fun k => ?_) (fun _ => rfl) rfl
    have h1 : s.boundCells k = { s with slots := s.slots.erase _ }.boundCells k + _ :=
      boundCells_erase hv rfl k
    rw [Slot.bindings_none ho] at h1
    exact h1.symm
  | endedBound hl hv ho hp =>
    exact h.emptied (.inl rfl) hp (by simp [ho]) hd (fun _ => rfl) (boundCells_erase hv rfl) rfl
  | freed aloud hl hsh hn hv hp => exact h.unshared hsh hp hd rfl rfl
  | boundFull _ _ hp | emptiedFull _ _ hp | endedFull _ _ _ hp | freedFull _ _ _ _ _ hp =>
    exact absurd hp hfull
  | retained =>
    exact h.same rfl hd (fun _ => rfl) (fun _ => rfl)
      (sharedCells_modify (fun c => { c with handles := c.handles + 1 }) rfl)
  | dropped =>
    exact h.same rfl hd (fun _ => rfl) (fun _ => rfl)
      (sharedCells_modify (fun c => { c with handles := c.handles - 1 }) rfl)
  | locked i f => exact h.same rfl hd (fun _ => rfl) (fun _ => rfl) (sharedCells_modify f rfl)
  | _ => exact h.same rfl hd (fun _ => rfl) (fun _ => rfl) rfl

/-! ## Since the profiler was fresh -/

/-- What was put in place of the counters, newest first. -/
def Journal.tunings (j : Journal) : List Profiler :=
  j.filterMap fun
    | .tuned p => some p
    | _ => none

theorem Journal.tunings_append (es j : Journal) :
    Journal.tunings (es ++ j) = es.tunings ++ j.tunings :=
  List.filterMap_append

theorem tunings_idle {es : Journal} (h : ∀ e ∈ es, e.idle = true) : es.tunings = [] := by
  refine List.filterMap_eq_nil_iff.2 fun e he => ?_
  have h1 := h e he
  cases e <;> first | rfl | exact absurd h1 (by simp [Entry.idle])

/-- Only one move puts counters in place. -/
theorem Move.tunings (m : Move l s ds l' s') :
    s'.journal.tunings = s.journal.tunings ∨ ∃ p, s' = s.tune p := by
  cases m with
  | aside ha =>
    obtain ⟨es, hj, hes⟩ := ha.journal
    rw [hj, Journal.tunings_append, tunings_idle hes]
    exact .inl rfl
  | tuned p => exact .inr ⟨p, rfl⟩
  | dropped aloud | freed aloud | freedFull aloud => cases aloud <;> exact .inl rfl
  | _ => exact .inl rfl

theorem Sound.sharing_one (h : Sound l s) (id : SlotId) :
    (s.sharing.get? id).map (fun _ => 1) = if s.refcount id = 0 then none else some 1 := by
  cases hsh : s.sharing.get? id with
  | none => rw [State.refcount, hsh]; rfl
  | some sh =>
    obtain ⟨-, hpos⟩ := h.refcount_pos hsh
    rw [State.refcount, hsh, Option.elim_some, if_neg (Nat.one_le_iff_ne_zero.1 hpos)]
    rfl

/-- The slots, and the shared cells, are those that the journal tells of. -/
theorem cells_of_journal (h : s.Orderly) (h' : s'.Orderly) (hs : Sound l s) (hs' : Sound l' s')
    (hj : s'.journal = s.journal) :
    (∀ k, s'.boundCells k = s.boundCells k) ∧ s'.sharedCells = s.sharedCells := by
  refine ⟨fun k => Table.sum_congr fun id => ?_, Table.sum_congr fun id => ?_⟩
  · rw [h'.told id, h.told id, hj]
  · rw [hs'.sharing_one, hs.sharing_one, h'.counted, h.counted, hj]

theorem counter_new (k : CellKind) (e : ClaimEvent) : Profiler.new.counter k e = 0 := by
  cases e <;> rfl

theorem Balanced.fresh (h₀ : s₀.Orderly) (h : s.Orderly) (hs₀ : Sound l s₀) (hs : Sound l' s)
    (hj : s.journal = s₀.journal) (hp : s.profiler = .new) : Balanced s₀ s := by
  obtain ⟨hb, hsh⟩ := cells_of_journal h₀ h hs₀ hs hj
  refine ⟨by rw [hp]; rfl, fun k => ?_, fun k => ?_, ?_, fun k _ => ?_⟩ <;> rw [hp]
  · rw [counter_new, counter_new, counter_new, hb]
  · rw [counter_new, hj, Nat.zero_add]
  · rw [counter_new, counter_new, hsh]
  · exact counter_new k _

/-- Whatever was done since a state in which the profiler was fresh. -/
structure State.Measured (s₀ s : State) : Prop where
  orderly : s.Orderly
  balanced : ∀ es, s.journal = es ++ s₀.journal → es.tunings = [] → ¬ s.profiler.Full →
    Balanced s₀ s

/-- A counter without room stays so. -/
theorem Move.full (m : Move l s ds l' s') (h : s.profiler.Full) (ht : ∀ p, s' ≠ s.tune p) :
    s'.profiler.Full := by
  cases m with
  | aside ha => rwa [ha.profiler]
  | tuned p => exact absurd rfl (ht p)
  | counted hp => exact h.mono (Profiler.record_counts hp)
  | made _ _ _ hp | madeShared _ _ hp => exact h.mono (Profiler.recordMade_counts hp)
  | bound _ _ hp => exact h.mono (Profiler.recordBound_counts hp)
  | emptied _ _ _ hp | endedBound _ _ _ hp => exact h.mono (Profiler.record_counts hp)
  | freed _ _ _ _ _ hp => exact h.mono (Profiler.record_counts hp)
  | boundFull _ _ hp => exact hp
  | _ => exact h

/-- The journal goes back beyond the move, when the move is not the one that made the profiler
fresh. -/
theorem Move.journal_of_tunings (m : Move l s ds l' s') {j es : Journal}
    (hj₀ : s₀.journal = .tuned .new :: j) (hes : s'.journal = es ++ s₀.journal)
    (ht : s.journal.tunings = s₀.journal.tunings) : ∃ es', s.journal = es' ++ s₀.journal := by
  obtain ⟨ms, hms⟩ := m.journal
  rcases List.append_eq_append_iff.1 (hms.symm.trans hes) with ⟨a, -, ha⟩ | ⟨c, -, hc⟩
  · exact ⟨a, ha⟩
  · cases c with
    | nil => exact ⟨[], hc.symm⟩
    | cons e c =>
      obtain rfl : e = .tuned .new := (List.cons.inj (hj₀.symm.trans hc)).1.symm
      rw [hc, Journal.tunings_append] at ht
      exact nomatch (List.self_eq_append_left.1 ht)

theorem State.Measured.move (h₀ : s₀.Orderly) (hs₀ : Sound [] s₀) {j : Journal}
    (hj₀ : s₀.journal = .tuned .new :: j) (hs : Sound l s) (m : Move l s ds l' s')
    (h : s₀.Measured s) : s₀.Measured s' where
  orderly := Stable.orderly.move hs m h.orderly
  balanced es hes hnone hfull := by
    have hnow : s'.journal.tunings = s₀.journal.tunings := by
      rw [hes, Journal.tunings_append, hnone, List.nil_append]
    rcases m.tunings with hsame | ⟨p, rfl⟩
    · have hne : ∀ p, s' ≠ s.tune p := by
        rintro p rfl
        exact absurd hsame (List.cons_ne_self _ _)
      obtain ⟨es', hes'⟩ := m.journal_of_tunings hj₀ hes (hsame.symm.trans hnow)
      have hnone' : Journal.tunings es' = [] := by
        rw [hsame, hes', Journal.tunings_append] at hnow
        exact List.append_left_eq_self.1 hnow
      refine m.balanced hs (h.balanced es' hes' hnone' fun hf => hfull (m.full hf hne)) hfull ?_
      intro p hp
      rw [hp] at hsame
      exact absurd hsame (List.cons_ne_self _ _)
    · cases es with
      | cons e es =>
        obtain ⟨rfl, -⟩ := List.cons.inj hes
        cases hnone
      | nil =>
        obtain ⟨hp, -⟩ := List.cons.inj (hes.trans hj₀)
        refine .fresh h₀ (Stable.orderly.move hs m h.orderly) hs₀ (m.sound hs) hes ?_
        cases hp
        rfl

theorem Stable.measured (h₀ : s₀.Orderly) (hs₀ : Sound [] s₀) {j : Journal}
    (hj₀ : s₀.journal = .tuned .new :: j) : Stable s₀.Measured where
  move hs m h := h.move h₀ hs₀ hj₀ hs m
  startThread h :=
    { orderly := Stable.orderly.startThread h.orderly
      balanced := fun es hes hnone hfull => { h.balanced es hes hnone hfull with } }
  endThread hs hw h :=
    { orderly := Stable.orderly.endThread hs hw h.orderly
      balanced := fun es hes hnone hfull => { h.balanced es hes hnone hfull with } }

/-! ## What is read off the counters -/

/-- The claims that the counters of a kind hold cells to have. -/
def KindStats.held (s : KindStats) : Nat :=
  s.bound.toNat - (s.released.toNat + s.transferred.toNat)

theorem KindStats.outstanding_some {s : KindStats}
    (h : s.released.toNat + s.transferred.toNat < UInt64.size) :
    ∃ n, s.outstanding = some n ∧ n.toNat = s.held := by
  obtain ⟨n, hn⟩ : ∃ n, checkedAdd s.released s.transferred = some n := by
    rw [checkedAdd, if_pos h]
    exact ⟨_, rfl⟩
  refine ⟨saturatingSub s.bound n, by rw [outstanding, hn]; rfl, ?_⟩
  rw [held, ← (Profiler.checkedAdd_some.1 hn).2, saturatingSub]
  split
  · next hle => exact UInt64.toNat_sub_of_le _ _ hle
  · next hlt =>
    rw [UInt64.le_iff_toNat_le] at hlt
    show 0 = _
    omega

/-- The claims of several kinds are summed up, if the sum fits. -/
theorem foldlM_outstanding {L : List KindStats} {n : UInt64}
    (h : ∀ s ∈ L, s.released.toNat + s.transferred.toNat < UInt64.size)
    (hsum : n.toNat + (L.map KindStats.held).sum < UInt64.size) :
    ∃ m, L.foldlM (fun total s => s.outstanding.bind (checkedAdd total)) n = some m ∧
      m.toNat = n.toNat + (L.map KindStats.held).sum := by
  induction L generalizing n with
  | nil => exact ⟨n, rfl, rfl⟩
  | cons s L ih =>
    rw [List.map_cons, List.sum_cons] at hsum ⊢
    obtain ⟨a, ha, hn⟩ := KindStats.outstanding_some (h s List.mem_cons_self)
    have hadd : n.toNat + a.toNat < UInt64.size := by omega
    obtain ⟨b, hb⟩ : ∃ b, checkedAdd n a = some b := by
      rw [checkedAdd, if_pos hadd]
      exact ⟨_, rfl⟩
    have hb' := (Profiler.checkedAdd_some.1 hb).2
    obtain ⟨m, hm, hm'⟩ := ih (fun s hs => h s (List.mem_cons_of_mem _ hs)) (n := b) (by omega)
    refine ⟨m, ?_, by omega⟩
    rw [List.foldlM_cons, ha, Option.bind_some, hb]
    exact hm

/-- A table of kinds has what its keys have. -/
theorem Table.sum_kinds {α : Type} (t : Table CellKind α) (w : CellKind → α → Nat) :
    t.sum w = (CellKind.all.map fun k => ((t.get? k).map (w k)).getD 0).sum := by
  have hzero : ((((t.erase .plain).erase .parameter).erase .shared).erase .temp).sum w = 0 := by
    by_contra hpos
    obtain ⟨k, x, hk, -⟩ := Table.exists_of_sum_pos (Nat.pos_of_ne_zero hpos)
    cases k <;> simp [Table.get?_erase] at hk
  rw [t.sum_eq_sum_erase .plain, (t.erase .plain).sum_eq_sum_erase .parameter,
    ((t.erase .plain).erase .parameter).sum_eq_sum_erase .shared,
    (((t.erase .plain).erase .parameter).erase .shared).sum_eq_sum_erase .temp, hzero]
  simp [CellKind.all, Table.get?_erase]
  omega

namespace Profiler

/-- No claims that were given up are too many for one counter. -/
def Fits (p : Profiler) : Prop :=
  ∀ k, p.counter k .released + p.counter k .transferred < UInt64.size

theorem kindStats_none (h : p.stats.get? k = none) : (p.kindStats k).held = 0 := by
  rw [kindStats, h]
  rfl

theorem kindStats_some {st : KindStats} (h : p.stats.get? k = some st) : p.kindStats k = st := by
  rw [kindStats, h]
  rfl

theorem outstanding_some (h : p.Fits)
    (hsum : (CellKind.all.map fun k => (p.kindStats k).held).sum < UInt64.size) :
    ∃ n, p.outstanding = some n ∧
      n.toNat = (CellKind.all.map fun k => (p.kindStats k).held).sum := by
  have htotal : (p.stats.values.map KindStats.held).sum =
      (CellKind.all.map fun k => (p.kindStats k).held).sum := by
    have h1 := p.stats.sum_eq fun _ st => st.held
    rw [List.map_map] at h1
    rw [Table.values, List.map_map]
    refine h1.symm.trans ((p.stats.sum_kinds _).trans ?_)
    refine congrArg List.sum (List.map_congr_left fun k _ => ?_)
    cases hk : p.stats.get? k with
    | none => rw [kindStats_none hk]; rfl
    | some st => rw [kindStats_some hk]; rfl
  have hfits : ∀ st ∈ p.stats.values, st.released.toNat + st.transferred.toNat < UInt64.size := by
    intro st hst
    obtain ⟨k, hk⟩ := (Table.mem_values_iff _ _).1 hst
    have h1 := h k
    rwa [counter, counter, kindStats_some hk] at h1
  obtain ⟨m, hm, hm'⟩ := foldlM_outstanding hfits (n := 0)
    (by rw [htotal]; simpa using hsum)
  exact ⟨m, hm, by rw [hm', htotal]; simp⟩

theorem leaking_some (h : p.Fits) : ∃ L, p.leaking = some L ∧
    L.map (fun x => (x.1, x.2.toNat)) =
      (CellKind.all.filter fun k => 0 < (p.kindStats k).held).map
        fun k => (k, (p.kindStats k).held) := by
  obtain ⟨L, hL, hheld⟩ : ∃ L, (p.recorded.mapM fun ks : CellKind × KindStats =>
      ks.2.outstanding.map (ks.1, ·)) = some L ∧
      (L.filter (0 < ·.2)).map (fun x => (x.1, x.2.toNat)) =
        (CellKind.all.filter fun k => 0 < (p.kindStats k).held).map
          fun k => (k, (p.kindStats k).held) := by
    unfold recorded
    generalize CellKind.all = K
    induction K with
    | nil => exact ⟨[], rfl, rfl⟩
    | cons k K ih =>
      obtain ⟨L, hL, hheld⟩ := ih
      cases hk : p.stats.get? k with
      | none =>
        refine ⟨L, ?_, ?_⟩
        · rw [List.filterMap_cons_none (by rw [hk]; rfl)]
          exact hL
        · rw [hheld, List.filter_cons_of_neg (by simp [kindStats_none hk])]
      | some st =>
        have h1 := h k
        rw [counter, counter, kindStats_some hk] at h1
        obtain ⟨n, hn, hn'⟩ := KindStats.outstanding_some h1
        refine ⟨(k, n) :: L, ?_, ?_⟩
        · rw [List.filterMap_cons_some (by rw [hk]; rfl), List.mapM_cons, hL, hn]
          rfl
        · have hpos : (0 < n) ↔ 0 < st.held := by
            rw [UInt64.lt_iff_toNat_lt, hn']
            rfl
          by_cases hz : 0 < st.held
          · rw [List.filter_cons_of_pos (by simpa using hpos.2 hz),
              List.filter_cons_of_pos (by simpa [kindStats_some hk] using hz), List.map_cons,
              List.map_cons, hheld, hn', kindStats_some hk]
          · rw [List.filter_cons_of_neg (by simpa using fun hc => hz (hpos.1 hc)),
              List.filter_cons_of_neg (by simpa [kindStats_some hk] using hz), hheld]
  exact ⟨L.filter (0 < ·.2), by rw [leaking, hL]; rfl, hheld⟩

end Profiler

/-! ## Every run -/

/-- **The profiler keeps the balance.** From a state in which it was put in place fresh, as long as
nothing else is put in place and no counter is full, at the end of every operation and at every
signal: what cells of a kind took over, less what they gave up or handed on, is how many more of
them are bound; what is counted as made was made, and as freed was freed. So the claims that are
said to be outstanding are those that cells hold more than they did. -/
theorem profiler_balance (h₀ : Reached s₀) (h : Reached s) {j es : Journal}
    (hj₀ : s₀.journal = .tuned .new :: j) (hes : s.journal = es ++ s₀.journal)
    (hnone : es.tunings = []) (hroom : ¬ s.profiler.Full) :
    (∀ k, (s.profiler.counter k .bound : Int) - s.profiler.counter k .released -
      s.profiler.counter k .transferred = s.boundCells k - s₀.boundCells k) ∧
    (∀ k, s.profiler.counter k .constructed = es.made k) ∧
    (s.profiler.counter .shared .constructed : Int) - s.profiler.counter .shared .cellFreed =
      s.sharedCells - s₀.sharedCells ∧
    (∀ k, k ≠ .shared → s.profiler.counter k .cellFreed = 0) ∧
    (∀ k, s.profiler.counter k .released + s.profiler.counter k .transferred < UInt64.size →
      ∃ n, (s.profiler.kindStats k).outstanding = some n ∧
        n.toNat = s.boundCells k - s₀.boundCells k) ∧
    ((∀ k, s₀.boundCells k = 0) →
      ((CellKind.all.map s.boundCells).sum < UInt64.size → ∃ n, s.profiler.outstanding = some n ∧
        n.toNat = (CellKind.all.map s.boundCells).sum) ∧
      ∃ L, s.profiler.leaking = some L ∧ L.map (fun x => (x.1, x.2.toNat)) =
        (CellKind.all.filter fun k => 0 < s.boundCells k).map fun k => (k, s.boundCells k)) := by
  have horderly : s₀.Orderly := h₀.stable .orderly .start
  have hmeasured : s₀.Measured s := h.stable (.measured horderly h₀.sound hj₀) fun _ _ _ _ =>
    { orderly := .start _ _ _ _
      balanced := fun es hes => by
        rw [hj₀] at hes
        cases es <;> cases hes }
  have hb := hmeasured.balanced es hes hnone hroom
  have hheld : ∀ k, (s.profiler.kindStats k).held = s.boundCells k - s₀.boundCells k := fun k => by
    have h1 := hb.bound k
    rw [KindStats.held]
    simp only [Profiler.counter, KindStats.count] at h1
    omega
  refine ⟨fun k => ?_, fun k => ?_, ?_, hb.freed, fun k hfit => ?_, fun hzero => ?_⟩
  · have h1 := hb.bound k
    omega
  · have h1 := hb.constructed k
    rw [hes, Journal.made_append] at h1
    exact Nat.add_right_cancel h1
  · have h1 := hb.shared
    omega
  · obtain ⟨n, hn, hn'⟩ := KindStats.outstanding_some hfit
    exact ⟨n, hn, hn'.trans (hheld k)⟩
  · have hfits : s.profiler.Fits := fun k => by
      have h1 := hb.bound k
      have h2 := ((s.profiler.kindStats k).count .bound).toNat_lt_size
      rw [hzero] at h1
      unfold Profiler.counter at *
      omega
    have hheld' : (fun k => (s.profiler.kindStats k).held) = s.boundCells := funext fun k => by
      rw [hheld, hzero, Nat.sub_zero]
    refine ⟨fun hsum => ?_, ?_⟩
    · have h1 := Profiler.outstanding_some hfits
      rw [hheld'] at h1
      exact h1 hsum
    · have h1 := Profiler.leaking_some hfits
      simp only [congrFun hheld'] at h1
      exact h1

/-- A cell is made with an object after the profiler was reset. -/
theorem profiler_balance_made : ∃ s₀ s : State, s.boundCells .plain = 1 ∧
    (s.profiler.counter .plain .bound : Int) - s.profiler.counter .plain .released -
      s.profiler.counter .plain .transferred = s.boundCells .plain - s₀.boundCells .plain := by
  have h0 : Reached (.start .plain true {} none) := .start _ _ _ _
  have h1 := h0.ended (show step 1 (.profiler false .reset) _ = .ended _ _ from rfl)
  have h2 := h1.ended (show step 1 (.object (.allocate (some ""))) _ = .ended _ _ from rfl)
  have h3 := h2.ended (show step 1 (.cell (.make "" (.plain "" (some "")))) _ = .ended _ _ from rfl)
  refine ⟨_, _, rfl, (profiler_balance h1 h3 rfl (show _ = [_, _, _, _, _] ++ _ from rfl) rfl
    ?_).1 .plain⟩
  rintro ⟨k, e, h⟩
  cases k <;> cases e <;> cases h

end ClaimCells
