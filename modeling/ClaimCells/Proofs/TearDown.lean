import ClaimCells.Proofs.Flow
import ClaimCells.Proofs.Undisturbed

/-!
# Tearing down

Cells, handles of shared cells and claims are given up one after the other, while nothing disturbs
it. What is left then depends on what was given up, and not on the order: each claim that had an
owner is released once, when the last owner goes, and a release that the ledger refuses is counted
as such and does no harm.

`Shed s os t` says that from `s` to `t` the owners `os` were given up. It tells which claims were
released on the way (`Paid`) and which events were counted (`Told`), as far as they can be told from
the two ends.

Main results: `drops_shed` for one operation, `drops_run` for a script of them, and
`teardown_order_free`.
-/

namespace ClaimCells

open Act (Outcome)

variable {α β : Type} {s t u : State} {o : ObjectId} {c : Claim} {v : Slot} {id : SlotId}
  {xs xs' : List ObjectId} {R R' : List (CellKind × ClaimEvent)} {p p' : Profiler}
  {key : String} {k : KeptId} {e : Kept} {n : Nat} {op : Op}

/-! ## What is given up -/

/-- What a claim or a cell is given up through. -/
inductive Owner
  | claim (key : String)
  | cell (k : KeptId)
  | handle (i : HandleId)
deriving DecidableEq

variable {w : Owner} {os os' : List Owner}

/-- The operation gives up what it finds under its key. A cell that an operation uses cannot be
given up, and a native claim not without the functions for it. -/
inductive Op.Drops (s : State) : Op → Owner → Prop
  | claim {key : String} {o : ObjectId} (h : s.thread.claims.get? key = some o) :
      Drops s (.object (.dropClaim key)) (.claim key)
  | cell {key : String} {k : KeptId} {e : Kept} (hkey : s.thread.cells.get? key = some k)
      (hk : s.thread.kept.get? k = some e) (hu : e.users = 0) :
      Drops s (.cell (.drop key)) (.cell k)
  | release {key : String} {k : KeptId} {e : Kept} {id : SlotId} {a : Access}
      (hkey : s.thread.cells.get? key = some k) (hk : s.thread.kept.get? k = some e)
      (hu : e.users = 0) (hc : e.cell = .handle id a) :
      Drops s (.cell (.release key)) (.cell k)
  | native {key : String} {i : HandleId} {c : Cell} (h : s.Reaches key i c)
      (hf : s.functions.isSome) : Drops s (.native (.release (some key))) (.handle i)

/-- What is left when the owners are gone. -/
structure Without (s : State) (os : List Owner) (t : State) : Prop where
  claims : ∀ key, t.thread.claims.get? key =
    if .claim key ∈ os then none else s.thread.claims.get? key
  kept : ∀ k, t.thread.kept.get? k = if .cell k ∈ os then none else s.thread.kept.get? k
  handles : ∀ i, t.handles.get? i = if .handle i ∈ os then none else s.handles.get? i
  cells : ∀ key k, s.thread.cells.get? key = some k → .cell k ∉ os →
    t.thread.cells.get? key = some k
  keys : ∀ key i, s.handleKeys.get? key = some i → .handle i ∉ os → t.handleKeys.get? key = some i
  slots : ∀ id v, t.slots.get? id = some v → s.slots.get? id = some v
  others : (t.waiting, t.ended, t.functions, t.thread.hooks, t.nativeHooks) =
    (s.waiting, s.ended, s.functions, s.thread.hooks, s.nativeHooks)

/-- Whether the entry tells of a release of the object that was refused. -/
def Entry.refusesRelease (o : ObjectId) : Entry → Bool
  | .refused (.releaseFreed x) | .refused (.releaseUnknown x) => x = o
  | _ => false

/-- How many releases of an object were refused. -/
def Journal.refusals (j : Journal) (o : ObjectId) : Nat :=
  j.countP (Entry.refusesRelease o)

/-- The claims that were given up, and how many of them were refused. -/
structure Paid (s : State) (xs : List ObjectId) (t : State) : Prop where
  ledger : t.thread.ledger = s.thread.ledger.giveUpAll xs
  owned : ∀ o, t.claimsOn ⟨.counted, o⟩ + xs.count o = s.claimsOn ⟨.counted, o⟩
  refused : ∀ o, t.journal.refusals o =
    s.journal.refusals o + (xs.count o - s.thread.ledger.count o)

/-- The events that were counted while cells ended. -/
structure Told (s : State) (R : List (CellKind × ClaimEvent)) (t : State) : Prop where
  counts : s.profiler.Counts R t.profiler
  enabled : t.profiler.enabled = s.profiler.enabled
  off : s.profiler.enabled = false → t.profiler = s.profiler
  bound : ∀ k, R.count (k, .released) + t.boundCells k = s.boundCells k
  shared : R.count (.shared, .cellFreed) + t.sharedCells = s.sharedCells
  only : ∀ r ∈ R, r.2 = .released ∨ r = (.shared, .cellFreed)

/-- The owners were given up, and nothing else happened. -/
structure Shed (s : State) (os : List Owner) (xs : List ObjectId)
    (R : List (CellKind × ClaimEvent)) (t : State) : Prop extends
    Without s os t, Paid s xs t, Told s R t

namespace Without

theorem same (hclaims : t.thread.claims = s.thread.claims) (hkept : t.thread.kept = s.thread.kept)
    (hcells : t.thread.cells = s.thread.cells)
    (hhandles : (t.handles, t.handleKeys) = (s.handles, s.handleKeys))
    (hslots : ∀ id v, t.slots.get? id = some v → s.slots.get? id = some v)
    (hothers : (t.waiting, t.ended, t.functions, t.thread.hooks, t.nativeHooks) =
      (s.waiting, s.ended, s.functions, s.thread.hooks, s.nativeHooks)) : Without s [] t := by
  simp only [Prod.mk.injEq] at hhandles
  exact
    { claims := fun key => by rw [hclaims, if_neg List.not_mem_nil]
      kept := fun k => by rw [hkept, if_neg List.not_mem_nil]
      handles := fun i => by rw [hhandles.1, if_neg List.not_mem_nil]
      cells := fun key k h _ => hcells ▸ h
      keys := fun key i h _ => hhandles.2 ▸ h
      slots := hslots
      others := hothers }

theorem trans (h : Without s os t) (h' : Without t os' u) : Without s (os ++ os') u where
  claims key := by
    rw [h'.claims, h.claims]
    by_cases h₁ : .claim key ∈ os <;> by_cases h₂ : .claim key ∈ os' <;> simp [h₁, h₂]
  kept k := by
    rw [h'.kept, h.kept]
    by_cases h₁ : .cell k ∈ os <;> by_cases h₂ : .cell k ∈ os' <;> simp [h₁, h₂]
  handles i := by
    rw [h'.handles, h.handles]
    by_cases h₁ : .handle i ∈ os <;> by_cases h₂ : .handle i ∈ os' <;> simp [h₁, h₂]
  cells key k hkey hn := by
    rw [List.mem_append, not_or] at hn
    exact h'.cells key k (h.cells key k hkey hn.1) hn.2
  keys key i hkey hn := by
    rw [List.mem_append, not_or] at hn
    exact h'.keys key i (h.keys key i hkey hn.1) hn.2
  slots id v hv := h.slots id v (h'.slots id v hv)
  others := h'.others.trans h.others

end Without

theorem Journal.refusals_cons (e : Entry) (j : Journal) (o : ObjectId) :
    Journal.refusals (e :: j) o = j.refusals o + if e.refusesRelease o = true then 1 else 0 :=
  List.countP_cons

namespace Paid

/-- Claims go from one place to another. -/
theorem moved {slots : Table SlotId Slot} {claims : Table String ObjectId} {hands : List Claim}
    (es : Journal) (hl : t.thread.ledger = s.thread.ledger) (hj : t.journal = es ++ s.journal)
    (hes : ∀ e ∈ es, ∀ o, e.refusesRelease o = false)
    (ho : t.owners = (slots, claims, hands, s.waiting, s.ended))
    (hb : ∀ o, (slots.sum fun _ v => v.owns ⟨.counted, o⟩) +
        (claims.sum fun _ o' => [(⟨.counted, o'⟩ : Claim)].count ⟨.counted, o⟩) +
        hands.count ⟨.counted, o⟩ =
      (s.slots.sum fun _ v => v.owns ⟨.counted, o⟩) + s.thread.claimsOn ⟨.counted, o⟩) :
    Paid s [] t where
  ledger := hl
  owned o := by
    have h := hb o
    rw [List.count_nil, State.claimsOn_eq ho, State.claimsOn]
    omega
  refused o := by
    have h : es.countP (Entry.refusesRelease o) = 0 :=
      List.countP_eq_zero.2 fun e he => by rw [hes e he o]; exact Bool.false_ne_true
    rw [hj, Journal.refusals, List.countP_append, h, List.count_nil, Nat.zero_sub, Nat.zero_add]
    rfl

/-- A kept claim goes into the hands. -/
theorem taken (h : s.thread.claims.get? key = some o) (hl : t.thread.ledger = s.thread.ledger)
    (hj : t.journal = s.journal) (ho : t.owners = (s.slots, s.thread.claims.erase key,
      ⟨.counted, o⟩ :: s.thread.hands, s.waiting, s.ended)) : Paid s [] t := by
  refine .moved [] hl hj (List.forall_mem_nil _) ho fun x => ?_
  have h := Table.sum_erase_of_get? h fun _ o => [(⟨.counted, o⟩ : Claim)].count ⟨.counted, x⟩
  rw [← List.singleton_append, List.count_append, Thread.claimsOn]
  omega

/-- A slot ends, and its claim goes into the hands. -/
theorem ended (es : Journal) (hv : s.slots.get? id = some v)
    (hl : t.thread.ledger = s.thread.ledger) (hj : t.journal = es ++ s.journal)
    (hes : ∀ e ∈ es, ∀ o, e.refusesRelease o = false)
    (ho : t.owners = (s.slots.erase id, s.thread.claims, v.claim?.toList ++ s.thread.hands,
      s.waiting, s.ended)) : Paid s [] t := by
  refine .moved es hl hj hes ho fun o => ?_
  have h := Table.sum_erase_of_get? hv fun _ v => v.owns ⟨.counted, o⟩
  rw [Slot.owns] at h
  rw [List.count_append, Thread.claimsOn]
  omega

/-- A claim in hand is given up. The entry tells whether that was refused. -/
theorem lost {H : List Claim} {e : Entry} (hh : s.thread.hands = ⟨.counted, o⟩ :: H)
    (hl : t.thread.ledger = s.thread.ledger.giveUp o) (hj : t.journal = e :: s.journal)
    (he : ∀ x, e.refusesRelease x = true ↔ x = o ∧ s.thread.ledger.count o = 0)
    (ho : t.owners = (s.slots, s.thread.claims, H, s.waiting, s.ended)) : Paid s [o] t := by
  have hone : ∀ x, [o].count x = if x = o then 1 else 0 := fun x => by
    rw [List.count_singleton]
    by_cases hx : x = o
    · rw [if_pos hx, hx, if_pos (beq_self_eq_true o)]
    · rw [if_neg hx, if_neg (by simpa using Ne.symm hx)]
  refine ⟨hl, fun x => ?_, fun x => ?_⟩
  · have hcount : (⟨.counted, o⟩ :: H : List Claim).count ⟨.counted, x⟩ =
        H.count ⟨.counted, x⟩ + [o].count x := by
      rw [List.count_cons, List.count_singleton]
      simp
    rw [State.claimsOn_eq ho, State.claimsOn, Thread.claimsOn, hh, hcount]
    omega
  · rw [hj, Journal.refusals_cons, hone, if_congr (he x) rfl rfl]
    by_cases hx : x = o
    · subst hx
      simp only [true_and, if_true]
      split <;> omega
    · rw [if_neg fun h => hx h.1, if_neg hx, Nat.zero_sub]

theorem trans (hk : s.thread.ledger.Sound) (h : Paid s xs t) (h' : Paid t xs' u) :
    Paid s (xs ++ xs') u where
  ledger := by
    rw [h'.ledger, h.ledger, Ledger.giveUpAll, Ledger.giveUpAll, Ledger.giveUpAll,
      List.foldl_append]
  owned o := by
    have h₁ := h.owned o
    have h₂ := h'.owned o
    rw [List.count_append]
    omega
  refused o := by
    have hcount := (hk.giveUpAll xs).count o
    rw [h'.refused, h.refused, h.ledger, hcount, List.count_append]
    omega

end Paid

/-- What is counted when a cell with the slot ends: that its claim is released, if it has one. -/
def Slot.endings (v : Slot) : List (CellKind × ClaimEvent) :=
  if v.value.isSome then [(v.kind, .released)] else []

namespace Told

theorem same (hp : t.profiler = s.profiler) (hs : t.slots = s.slots)
    (hsh : t.sharedCells = s.sharedCells) : Told s [] t where
  counts := hp ▸ .refl _
  enabled := by rw [hp]
  off _ := hp
  bound k := by rw [boundCells_congr hs]; exact Nat.zero_add _
  shared := by rw [hsh]; exact Nat.zero_add _
  only := List.forall_mem_nil _

/-- One event is counted. -/
theorem recorded {kind : CellKind} {e : ClaimEvent}
    (hp : s.profiler.record kind e = some t.profiler)
    (hbound : ∀ k, [(kind, e)].count (k, .released) + t.boundCells k = s.boundCells k)
    (hshared : [(kind, e)].count (.shared, .cellFreed) + t.sharedCells = s.sharedCells)
    (he : e = .released ∨ (kind, e) = (.shared, .cellFreed)) : Told s [(kind, e)] t where
  counts := Profiler.record_counts hp
  enabled := Action.record_enabled hp
  off hoff := by
    rw [Profiler.record, if_neg (by rw [hoff]; exact Bool.false_ne_true)] at hp
    exact (Option.some.inj hp).symm
  bound := hbound
  shared := hshared
  only r hr := List.mem_singleton.1 hr ▸ he

/-- A slot without value ends. -/
theorem endedUnbound (hv : s.slots.get? id = some v) (hval : v.value = none)
    (hp : t.profiler = s.profiler) (hs : t.slots = s.slots.erase id)
    (hsh : t.sharing = s.sharing) : Told s [] t where
  counts := hp ▸ .refl _
  enabled := by rw [hp]
  off _ := hp
  bound k := by rw [boundCells_erase hv hs k, Slot.bindings_none hval]; exact Nat.zero_add _
  shared := by rw [sharedCells_congr hsh]; exact Nat.zero_add _
  only := List.forall_mem_nil _

/-- A bound slot ends. -/
theorem endedBound (hv : s.slots.get? id = some v) (hval : v.value = some o)
    (hp : s.profiler.record v.kind .released = some t.profiler) (hs : t.slots = s.slots.erase id)
    (hsh : t.sharing = s.sharing) : Told s [(v.kind, .released)] t := by
  refine .recorded hp (fun k => ?_) ?_ (.inl rfl)
  · have hbinds : [(v.kind, ClaimEvent.released)].count (k, .released) = v.bindings k := by
      rw [List.count_singleton, Slot.bindings, hval]
      simp
    rw [boundCells_erase hv hs k, hbinds, Nat.add_comm]
  · rw [sharedCells_congr hsh, List.count_singleton, if_neg (by simp), Nat.zero_add]

/-- A shared cell is freed before its slot ends. -/
theorem unshared {sh : Sharing} {f : Sharing → Sharing} (hsh : s.sharing.get? id = some sh)
    (hp : s.profiler.record .shared .cellFreed = some t.profiler) (hs : t.slots = s.slots)
    (ht : t.sharing = (s.sharing.modify id f).erase id) : Told s [(.shared, .cellFreed)] t := by
  refine .recorded hp (fun k => ?_) ?_ (.inr rfl)
  · rw [boundCells_congr hs, List.count_singleton, if_neg (by simp), Nat.zero_add]
  · have hget : (s.sharing.modify id f).get? id = some (f sh) := by
      rw [Table.get?_modify_self, hsh, Option.map_some]
    have h := Table.sum_erase_of_get? hget fun _ _ => 1
    have hmodify : { s with sharing := s.sharing.modify id f }.sharedCells = s.sharedCells :=
      sharedCells_modify f rfl
    rw [List.count_singleton, if_pos (beq_self_eq_true _), ← hmodify, State.sharedCells,
      State.sharedCells, ht, h, Nat.add_comm]

theorem trans (h : Told s R t) (h' : Told t R' u) : Told s (R ++ R') u where
  counts := h.counts.trans h'.counts
  enabled := h'.enabled.trans h.enabled
  off hoff := (h'.off (h.enabled.trans hoff)).trans (h.off hoff)
  bound k := by
    have h₁ := h.bound k
    have h₂ := h'.bound k
    rw [List.count_append]
    omega
  shared := by
    have h₁ := h.shared
    have h₂ := h'.shared
    rw [List.count_append]
    omega
  only r hr := (List.mem_append.1 hr).elim (h.only r) (h'.only r)

end Told

theorem Shed.trans (hk : s.thread.ledger.Sound) (h : Shed s os xs R t) (h' : Shed t os' xs' R' u) :
    Shed s (os ++ os') (xs ++ xs') (R ++ R') u :=
  ⟨h.toWithout.trans h'.toWithout, h.toPaid.trans hk h'.toPaid, h.toTold.trans h'.toTold⟩

/-! ## Giving up -/

/-- Where the course ends, if nothing disturbs it, the state is as `P` says. -/
abbrev Act.Leads (P : State → Prop) (x : Act α) : Prop :=
  x.Runs (fun _ _ => True) fun _ t => P t

/-- The claims that an operation releases, and the events that it counts, each at most once. -/
def Sheds (s : State) (os : List Owner) (t : State) : Prop :=
  ∃ xs R, Shed s os xs R t ∧ (∀ r, R.count r ≤ 1) ∧ t.thread.hands = s.thread.hands ∧
    t.thread.nativeDepth = s.thread.nativeDepth

/-- What was taken away is given up. -/
theorem Shed.sheds (hk : s.thread.ledger.Sound) (h : Shed s os [] [] u)
    (hh : u.thread.hands = s.thread.hands) (hd : u.thread.nativeDepth = s.thread.nativeDepth)
    (ht : Sheds u [] t) : Sheds s os t := by
  obtain ⟨xs, R, ht, hone, hht, hdt⟩ := ht
  have hshed := h.trans hk ht
  rw [List.append_nil] at hshed
  exact ⟨xs, R, hshed, hone, hht.trans hh, hdt.trans hd⟩

theorem Slot.endings_count (v : Slot) (r : CellKind × ClaimEvent) : v.endings.count r ≤ 1 := by
  rw [Slot.endings]
  split
  · rw [List.count_singleton]
    split <;> omega
  · exact Nat.zero_le _

namespace Action

variable {P : State → Prop} {a : Action α} {H : List Claim}

/-- A value is made of what comes of it. -/
theorem leads_map {x : Act α} (h : x.Leads P) {k : α → State → Act β}
    (hk : ∀ a t, ∃ b, k a t = .done b t) : (x.bind k).Leads P := by
  refine Act.Runs.bind h (fun a t ht => ?_) fun f t ht => ht
  obtain ⟨b, hb⟩ := hk a t
  rw [hb]
  exact ht

theorem unwinding_leads (h : (a s).Leads P) (hh : ∀ t, P t → t.thread.hands = s.thread.hands) :
    (unwinding a s).Leads P := by
  rw [unwinding, bind_apply, thread_apply, done_bind]
  refine .tried h fun r t ht => ?_
  cases r with
  | ok x => exact ht
  | error f =>
    simp only [bind_apply, thread_apply, done_bind, hh t ht, Nat.sub_self, List.take_zero]
    exact ht

/-- The claim that was given up, if the ledger counts it. -/
def counted (c : Claim) : List ObjectId :=
  match c.realm with
  | .counted => [c.object]
  | .native => []

/-- **A claim in hand is given up.** -/
theorem release_leads (hk : s.thread.ledger.Sound) (hq : s.Undisturbed)
    (hh : s.thread.hands = c :: H) (hd : c.realm = .counted → s.thread.nativeDepth = 0)
    (hf : c.realm = .native → s.functions.isSome) : (release c s).Leads fun t =>
      Shed s [] (counted c) [] t ∧ t.thread.hands = H ∧
        t.thread.nativeDepth = s.thread.nativeDepth := by
  obtain ⟨realm, o⟩ := c
  have hhands := State.letGo_hands hh
  have howners : (s.slots, s.thread.claims, (s.letGo ⟨realm, o⟩).thread.hands, s.waiting, s.ended) =
      (s.slots, s.thread.claims, H, s.waiting, s.ended) := by rw [hhands]
  cases realm with
  | counted =>
    cases hl : s.thread.ledger.release o with
    | error m =>
      have hnone := hk.refused hl
      rw [release_refused hl (hd rfl)]
      refine ⟨⟨.same rfl rfl rfl rfl (fun _ _ h => h) rfl,
        .lost hh (Ledger.giveUp_error hl).symm rfl (fun x => ?_) howners, .same rfl rfl rfl⟩,
        hhands, rfl⟩
      obtain rfl | rfl := Ledger.release_error hl <;> simp [Entry.refusesRelease, hnone, eq_comm]
    | ok k' =>
      have halive := hk.alive hl
      refine release_runs hl rfl hq trivial (fun _ => trivial)
        ⟨⟨.same rfl rfl rfl rfl (fun _ _ h => h) rfl,
          .lost hh (Ledger.giveUp_ok hl).symm rfl (fun x => ?_) howners, .same rfl rfl rfl⟩,
          hhands, rfl⟩
      simp only [Entry.refusesRelease, Bool.false_eq_true, false_iff, not_and]
      omega
  | native =>
    obtain ⟨f, hf⟩ := Option.isSome_iff_exists.1 (hf rfl)
    have hgo : release ⟨.native, o⟩ s = .send ⟨.native, .released, o⟩
        ((s.letGo ⟨.native, o⟩).note (.called f.release .released o)) (.done ()) := by
      show ((functions (s.letGo ⟨.native, o⟩)).bind fun f =>
        note (.called f.release .released o) >>= fun _ => send ⟨.native, .released, o⟩) = _
      rw [functions_some (s := s.letGo ⟨.native, o⟩) hf]
      rfl
    rw [hgo]
    refine ⟨hq.same rfl rfl, trivial, ⟨.same rfl rfl rfl rfl (fun _ _ h => h) rfl,
      .moved [_] rfl rfl (by simp [Entry.refusesRelease]) howners fun x => ?_, .same rfl rfl rfl⟩,
      hhands, rfl⟩
    rw [Thread.claimsOn, hh, List.count_cons_of_ne (by simp)]
    exact Nat.add_assoc _ _ _

/-- **A slot is ended**, and its claim given up. -/
theorem destroySlot_leads (hk : s.thread.ledger.Sound) (hq : s.Undisturbed)
    (hv : s.slots.get? id = some v) (hd : v.realm = .counted → s.thread.nativeDepth = 0)
    (hf : v.realm = .native → s.functions.isSome)
    (hp : s.profiler.record v.kind .released = some p) :
    (destroySlot id s).Leads fun t => ∃ xs, Shed s [] xs v.endings t ∧
      t.thread.hands = s.thread.hands ∧ t.thread.nativeDepth = s.thread.nativeDepth := by
  have hslots : ∀ t : State, t.slots = s.slots.erase id →
      ∀ i w, t.slots.get? i = some w → s.slots.get? i = some w := fun t ht i w hw => by
    rw [ht, Table.get?_erase] at hw
    split at hw
    · cases hw
    · exact hw
  cases hval : v.value with
  | none =>
    have hclaim : v.claim? = none := by rw [Slot.claim?, hval]; rfl
    have hnone : v.endings = [] := by rw [Slot.endings, hval]; rfl
    rw [destroySlot_unbound hv hval, hnone]
    refine ⟨[], ⟨.same rfl rfl rfl rfl (hslots _ rfl) rfl,
      .ended [_] hv rfl rfl (by simp [Entry.refusesRelease]) ?_, .endedUnbound hv hval rfl rfl rfl⟩,
      rfl, rfl⟩
    rw [hclaim]
    rfl
  | some o =>
    have hclaim : v.claim? = some ⟨v.realm, o⟩ := by rw [Slot.claim?, hval]; rfl
    have hsome : v.endings = [(v.kind, .released)] := by rw [Slot.endings, hval]; rfl
    rw [destroySlot_bound hv hval hp, hsome]
    generalize hw : State.emit _ _ = w
    have hshed : Shed s [] [] [(v.kind, .released)] w := by
      subst hw
      refine ⟨.same rfl rfl rfl rfl (hslots _ rfl) rfl,
        .ended [_, _] hv rfl rfl (by simp [Entry.refusesRelease]) ?_,
        .endedBound hv hval hp rfl rfl⟩
      rw [hclaim]
      rfl
    have hledger : w.thread.ledger = s.thread.ledger := hw ▸ rfl
    have hdepth : w.thread.nativeDepth = s.thread.nativeDepth := hw ▸ rfl
    have hfunctions : w.functions = s.functions := hw ▸ rfl
    have hhands : w.thread.hands = ⟨v.realm, o⟩ :: s.thread.hands := hw ▸ rfl
    refine (release_leads (hledger ▸ hk) (hq.same (hw ▸ rfl) (hw ▸ rfl)) hhands (hdepth ▸ hd)
      (hfunctions ▸ hf)).imp ?_
    rintro - t ⟨ht, hh, hdt⟩
    exact ⟨_, hshed.trans hk ht, hh, hdt.trans hdepth⟩

/-- **A cell is given up.** -/
theorem destroy_leads {c : Cell} (hk : s.thread.ledger.Sound) (hq : s.Undisturbed)
    (hst : c.Stands s v) (hpos : ∀ id sh, s.sharing.get? id = some sh → sh.handles ≠ 0)
    (hd : v.realm = .counted → s.thread.nativeDepth = 0)
    (hf : v.realm = .native → s.functions.isSome) (hroom : ¬ s.profiler.Full) :
    (destroy c s).Leads (Sheds s []) := by
  have hrelease : ∀ p R, s.profiler.Counts R p → (v.kind, .released) ∉ R →
      p.enabled = s.profiler.enabled → ∃ p', p.record v.kind .released = some p' :=
    fun p R hc hn he => Profiler.record_room _ _ hroom hc hn he
  cases c with
  | own form id =>
    obtain ⟨p, hp⟩ := hrelease s.profiler [] (.refl _) List.not_mem_nil rfl
    refine (destroySlot_leads hk hq hst.slot hd hf hp).imp ?_
    rintro - t ⟨xs, ht, hh, hdt⟩
    exact ⟨xs, v.endings, ht, v.endings_count, hh, hdt⟩
  | handle id a =>
    obtain ⟨sh, hsh⟩ := hst.shared id a rfl
    by_cases hn : sh.handles = 1
    · obtain ⟨p, hp⟩ := Profiler.record_room .shared .cellFreed hroom (.refl _) List.not_mem_nil rfl
      rw [destroy_last hsh hn hst.slot hp]
      generalize hw : State.emit _ _ = w
      have hshed : Shed s [] [] [(.shared, .cellFreed)] w := by
        subst hw
        refine ⟨.same rfl rfl rfl rfl (fun _ _ h => h) rfl,
          .moved [_, _] rfl rfl (by simp [Entry.refusesRelease]) rfl fun x => ?_,
          .unshared hsh hp rfl rfl⟩
        exact Nat.add_assoc _ _ _
      have hledger : w.thread.ledger = s.thread.ledger := hw ▸ rfl
      have hdepth : w.thread.nativeDepth = s.thread.nativeDepth := hw ▸ rfl
      have hfunctions : w.functions = s.functions := hw ▸ rfl
      have hslots : w.slots = s.slots := hw ▸ rfl
      have hhands : w.thread.hands = s.thread.hands := hw ▸ rfl
      obtain ⟨p', hp'⟩ := hrelease w.profiler _ hshed.counts (by simp) hshed.enabled
      refine (destroySlot_leads (hledger ▸ hk) (hq.same (hw ▸ rfl) (hw ▸ rfl)) (hslots ▸ hst.slot)
        (hdepth ▸ hd) (hfunctions ▸ hf) hp').imp ?_
      rintro - t ⟨xs, ht, hh, hdt⟩
      refine ⟨_, _, hshed.trans hk ht, fun r => ?_, hh.trans hhands, hdt.trans hdepth⟩
      have hone := v.endings_count r
      rw [List.count_append, List.count_singleton]
      split
      · next hr =>
        obtain rfl : (.shared, .cellFreed) = r := by simpa using hr
        have hnot : v.endings.count (.shared, .cellFreed) = 0 := by
          refine List.count_eq_zero.2 ?_
          rw [Slot.endings]
          split <;> simp
        omega
      · omega
    · have hmany : 2 ≤ sh.handles := by
        have := hpos id sh hsh
        omega
      rw [destroy_many hsh hmany]
      refine ⟨[], [], ⟨.same rfl rfl rfl rfl (fun _ _ h => h) rfl,
        .moved [_] rfl rfl (by simp [Entry.refusesRelease]) rfl fun x => ?_,
        .same rfl rfl (sharedCells_modify (fun c => { c with handles := c.handles - 1 }) rfl)⟩,
        fun r => Nat.zero_le _, rfl, rfl⟩
      exact Nat.add_assoc _ _ _

/-! ## Operations -/

/-- A claim is taken away from its key. -/
theorem shed_claim {o : ObjectId} (h : s.thread.claims.get? key = some o) :
    Shed s [.claim key] [] []
      ((s.inThread fun t => { t with claims := t.claims.erase key }).hold ⟨.counted, o⟩) := by
  refine ⟨⟨fun key' => ?_, fun k => ?_, fun i => ?_, fun key k h _ => h, fun key i h _ => h,
    fun id v h => h, rfl⟩, .taken h rfl rfl rfl, .same rfl rfl rfl⟩
  · refine (Table.get?_erase _ _ _).trans ?_
    simp only [List.mem_singleton, Owner.claim.injEq]
  · rw [if_neg (by simp)]
    rfl
  · rw [if_neg (by simp)]
    rfl

/-- A cell is taken away from its key. -/
theorem shed_cell (hkey : s.thread.cells.get? key = some k) :
    Shed s [.cell k] [] [] (s.inThread fun t =>
      { t with cells := t.cells.erase key, kept := t.kept.erase k }) := by
  refine ⟨⟨fun key' => ?_, fun k => ?_, fun i => ?_, fun key' k' h hn => ?_, fun key i h _ => h,
    fun id v h => h, rfl⟩, .moved [] rfl rfl (by simp) rfl fun x => ?_, .same rfl rfl rfl⟩
  · rw [if_neg (by simp)]
    rfl
  · refine (Table.get?_erase _ _ _).trans ?_
    simp only [List.mem_singleton, Owner.cell.injEq]
  · rw [if_neg (by simp)]
    rfl
  · refine (Table.get?_erase_ne _ ?_).trans h
    rintro rfl
    rw [hkey] at h
    cases h
    exact hn (List.mem_singleton_self _)
  · exact Nat.add_assoc _ _ _

/-- A handle is taken back from native code. -/
theorem shed_handle {i : HandleId} (hkey : s.handleKeys.get? key = some i) :
    Shed s [.handle i] [] []
      { s with handles := s.handles.erase i, handleKeys := s.handleKeys.erase key } := by
  refine ⟨⟨fun key' => ?_, fun k => ?_, fun i => ?_, fun key' k' h hn => h, fun key' i' h hn => ?_,
    fun id v h => h, rfl⟩, .moved [] rfl rfl (by simp) rfl fun x => ?_, .same rfl rfl rfl⟩
  · rw [if_neg (by simp)]
  · rw [if_neg (by simp)]
  · refine (Table.get?_erase _ _ _).trans ?_
    simp only [List.mem_singleton, Owner.handle.injEq]
  · refine (Table.get?_erase_ne _ ?_).trans h
    rintro rfl
    rw [hkey] at h
    cases h
    exact hn (List.mem_singleton_self _)
  · exact Nat.add_assoc _ _ _

/-- A call from native code begins or comes back. -/
theorem shed_depth (s : State) (n : Nat) :
    Shed s [] [] [] (s.inThread fun t => { t with nativeDepth := n }) :=
  ⟨.same rfl rfl rfl rfl (fun _ _ h => h) rfl,
    .moved [] rfl rfl (List.forall_mem_nil _) rfl fun _ => Nat.add_assoc _ _ _, .same rfl rfl rfl⟩

/-- An event is reported. -/
theorem shed_emit (s : State) (e : Event) : Shed s [] [] [] (s.emit e) :=
  ⟨.same rfl rfl rfl rfl (fun _ _ h => h) rfl,
    .moved [_] rfl rfl (by simp [Entry.refusesRelease]) rfl fun _ => Nat.add_assoc _ _ _,
    .same rfl rfl rfl⟩

theorem nativeCall_leads {P' : State → Prop} (h : (a s.calling).Leads P)
    (hp : ∀ t, P t → P' t.returned) : (nativeCall a s).Leads P' := by
  rw [nativeCall_apply]
  refine .tried h fun r t ht => ?_
  cases r with
  | ok x => exact hp t ht
  | error f => exact hp t ht

/-- **An operation that gives something up does so**, while nothing disturbs it. -/
theorem drops_leads (h : Reached s) (hq : s.Undisturbed) (hd : s.thread.nativeDepth = 0)
    (hroom : ¬ s.profiler.Full) (hop : op.Drops s w) : (op.course s).Leads (Sheds s [w]) := by
  have hk := h.reckons.running.ledger
  have hs := h.sound
  have hpos : ∀ id sh, s.sharing.get? id = some sh → sh.handles ≠ 0 :=
    fun id sh hsh => (hs.shared id sh hsh).1
  refine unwinding_leads ?_ fun t ht => ht.choose_spec.choose_spec.2.2.1
  cases hop with
  | @claim key o hkey =>
    show ((takeClaim key s).bind fun o => release ⟨.counted, o⟩ >>= fun _ =>
      pure Answer.nothing).Leads _
    rw [takeClaim_some hkey, done_bind, bind_apply]
    have hshed := shed_claim hkey
    generalize hu : State.hold _ _ = u at hshed ⊢
    have hrelease := release_leads (c := ⟨.counted, o⟩) (H := s.thread.hands) (s := u) (hu ▸ hk)
      (hq.same (hu ▸ rfl) (hu ▸ rfl)) (hu ▸ rfl) (fun _ => hu ▸ hd) (fun h => by cases h)
    refine leads_map (hrelease.imp ?_) fun _ t => ⟨_, rfl⟩
    rintro - t ⟨ht, hh, hdt⟩
    exact ⟨_, [], hshed.trans hk ht, fun r => Nat.zero_le _, hh, hdt.trans (hu ▸ rfl)⟩
  | @cell key k e hkey he hu =>
    obtain ⟨v, hst, hr⟩ := hs.stands_of_kept he
    show ((takeCell key s).bind fun c => destroy c >>= fun _ => pure Answer.nothing).Leads _
    rw [takeCell_free hkey he hu, done_bind, bind_apply]
    have hshed := shed_cell hkey
    generalize hu : State.inThread _ _ = u at hshed ⊢
    have hdestroy := destroy_leads (s := u) (v := v) (c := e.cell) (hu ▸ hk)
      (hq.same (hu ▸ rfl) (hu ▸ rfl)) (hu ▸ ⟨hst.slot, hst.shared⟩) (hu ▸ hpos) (fun _ => hu ▸ hd)
      (fun h => by cases hr.symm.trans h) (hu ▸ hroom)
    refine leads_map (hdestroy.imp ?_) fun _ t => ⟨_, rfl⟩
    exact fun _ t ht => hshed.sheds hk (hu ▸ rfl) (hu ▸ rfl) ht
  | @release key k e id a hkey he hu hcell =>
    obtain ⟨v, hst, hr⟩ := hs.stands_of_kept he
    rw [hcell] at hst
    obtain ⟨sh, hsh⟩ := hst.shared id a rfl
    show ((cell key s).bind fun c => sharedSlot c >>= fun id => takeCell key >>= fun _ =>
      releaseHandle id >>= fun _ => pure Answer.nothing).Leads _
    rw [cell_some hkey he, done_bind, hcell, bind_apply, sharedSlot_handle, done_bind, bind_apply,
      takeCell_free hkey he hu, done_bind, bind_apply]
    have hshed := shed_cell hkey
    generalize hu : State.inThread _ _ = u at hshed ⊢
    have hsh' : u.sharing.get? id = some sh := hu ▸ hsh
    have hv' : u.slots.get? id = some v := hu ▸ hst.slot
    rw [releaseHandle_eq (a := a) hsh' hv']
    have hsaid := shed_emit u (.released v.name (sh.handles - 1))
    generalize hw : State.emit _ _ = w at hsaid ⊢
    have hdestroy := destroy_leads (s := w) (v := v) (c := .handle id a) (hw ▸ hu ▸ hk)
      (hq.same (hw ▸ hu ▸ rfl) (hw ▸ hu ▸ rfl)) (hw ▸ hu ▸ ⟨hst.slot, hst.shared⟩) (hw ▸ hu ▸ hpos)
      (fun _ => hw ▸ hu ▸ hd) (fun h => by cases hr.symm.trans h) (hw ▸ hu ▸ hroom)
    refine leads_map (hdestroy.imp ?_) fun _ t => ⟨_, rfl⟩
    exact fun _ t ht => (hshed.trans hk hsaid).sheds hk (hw ▸ hu ▸ rfl) (hw ▸ hu ▸ rfl) ht
  | @native key i c hr hf =>
    obtain ⟨v, hst, hrealm⟩ := hs.stands_of_handle hr.2
    obtain ⟨id, a, rfl⟩ := (hs.native i c hr.2).handle
    obtain ⟨sh, hsh⟩ := hst.shared id a rfl
    have hcalling : Shed s [] [] [] s.calling := shed_depth s _
    refine nativeCall_leads (P := Sheds s.calling [.handle i]) ?_ ?_
    · have htake : takeHandle key s.calling = .done (.handle id a)
          { s.calling with
            handles := s.calling.handles.erase i
            handleKeys := s.calling.handleKeys.erase key } := by
        have hkey : s.calling.handleKeys.get? key = some i := hr.1
        have hcell : s.calling.handles.get? i = some (.handle id a) := hr.2
        simp only [takeHandle, bind_apply, handleId_some hkey, done_bind, get_apply, hcell,
          demand_some]
        rfl
      show ((takeHandle key s.calling).bind fun c => releaseHandle c.slot >>= fun _ =>
        pure Answer.nothing).Leads _
      rw [htake, done_bind, bind_apply]
      have hshed := shed_handle (s := s.calling) hr.1
      generalize hu : State.mk .. = u at hshed ⊢
      have hsh' : u.sharing.get? id = some sh := hu ▸ hsh
      have hv' : u.slots.get? id = some v := hu ▸ hst.slot
      rw [Cell.slot, releaseHandle_eq (a := a) hsh' hv']
      have hsaid := shed_emit u (.released v.name (sh.handles - 1))
      generalize hw : State.emit _ _ = w at hsaid ⊢
      have hdestroy := destroy_leads (s := w) (v := v) (c := .handle id a) (hw ▸ hu ▸ hk)
        (hq.same (hw ▸ hu ▸ rfl) (hw ▸ hu ▸ rfl)) (hw ▸ hu ▸ ⟨hst.slot, hst.shared⟩)
        (hw ▸ hu ▸ hpos) (fun h => by cases hrealm.symm.trans h) (fun _ => hw ▸ hu ▸ hf)
        (hw ▸ hu ▸ hroom)
      refine leads_map (hdestroy.imp ?_) fun _ t => ⟨_, rfl⟩
      have hk' : s.calling.thread.ledger.Sound := hk
      exact fun _ t ht => (hshed.trans hk' hsaid).sheds hk' (hw ▸ hu ▸ rfl) (hw ▸ hu ▸ rfl) ht
    · rintro t ⟨xs, R, ht, hone, hht, hdt⟩
      have hback := (hcalling.trans hk ht).trans hk (shed_depth t (t.thread.nativeDepth - 1))
      rw [List.nil_append, List.nil_append, List.nil_append, List.append_nil, List.append_nil,
        List.append_nil] at hback
      refine ⟨xs, R, hback, hone, hht, ?_⟩
      show t.thread.nativeDepth - 1 = _
      rw [hdt]
      rfl

end Action

/-! ## Scripts -/

/-- Every counter of the profiler has room for so many events. -/
def Profiler.Room (p : Profiler) (n : Nat) : Prop :=
  p.enabled = true → ∀ k e, p.counter k e + n < UInt64.size

theorem Profiler.Room.not_full (h : p.Room (n + 1)) : ¬ p.Full := by
  rintro ⟨k, e, hnone⟩
  obtain ⟨hon, hfull⟩ := record_none_iff.1 hnone
  have := h hon k e
  omega

/-- An operation that counts each event once at most leaves room for one less. -/
theorem Profiler.Room.less (h : p.Room (n + 1)) (hc : p.Counts R p') (hen : p'.enabled = p.enabled)
    (hone : ∀ r, R.count r ≤ 1) : p'.Room n := by
  intro hon k e
  have hon' := hen ▸ hon
  have hroom := h hon' k e
  have hle := hone (k, e)
  rw [(hc hon').2]
  omega

/-- What is kept under other keys can be given up later. -/
theorem Op.Drops.later {w' : Owner} (h : op.Drops s w') (ht : Without s [w] t) (hne : w' ≠ w) :
    op.Drops t w' := by
  have hnot : w' ∉ [w] := fun hmem => hne (List.mem_singleton.1 hmem)
  cases h with
  | claim h => exact .claim (by rw [ht.claims, if_neg hnot]; exact h)
  | cell hkey hk hu =>
    exact .cell (ht.cells _ _ hkey hnot) (by rw [ht.kept, if_neg hnot]; exact hk) hu
  | release hkey hk hu hc =>
    exact .release (ht.cells _ _ hkey hnot) (by rw [ht.kept, if_neg hnot]; exact hk) hu hc
  | native h hf =>
    have hothers := ht.others
    simp only [Prod.mk.injEq] at hothers
    exact .native ⟨ht.keys _ _ h.1 hnot, by rw [ht.handles, if_neg hnot]; exact h.2⟩
      (by rw [hothers.2.2.1]; exact hf)

theorem drops_later {ops : List Op} (hops : List.Forall₂ (Op.Drops s) ops os)
    (ht : Without s [w] t) (hnew : w ∉ os) : List.Forall₂ (Op.Drops t) ops os := by
  induction hops with
  | nil => exact .nil
  | cons hop _ ih =>
    rw [List.mem_cons, not_or] at hnew
    exact .cons (hop.later ht (Ne.symm hnew.1)) (ih hnew.2)

/-- A reply is noted. -/
theorem shed_answered (s : State) (r : Reply) : Shed s [] [] [] (s.note (.answered r)) :=
  ⟨.same rfl rfl rfl rfl (fun _ _ h => h) rfl,
    .moved [_] rfl rfl (by simp [Entry.refusesRelease]) rfl fun _ => Nat.add_assoc _ _ _,
    .same rfl rfl rfl⟩

/-- **A script that gives things up does so**, one after the other. -/
theorem drops_run {ops : List Op} (hops : List.Forall₂ (Op.Drops s) ops os) (hone : os.Nodup)
    (h : Reached s) (hq : s.Undisturbed) (hd : s.thread.nativeDepth = 0)
    (hroom : s.profiler.Room ops.length) (n : Nat) :
    ∃ t xs R, runNested (step (n + 1)) ops s = .ok t ∧ Reached t ∧ Shed s os xs R t ∧
      t.thread.hands = s.thread.hands := by
  induction ops generalizing s os with
  | nil =>
    cases hops
    refine ⟨s, [], [], rfl, h, ⟨.same rfl rfl rfl rfl (fun _ _ h => h) rfl,
      .moved [] rfl rfl (List.forall_mem_nil _) rfl fun _ => Nat.add_assoc _ _ _,
      .same rfl rfl rfl⟩, rfl⟩
  | cons op ops ih =>
    obtain _ | ⟨hop, hops⟩ := hops
    next w os =>
    obtain ⟨hnew, hone⟩ := List.nodup_cons.1 hone
    have hthread : ∀ body, op ≠ .thread body := fun body he => by cases hop <;> cases he
    obtain ⟨⟨r, u, he, xs, R, hu, honce, hhu, hdu⟩, -⟩ :=
      step_runs hthread (Action.drops_leads h hq hd hroom.not_full hop) n
    have hk := h.reckons.running.ledger
    have hsaid := hu.trans hk (shed_answered u r)
    rw [List.append_nil, List.append_nil, List.append_nil] at hsaid
    have hothers := hsaid.others
    simp only [Prod.mk.injEq] at hothers
    obtain ⟨t, xs', R', hrun, ht, hshed, hht⟩ := ih (s := u.note (.answered r))
      (drops_later hops hsaid.toWithout hnew) hone ((h.ended he).answered r)
      (hq.same hothers.2.2.2.1 hothers.2.2.2.2) (hdu.trans hd)
      (hroom.less hu.counts hu.enabled honce)
    refine ⟨t, xs ++ xs', R ++ R', ?_, ht, hsaid.trans hk hshed, hht.trans hhu⟩
    rw [runNested, he]
    exact hrun

/-! ## Two orders -/

/-- The same is told of objects, of kinds of cells, and of releases that were refused. -/
structure Alike (t t' : State) : Prop where
  ledger : t.thread.ledger.Agree t'.thread.ledger
  stats : ∀ k, t'.profiler.kindStats k = t.profiler.kindStats k
  refused : ∀ o, t'.journal.refusals o = t.journal.refusals o

/-- A slot is there as long as somebody owns it. -/
theorem Sound.slot_iff (h : Sound [] s) (id : SlotId) : (s.slots.get? id).isSome ↔
    0 < s.tally (Cell.owns id) + s.tally (Cell.handles id) := by
  have hhandles := h.handles id
  have howners := h.owners id
  rw [inArms_nil, Nat.add_zero] at hhandles howners
  rw [hhandles, howners, State.refcount]
  cases hsh : s.sharing.get? id with
  | none =>
    rw [Option.elim_none]
    by_cases hs : (s.slots.get? id).isSome <;> simp [hs]
  | some sh =>
    have hshared := h.shared id sh hsh
    simp only [hshared.2, Option.elim_some, reduceCtorEq, and_false, if_false, Nat.zero_add,
      true_iff]
    exact Nat.pos_of_ne_zero hshared.1

/-- A slot is shared as long as it has handles. -/
theorem Sound.sharing_iff (h : Sound [] s) (id : SlotId) :
    (s.sharing.get? id).isSome ↔ 0 < s.tally (Cell.handles id) := by
  have hhandles := h.handles id
  rw [inArms_nil, Nat.add_zero] at hhandles
  rw [hhandles, State.refcount]
  cases hsh : s.sharing.get? id with
  | none => simp
  | some sh => simpa using Nat.pos_of_ne_zero (h.shared id sh hsh).1

namespace Without

variable {t' : State}

theorem of_perm (h : Without s os t) (hperm : os.Perm os') : Without s os' t where
  claims key := (h.claims key).trans (if_congr hperm.mem_iff rfl rfl)
  kept k := (h.kept k).trans (if_congr hperm.mem_iff rfl rfl)
  handles i := (h.handles i).trans (if_congr hperm.mem_iff rfl rfl)
  cells key k hkey hn := h.cells key k hkey fun hmem => hn (hperm.mem_iff.1 hmem)
  keys key i hkey hn := h.keys key i hkey fun hmem => hn (hperm.mem_iff.1 hmem)
  slots := h.slots
  others := h.others

section Same

variable (h : Without s os t) (h' : Without s os' t') (hperm : os.Perm os')

include h h' hperm

theorem claims_eq (key : String) : t'.thread.claims.get? key = t.thread.claims.get? key := by
  rw [h'.claims, h.claims]
  exact if_congr hperm.mem_iff.symm rfl rfl

theorem tally_eq (w : Cell → Nat) : t'.tally w = t.tally w := by
  have hothers := h'.others.trans h.others.symm
  simp only [Prod.mk.injEq] at hothers
  have hkept : t'.thread.tally w = t.thread.tally w := Table.sum_congr fun k => by
    rw [h'.kept, h.kept, if_congr hperm.mem_iff.symm rfl rfl]
  have hhandles : (t'.handles.sum fun _ => w) = t.handles.sum fun _ => w :=
    Table.sum_congr fun i => by
      rw [h'.handles, h.handles, if_congr hperm.mem_iff.symm rfl rfl]
  rw [State.tally, State.tally, hkept, hhandles, hothers.1, hothers.2.1]

theorem slots_eq (hs : Sound [] t) (hs' : Sound [] t') (id : SlotId) :
    t'.slots.get? id = t.slots.get? id := by
  have hiff : (t'.slots.get? id).isSome ↔ (t.slots.get? id).isSome := by
    rw [hs'.slot_iff, hs.slot_iff, h.tally_eq h' hperm, h.tally_eq h' hperm]
  cases hv : t.slots.get? id with
  | none =>
    rw [hv] at hiff
    exact Option.not_isSome_iff_eq_none.1 fun hsome => by cases hiff.1 hsome
  | some v =>
    rw [hv] at hiff
    obtain ⟨v', hv'⟩ := Option.isSome_iff_exists.1 (hiff.2 rfl)
    rw [hv', ← h'.slots id v' hv', h.slots id v hv]

theorem sharedCells_eq (hs : Sound [] t) (hs' : Sound [] t') : t'.sharedCells = t.sharedCells := by
  refine Table.sum_congr fun id => ?_
  have hiff : (t'.sharing.get? id).isSome ↔ (t.sharing.get? id).isSome := by
    rw [hs'.sharing_iff, hs.sharing_iff, h.tally_eq h' hperm]
  cases hv : t'.sharing.get? id <;> cases hw : t.sharing.get? id <;> simp [hv, hw] at hiff ⊢

theorem claimsOn_eq (hs : Sound [] t) (hs' : Sound [] t')
    (hh : t'.thread.hands = t.thread.hands) (x : Claim) : t'.claimsOn x = t.claimsOn x := by
  have hothers := h'.others.trans h.others.symm
  simp only [Prod.mk.injEq] at hothers
  have hslots : (t'.slots.sum fun _ v => v.owns x) = t.slots.sum fun _ v => v.owns x :=
    Table.sum_congr fun id => by rw [h.slots_eq h' hperm hs hs']
  have hclaims : (t'.thread.claims.sum fun _ o => [(⟨.counted, o⟩ : Claim)].count x) =
      t.thread.claims.sum fun _ o => [(⟨.counted, o⟩ : Claim)].count x :=
    Table.sum_congr fun key => by rw [h.claims_eq h' hperm]
  rw [State.claimsOn, State.claimsOn, Thread.claimsOn, Thread.claimsOn, hslots, hclaims, hh,
    hothers.1, hothers.2.1]

end Same

end Without

/-- Counters say all that there is to say of a kind. -/
theorem KindStats.ext_count {a b : KindStats} (h : ∀ e, (a.count e).toNat = (b.count e).toNat) :
    a = b := by
  have heq : ∀ e, a.count e = b.count e := fun e => UInt64.toNat_inj.1 (h e)
  obtain ⟨h₁, h₂, h₃, h₄, h₅, h₆⟩ := And.intro (heq .constructed) (And.intro (heq .bound)
    (And.intro (heq .released) (And.intro (heq .transferred) (And.intro (heq .unboundAccess)
      (heq .cellFreed)))))
  cases a
  cases b
  simp_all [KindStats.count]

/-- What is counted on the way can be told from the cells that are gone. -/
theorem Shed.counts_eq {t' : State} (hshed : Shed s os xs R t) (ht : Reached t)
    (hshed' : Shed s os' xs' R' t') (ht' : Reached t') (hperm : os.Perm os')
    (r : CellKind × ClaimEvent) : R'.count r = R.count r := by
  have hslots := hshed.toWithout.slots_eq hshed'.toWithout hperm ht.sound ht'.sound
  have hsharing := hshed.toWithout.sharedCells_eq hshed'.toWithout hperm ht.sound ht'.sound
  obtain ⟨k, e⟩ := r
  by_cases hreleased : e = .released
  · have hbound : t'.boundCells k = t.boundCells k := Table.sum_congr fun id => by rw [hslots]
    have h₁ := hshed.bound k
    have h₂ := hshed'.bound k
    rw [hreleased]
    omega
  by_cases hfreed : (k, e) = (.shared, .cellFreed)
  · have h₁ := hshed.shared
    have h₂ := hshed'.shared
    rw [hfreed]
    omega
  · rw [List.count_eq_zero.2 fun hmem => (hshed.only _ hmem).elim hreleased hfreed,
      List.count_eq_zero.2 fun hmem => (hshed'.only _ hmem).elim hreleased hfreed]

/-- **In whichever order owners are given up**, what is told of it afterwards is the same. -/
theorem Shed.alike {t' : State} (h : Reached s) (ht : Reached t) (ht' : Reached t')
    (hshed : Shed s os xs R t) (hshed' : Shed s os' xs' R' t') (hperm : os.Perm os')
    (hh : t'.thread.hands = t.thread.hands) : Alike t t' := by
  have hxs : xs.Perm xs' := List.perm_iff_count.2 fun o => by
    have h₁ := hshed.owned o
    have h₂ := hshed'.owned o
    rw [hshed.toWithout.claimsOn_eq hshed'.toWithout hperm ht.sound ht'.sound hh] at h₂
    omega
  refine ⟨?_, fun k => ?_, fun o => ?_⟩
  · rw [hshed.ledger, hshed'.ledger]
    exact h.reckons.running.ledger.agree_of_perm hxs
  · cases hon : s.profiler.enabled with
    | false => rw [hshed.off hon, hshed'.off hon]
    | true =>
      have hcount := hshed.counts_eq ht hshed' ht' hperm
      refine KindStats.ext_count fun e => ?_
      have h₁ := (hshed.counts hon).2 k e
      have h₂ := (hshed'.counts hon).2 k e
      rw [hcount, ← h₁] at h₂
      exact h₂
  · rw [hshed.refused, hshed'.refused, hxs.count_eq]

/-- **The order of tearing down makes no difference.** Cells, handles and claims that are given up
in two orders, while no script waits for a signal, leave the same counts behind: of the claims on
every object, of the events of every kind, and of the releases of every object that were refused. -/
theorem teardown_order_free (h : Reached s) (hq : s.Undisturbed) (hd : s.thread.nativeDepth = 0)
    {ops ops' : List Op} (hops : List.Forall₂ (Op.Drops s) ops os)
    (hops' : List.Forall₂ (Op.Drops s) ops' os') (hone : os.Nodup) (hperm : os.Perm os')
    (hroom : s.profiler.Room os.length) (n n' : Nat) :
    ∃ t t', runNested (step (n + 1)) ops s = .ok t ∧ runNested (step (n' + 1)) ops' s = .ok t' ∧
      Without s os t ∧ Without s os t' ∧ Alike t t' := by
  obtain ⟨t, xs, R, hrun, ht, hshed, hh⟩ :=
    drops_run hops hone h hq hd (hops.length_eq ▸ hroom) n
  obtain ⟨t', xs', R', hrun', ht', hshed', hh'⟩ :=
    drops_run hops' (hperm.nodup_iff.1 hone) h hq hd (hops'.length_eq ▸ hperm.length_eq ▸ hroom) n'
  refine ⟨t, t', hrun, hrun', hshed.toWithout, hshed'.toWithout.of_perm hperm.symm,
    hshed.alike h ht ht' hshed' hperm (hh'.trans hh.symm)⟩

/-- A claim that was never acquired, on an object with another one, in a cell with two handles. -/
theorem teardown_order_free_misused : ∃ s t t' : State,
    runNested (step 1) [.object (.dropClaim "a"), .cell (.drop "c"), .cell (.drop "d")] s = .ok t ∧
    runNested (step 1) [.cell (.drop "d"), .cell (.release "c"), .object (.dropClaim "a")] s =
      .ok t' ∧ Alike t t' := by
  have h0 : Reached (.start .plain true {} none) := .start _ _ _ _
  have h1 := h0.ended (show step 1 (.object (.allocate (some "a"))) _ = .ended _ _ from rfl)
  have h2 := h1.ended (show step 1 (.object (.claim 1 false "b")) _ = .ended _ _ from rfl)
  have h3 := h2.ended
    (show step 1 (.cell (.make "c" (.shared "x" (some "b")))) _ = .ended _ _ from rfl)
  have h4 := h3.ended (show step 1 (.cell (.use "c" false (.retain "d"))) _ = .ended _ _ from rfl)
  obtain ⟨s, hs, h⟩ : ∃ s, s = _ ∧ Reached s := ⟨_, rfl, h4⟩
  have hdrops : List.Forall₂ (Op.Drops s)
      [.object (.dropClaim "a"), .cell (.drop "c"), .cell (.drop "d")]
      [.claim "a", .cell 1, .cell 2] :=
    .cons (.claim (o := 1) (hs ▸ rfl))
      (.cons (.cell (e := { cell := .handle 0 .locally }) (hs ▸ rfl) (hs ▸ rfl) rfl)
        (.cons (.cell (e := { cell := .handle 0 .free }) (hs ▸ rfl) (hs ▸ rfl) rfl) .nil))
  have hdrops' : List.Forall₂ (Op.Drops s)
      [.cell (.drop "d"), .cell (.release "c"), .object (.dropClaim "a")]
      [.cell 2, .cell 1, .claim "a"] :=
    .cons (.cell (e := { cell := .handle 0 .free }) (hs ▸ rfl) (hs ▸ rfl) rfl)
      (.cons (.release (e := { cell := .handle 0 .locally }) (hs ▸ rfl) (hs ▸ rfl) rfl rfl)
        (.cons (.claim (o := 1) (hs ▸ rfl)) .nil))
  obtain ⟨t, t', hrun, hrun', -, -, halike⟩ := teardown_order_free h
    (hs ▸ fun ⟨r, _, _⟩ => by cases r <;> rfl) (hs ▸ rfl) hdrops hdrops' (by decide) (by decide)
    (hs ▸ fun _ k e => by cases k <;> cases e <;> decide) 0 0
  exact ⟨s, t, t', hrun, hrun', halike⟩

end ClaimCells
