import ClaimCells.Proofs.Classes

/-!
# Locks

A read of a claim holds the lock of its cell while it acquires, and nothing else holds a lock. So
the locks that are held are those of the reads in progress (`State.Locked`), and while they are, no
variable behind them changes (`Held`).

`Act.Holds` says so of a course: it knows of the locks that were held when it began, and of the one
that it holds itself at a signal.

Main results: `Cellular.holds`, `course_holds` and `step_held`, and `Amid.locked`, which tells the
locks that are held in every state that a run comes to.
-/

namespace ClaimCells

open Act (Outcome)

variable {α β : Type} {s s' t u : State} {L M : List SlotId} {id : SlotId} {R : Prop}
  {W : Signal → List SlotId}

/-! ## Held locks -/

/-- The locks that are held are those of the cells in the list, each as often as it is there. -/
structure State.Locked (s : State) (L : List SlotId) : Prop where
  count : ∀ id sh, s.sharing.get? id = some sh → sh.readers = L.count id
  known : ∀ id sh, s.sharing.get? id = some sh → id < s.next
  young : ∀ id ∈ L, id < s.next

/-- No cell is shared that was not. -/
structure Since (s t : State) : Prop where
  next : s.next ≤ t.next
  unshared : ∀ id, id < s.next → s.sharing.get? id = none → t.sharing.get? id = none

/-- And the variables of the cells in the list are as they were, while these are shared. -/
structure Held (L : List SlotId) (s t : State) : Prop extends Since s t where
  fixed : ∀ id ∈ L, id < s.next → ∀ sh v, t.sharing.get? id = some sh →
    t.slots.get? id = some v → s.slots.get? id = some v

theorem Since.refl (s : State) : Since s s :=
  ⟨Nat.le_refl _, fun _ _ h => h⟩

theorem Since.trans (h : Since s t) (h' : Since t u) : Since s u :=
  ⟨h.next.trans h'.next, fun id hid hn => h'.unshared id (hid.trans_le h.next) (h.unshared id hid hn)⟩

namespace Held

theorem refl (s : State) : Held L s s :=
  ⟨.refl s, fun _ _ _ _ _ _ h => h⟩

theorem trans (h : Held L s t) (h' : Held L t u) : Held L s u := by
  refine ⟨h.toSince.trans h'.toSince, fun id hid hlt sh v hsh hv => ?_⟩
  have hlt' := hlt.trans_le h.next
  have hv' := h'.fixed id hid hlt' sh v hsh hv
  cases hsh' : t.sharing.get? id with
  | none => exact nomatch (h'.unshared id hlt' hsh').symm.trans hsh
  | some sh' => exact h.fixed id hid hlt sh' v hsh' hv'

theorem sub (h : Held M s t) (hL : ∀ id ∈ L, id ∈ M) : Held L s t :=
  ⟨h.toSince, fun id hid => h.fixed id (hL id hid)⟩

end Held

/-- Steps that leave the shared cells alone. -/
theorem Held.same (h : (t.slots, t.sharing, t.next) = (s.slots, s.sharing, s.next)) : Held L s t := by
  simp only [Prod.mk.injEq] at h
  refine ⟨⟨h.2.2.ge, fun id _ hn => by rw [h.2.1]; exact hn⟩, fun id _ _ sh v _ hv => ?_⟩
  rw [← h.1]
  exact hv

theorem State.Locked.same (h : s.Locked L) (ht : (t.sharing, t.next) = (s.sharing, s.next)) :
    t.Locked L := by
  simp only [Prod.mk.injEq] at ht
  exact ⟨fun id sh hsh => h.count id sh (ht.1 ▸ hsh), fun id sh hsh => by
    rw [ht.2]
    exact h.known id sh (ht.1 ▸ hsh), fun id hid => by rw [ht.2]; exact h.young id hid⟩

theorem Change.locked {w : SlotId → Prop} {f : State → State} (hf : Change w f) (hs : s.Locked L) :
    (f s).Locked L := by
  refine ⟨fun id sh' h => ?_, fun id sh' h => ?_, fun id hid => (hs.young id hid).trans_le (hf.next s)⟩
  · obtain ⟨sh, hsh, heq⟩ := hf.readers s id sh' h
    rw [heq, hs.count id sh hsh]
  · obtain ⟨sh, hsh, -⟩ := hf.readers s id sh' h
    exact (hs.known id sh hsh).trans_le (hf.next s)

theorem Change.held {w : SlotId → Prop} {f : State → State} (hf : Change w f) (hs : s.Locked L)
    (hw : ∀ id ∈ L, w id → s.sharing.get? id = none) : (f s).Locked L ∧ Held L s (f s) := by
  have hback : ∀ id, s.sharing.get? id = none → (f s).sharing.get? id = none := fun id hn => by
    cases h : (f s).sharing.get? id with
    | none => rfl
    | some sh' =>
      obtain ⟨sh, hsh, -⟩ := hf.readers s id sh' h
      exact nomatch hn.symm.trans hsh
  refine ⟨hf.locked hs, ⟨hf.next s, fun id _ => hback id⟩, fun id hid _ sh v hsh hv => ?_⟩
  refine (hf.slots s id v hv).resolve_right fun hwr => ?_
  exact nomatch (hback id (hw id hid hwr)).symm.trans hsh

/-! ## Courses under locks -/

/-- Between signals the course leaves the locks `L` held and the variables behind them alone. At a
signal it may hold more of them, which `W` tells, and it goes on from any state in which that is
respected. A lock refuses it only if `R` holds. -/
def Act.Holds (R : Prop) (W : Signal → List SlotId) (L : List SlotId) : State → Act α → Prop
  | s, done _ t => t.Locked L ∧ Held L s t
  | s, fail f t => (t.Locked L ∧ Held L s t) ∧ (f = .panic .relocked → R)
  | _, halt h _ => h = .fatal .relocked → R
  | s, send g t next => (t.Locked (W g ++ L) ∧ Held L s t) ∧
      ∀ t', t'.Locked (W g ++ L) → Held (W g ++ L) t t' → Holds R W L t' (next t')

namespace Act.Holds

variable {x : Act α}

theorem blocked : (halt .blocked t : Act α).Holds R W L s := by
  intro h
  cases h

theorem before (hs : Held L s t) (h : x.Holds R W L t) : x.Holds R W L s := by
  cases x with
  | done => exact ⟨h.1, hs.trans h.2⟩
  | fail => exact ⟨⟨h.1.1, hs.trans h.1.2⟩, h.2⟩
  | halt => exact h
  | send => exact ⟨⟨h.1.1, hs.trans h.1.2⟩, h.2⟩

theorem bind {k : α → State → Act β} (h : x.Holds R W L s)
    (hk : ∀ a t, t.Locked L → Since s t → (k a t).Holds R W L t) : (x.bind k).Holds R W L s := by
  induction x generalizing s with
  | done a t => exact before h.2 (hk a t h.1 h.2.toSince)
  | fail | halt => exact h
  | send g t next ih =>
    exact ⟨h.1, fun t' ht' hh => ih t' (h.2 t' ht' hh) fun a u hu hsu =>
      hk a u hu (h.1.2.toSince.trans (hh.toSince.trans hsu))⟩

theorem tried {k : Except Failure α → State → Act β} (h : x.Holds R W L s)
    (hk : ∀ r, (∀ f, r = .error f → f = .panic .relocked → R) → ∀ t, t.Locked L → Since s t →
      (k r t).Holds R W L t) : (x.attempt.bind k).Holds R W L s := by
  induction x generalizing s with
  | done a t => exact before h.2 (hk (.ok a) nofun t h.1 h.2.toSince)
  | fail f t =>
    exact before h.1.2 (hk (.error f) (fun f' he => by cases he; exact h.2) t h.1.1 h.1.2.toSince)
  | halt => exact h
  | send g t next ih =>
    exact ⟨h.1, fun t' ht' hh => ih t' (h.2 t' ht' hh) fun r hr u hu hsu =>
      hk r hr u hu (h.1.2.toSince.trans (hh.toSince.trans hsu))⟩

end Act.Holds

/-- The course is at its end. -/
def Act.Over : Act α → Prop
  | send .. => False
  | _ => True

namespace Action

variable {S : Scope}

theorem raise_holds {p : Panic} (hs : s.Locked L) (hp : p = .relocked → R) :
    (raise p s : Act α).Holds R W L s := by
  simp only [raise, bind_apply, thread_apply, done_bind, ite_apply]
  split
  · exact ⟨⟨hs, .refl s⟩, fun h => hp (Failure.panic.inj h)⟩
  · exact fun h => hp (Halt.fatal.inj h)

theorem lockForReading_holds (hs : s.Locked L) (id : SlotId) :
    (lockForReading id s).Holds R W L s := by
  cases hsh : s.sharing.get? id with
  | none =>
    rw [lockForReading, bind_apply, sharing_none hsh]
    exact ⟨⟨hs, .refl s⟩, by simp⟩
  | some sh =>
    simp only [lockForReading, bind_apply, sharing_some hsh, done_bind, get_apply, ite_apply]
    split
    · exact .blocked
    · exact ⟨hs, .refl s⟩

/-- With the lock of a cell, that is, when nobody else holds it. -/
theorem locking_holds (hs : s.Locked L) {k : Action α} (hR : id ∈ L → R)
    (hk : id ∉ L → (k s).Holds R W L s) :
    ((lockForChange id s).bind fun _ => k).Holds R W L s := by
  cases hsh : s.sharing.get? id with
  | none =>
    rw [lockForChange, bind_apply, sharing_none hsh]
    exact ⟨⟨hs, .refl s⟩, by simp⟩
  | some sh =>
    simp only [lockForChange, bind_apply, sharing_some hsh, done_bind, ite_apply]
    split
    · next hread =>
      have hid : id ∈ L := by
        rw [hs.count id sh hsh] at hread
        exact List.count_pos_iff.1 (Nat.pos_of_ne_zero hread)
      simp only [get_apply, done_bind]
      cases s.build.mode with
      | plain =>
        show ((raise .relocked s : Act Unit).bind fun _ => k).Holds R W L s
        rw [raise_bind]
        exact raise_holds hs fun _ => hR hid
      | atomic => exact .blocked
    · next hread =>
      refine hk fun hid => hread ?_
      rw [hs.count id sh hsh]
      exact (List.count_pos_iff.2 hid).ne'

section Making

variable {realm : Realm} {kind : CellKind} {name : String} {value : Option ObjectId}

/-- A new variable is behind no lock that is held. -/
theorem made_held {v : Slot} {p : Profiler} (hs : s.Locked L) :
    (s.made v p).Locked L ∧ Held L s (s.made v p) := by
  have hslots : (s.made v p).slots = s.slots.insert s.next v := rfl
  refine ⟨⟨hs.count, fun id sh h => Nat.lt_succ_of_lt (hs.known id sh h),
    fun id hid => Nat.lt_succ_of_lt (hs.young id hid)⟩, ⟨Nat.le_succ _, fun _ _ h => h⟩, ?_⟩
  intro id _ hlt _ w _ hw
  rwa [hslots, Table.get?_insert, if_neg (Nat.ne_of_lt hlt)] at hw

theorem overflow_holds (hs : s.Locked L) (p : Profiler) :
    (raise .overflow { s with profiler := p } : Act α).Holds R W L s := by
  have hp : State.Locked { s with profiler := p } L := hs.same rfl
  exact .before (t := { s with profiler := p }) (.same rfl) (raise_holds hp nofun)

theorem makeSlot_holds (hs : s.Locked L) : (makeSlot realm kind name value s).Holds R W L s := by
  cases hp : s.profiler.recordMade kind value.isSome with
  | none =>
    obtain ⟨p, hfull⟩ := makeSlot_full hp
    rw [hfull]
    exact overflow_holds hs p
  | some p =>
    rw [makeSlot_some hp]
    exact made_held hs

theorem makeShared_holds (hs : s.Locked L) : (makeShared realm name value s).Holds R W L s := by
  cases hp : s.profiler.recordMade .shared value.isSome with
  | none =>
    obtain ⟨p, hfull⟩ := makeSlot_full hp
    rw [makeShared, bind_apply, hfull, raise_bind]
    exact overflow_holds hs p
  | some p =>
    rw [makeShared_some hp]
    obtain ⟨hlocked, hheld⟩ := made_held (v := ⟨realm, .shared, name, value⟩) (p := p) hs
    generalize hm : s.made ⟨realm, .shared, name, value⟩ p = m at hlocked hheld
    have hnext : m.next = s.next + 1 := hm ▸ rfl
    have hsharing : (m.shared s.next).sharing = m.sharing.insert s.next { handles := 1 } := rfl
    refine ⟨⟨fun id sh h => ?_, fun id sh h => ?_, hlocked.young⟩,
      ⟨hheld.next, fun id hlt hn => ?_⟩, fun id hid hlt sh v h hv => ?_⟩
    · rw [hsharing, Table.get?_insert] at h
      split at h
      · next heq =>
        cases h
        refine (List.count_eq_zero.2 fun hid => ?_).symm
        exact absurd (hs.young id hid) (heq ▸ Nat.lt_irrefl _)
      · exact hlocked.count id sh h
    · rw [hsharing, Table.get?_insert] at h
      split at h
      · next heq =>
        show id < m.next
        rw [hnext, heq]
        exact Nat.lt_succ_self _
      · exact hlocked.known id sh h
    · rw [hsharing, Table.get?_insert, if_neg (Nat.ne_of_lt hlt)]
      exact hheld.unshared id hlt hn
    · rw [hsharing, Table.get?_insert, if_neg (Nat.ne_of_lt hlt)] at h
      exact hheld.fixed id hid hlt sh v h hv

end Making

/-- **Cellular actions leave held locks, and the variables behind them, alone.** -/
theorem Cellular.holds {a : Action α} (h : Cellular S a)
    (hW : ∀ g, (g.moment = .acquired → S.gains) → W g = [])
    (hc : ∀ id ∈ L, S.changes id → S.refuses)
    (hr : S.reads → ∀ id access s, S.looks id → s.Locked L →
      (Action.readOwned (.handle id access) s).Holds S.refuses W L s)
    (hs : s.Locked L) (hw : ∀ id ∈ L, S.writes id → s.sharing.get? id = none) :
    (a s).Holds S.refuses W L s := by
  have hlater : ∀ {S : Scope} {s t : State}, s.Locked L → Since s t →
      (∀ id ∈ L, S.writes id → s.sharing.get? id = none) →
      ∀ id ∈ L, S.writes id → t.sharing.get? id = none :=
    fun hs hst hw id hid hwr => hst.unshared id (hs.young id hid) (hw id hid hwr)
  induction h generalizing s with
  | pure => exact ⟨hs, .refl s⟩
  | fail f hf => exact ⟨⟨hs, .refl s⟩, hf⟩
  | halt h hh => exact fun he => hh _ he rfl
  | send g hg =>
    have hnone := hW g hg
    refine ⟨⟨by rwa [hnone], .refl s⟩, fun t ht _ => ⟨by rwa [hnone] at ht, .refl t⟩⟩
  | read _ _ _ ih => exact ih s hW hc hr hs hw
  | moved ha hf =>
    rw [ha]
    exact hf.held hs hw
  | lookClaim _ _ ih => exact ih s.thread hW hc hr hs hw
  | eraseClaim key =>
    exact Change.held (f := fun s => s.inThread fun t => { t with claims := t.claims.erase key })
      (.same fun _ => rfl) hs hw
  | insertClaim key o =>
    exact Change.held (f := fun s => s.inThread fun t => { t with claims := t.claims.insert key o })
      (.same fun _ => rfl) hs hw
  | piece _ _ ih => exact ih hW hc hr hs hw
  | lockForReading id => exact lockForReading_holds hs id
  | lockForChange id hid _ ih =>
    refine locking_holds hs (fun hmem => hc id hmem hid) fun hmem => ?_
    refine ih hW hc hr hs fun i hi hwr => hwr.elim (hw i hi) fun heq => ?_
    exact absurd (heq ▸ hi) hmem
  | readOwned id access hreads hl => exact hr hreads id access s hl hs
  | makeSlot => exact makeSlot_holds hs
  | makeShared => exact makeShared_holds hs
  | bind _ _ ih ihk =>
    exact .bind (ih hW hc hr hs hw) fun x t ht hst => ihk x hW hc hr ht (hlater hs hst hw)
  | tried _ _ ih ihk =>
    exact .tried (ih hW hc hr hs hw) fun r hres t ht hst =>
      ihk r hres hW hc hr ht (hlater hs hst hw)

/-! ## Reading a claim -/

theorem lock_taken {sh : Sharing} (hs : s.Locked L) (hsh : s.sharing.get? id = some sh) :
    State.Locked { s with sharing := s.sharing.modify id fun c => { c with readers := c.readers + 1 } }
      (id :: L) := by
  refine ⟨fun i sh' h => ?_, fun i sh' h => ?_, fun i hi => ?_⟩
  · change (s.sharing.modify id _).get? i = _ at h
    rw [Table.get?_modify] at h
    split at h
    · next hi =>
      obtain ⟨sh₀, hsh₀, rfl⟩ := Option.map_eq_some_iff.1 h
      rw [hi, List.count_cons_self, hs.count id sh₀ hsh₀]
    · next hi => rw [List.count_cons_of_ne (Ne.symm hi), hs.count i sh' h]
  · change (s.sharing.modify id _).get? i = _ at h
    rw [Table.get?_modify] at h
    split at h
    · next hi =>
      obtain ⟨sh₀, hsh₀, rfl⟩ := Option.map_eq_some_iff.1 h
      exact hi ▸ hs.known id sh₀ hsh₀
    · exact hs.known i sh' h
  · rcases List.mem_cons.1 hi with rfl | hi
    · exact hs.known i sh hsh
    · exact hs.young i hi

theorem lock_given (hs : s.Locked (id :: L)) :
    State.Locked { s with sharing := s.sharing.modify id fun c => { c with readers := c.readers - 1 } }
      L := by
  refine ⟨fun i sh' h => ?_, fun i sh' h => ?_, fun i hi => hs.young i (List.mem_cons_of_mem _ hi)⟩
  · change (s.sharing.modify id _).get? i = _ at h
    rw [Table.get?_modify] at h
    split at h
    · next hi =>
      obtain ⟨sh₀, hsh₀, rfl⟩ := Option.map_eq_some_iff.1 h
      have hcount := hs.count id sh₀ hsh₀
      rw [List.count_cons_self] at hcount
      show sh₀.readers - 1 = L.count i
      rw [hi, hcount, Nat.add_sub_cancel]
    · next hi => rw [hs.count i sh' h, List.count_cons_of_ne (Ne.symm hi)]
  · change (s.sharing.modify id _).get? i = _ at h
    rw [Table.get?_modify] at h
    split at h
    · next hi =>
      obtain ⟨sh₀, hsh₀, rfl⟩ := Option.map_eq_some_iff.1 h
      exact hi ▸ hs.known id sh₀ hsh₀
    · exact hs.known i sh' h

/-- Taking and giving back a lock changes no variable. -/
theorem readers_held (id : SlotId) (f : Sharing → Sharing) :
    Held L s { s with sharing := s.sharing.modify id f } := by
  refine ⟨⟨Nat.le_refl _, fun i _ hn => ?_⟩, fun _ _ _ _ _ _ h => h⟩
  show (s.sharing.modify id f).get? i = none
  rw [Table.get?_modify]
  split
  · next hi => rw [← hi, hn, Option.map_none]
  · exact hn

/-- The object in a cell, with one more claim on it that is not yet told of. -/
def gainValue (c : Cell) : Action Claim := do
  let v ← slot c.slot
  let o ← valueIn c v
  gain ⟨v.realm, o⟩
  return ⟨v.realm, o⟩

theorem acquireValue_eq (c : Cell) : acquireValue c = gainValue c >>= fun claim =>
    send ⟨claim.realm, .acquired, claim.object⟩ >>= fun _ => pure claim := by
  simp only [acquireValue, gainValue, acquire, bind_assoc, pure_bind]

theorem gainValue_cellular (h : S.gains) (c : Cell) : Cellular S (gainValue c) :=
  .bind (slot_cellular _) fun _ => .bind (valueIn_cellular _ _) fun _ =>
    .bind (gain_cellular h _) fun _ => .pure _

/-- The action sends no signal. -/
def Swift (a : Action α) : Prop :=
  ∀ s, (a s).Over

namespace Swift

theorem pure (a : α) : Swift (pure a) := fun _ => trivial

theorem fail (f : Failure) : Swift (fail f : Action α) := fun _ => trivial

theorem bind {a : Action α} {k : α → Action β} (ha : Swift a) (hk : ∀ x, Swift (k x)) :
    Swift (a >>= k) := by
  intro s
  have h := ha s
  rw [bind_apply]
  cases hx : a s with
  | done x t => exact hk x t
  | fail | halt => trivial
  | send g t next => rw [hx] at h; exact h.elim

theorem read {k : State → Action α} (hk : ∀ s, Swift (k s)) : Swift (get >>= k) :=
  fun s => hk s s

theorem demand (f : Failure) : ∀ a : Option α, Swift (demand f a)
  | some a => pure a
  | none => fail f

theorem raise (p : Panic) : Swift (raise p : Action α) := by
  refine read (k := fun s => if s.thread.nativeDepth = 0 then _ else _) fun s => ?_
  split
  · exact fail _
  · exact fun _ => trivial

theorem violate (i : Invariant) : Swift (violate i : Action α) :=
  bind (fun _ => trivial) fun _ => raise _

theorem slot (id : SlotId) : Swift (slot id) :=
  read fun _ => demand _ _

theorem record (k : CellKind) (e : ClaimEvent) : Swift (record k e) := by
  refine read fun s => bind ?_ fun _ _ => trivial
  cases s.profiler.record k e with
  | some p => exact pure p
  | none => exact raise _

theorem valueIn (c : Cell) (v : Slot) : Swift (valueIn c v) := by
  have hlacks : Swift (Action.record v.kind .unboundAccess >>= fun _ =>
      (unboundError c : Action ObjectId)) :=
    bind (record _ _) fun _ => bind (slot _) fun _ => fail _
  unfold Action.valueIn
  split
  · exact pure _
  · exact violate _
  · exact hlacks

theorem gain (c : Claim) : Swift (gain c) := by
  obtain ⟨realm, o⟩ := c
  cases realm with
  | counted =>
    refine bind (fun _ => trivial) fun t => bind ?_ fun _ _ => trivial
    cases t.ledger.acquire o with
    | ok l => exact fun _ => trivial
    | error m => exact bind (fun _ => trivial) fun _ => raise _
  | native =>
    refine bind (read fun s => ?_) fun _ _ => trivial
    split
    · exact pure _
    · exact violate _

theorem gainValue (c : Cell) : Swift (gainValue c) :=
  bind (slot _) fun _ => bind (valueIn _ _) fun _ => bind (gain _) fun _ => pure _

end Swift

/-- A scope in which nothing is allowed but to acquire claims. -/
def gaining : Scope where
  keys := False
  gains := True
  reads := False
  looks _ := False
  changes _ := False
  writes _ := False
  refuses := False
  loose := False
  dumps := False
  setup := False
  outer _ _ := False

/-- What follows the acquiring gives the lock back. -/
theorem given_holds (r : Except Failure α) (hs : s.Locked (id :: L))
    (hr : ∀ f, r = .error f → f = .panic .relocked → R) :
    ((setSharing id (fun c => { c with readers := c.readers - 1 }) >>= fun _ =>
      ofExcept r) s).Holds R W L s := by
  have hlocked := lock_given hs
  have hheld : Held L s _ := readers_held id fun c => { c with readers := c.readers - 1 }
  cases r with
  | ok a => exact ⟨hlocked, hheld⟩
  | error f => exact ⟨⟨hlocked, hheld⟩, hr f rfl⟩

/-- The lock of a shared cell can be had for reading, unless somebody waits for himself. -/
theorem reading_some {sh : Sharing} (hsh : s.sharing.get? id = some sh) (a : Action α) :
    reading id a s = .halt .blocked s ∨
      reading id a s = (attempt a >>= fun r =>
        setSharing id (fun c => { c with readers := c.readers - 1 }) >>= fun _ => ofExcept r)
          { s with sharing := s.sharing.modify id fun c => { c with readers := c.readers + 1 } } := by
  simp only [reading, lockForReading, bind_apply, sharing_some hsh, done_bind, get_apply, ite_apply]
  split
  · exact .inl rfl
  · exact .inr rfl

/-- **A read of a claim holds the lock of its cell while it acquires**, and at no other time. -/
theorem readOwned_holds (access : Access) (hs : s.Locked L)
    (hW : ∀ g, g.moment = .acquired → W g = [id]) :
    (readOwned (.handle id access) s).Holds R W L s := by
  cases hsh : s.sharing.get? id with
  | none =>
    show ((lockForReading id s).bind _).Holds R W L s
    rw [lockForReading, bind_apply, sharing_none hsh]
    exact ⟨⟨hs, .refl s⟩, by simp⟩
  | some sh =>
    rw [readOwned]
    obtain h | h := reading_some hsh (acquireValue (.handle id access))
    · rw [h]
      exact .blocked
    rw [h, acquireValue_eq, bind_apply, attempt_apply, bind_apply]
    have hu := lock_taken hs hsh
    refine .before (readers_held id fun c => { c with readers := c.readers + 1 }) ?_
    generalize { s with sharing := _ } = u at hu ⊢
    -- what comes before the signal is done with the lock held
    have hgain : (gainValue (.handle id access) u).Holds False (fun _ => []) (id :: L) u :=
      (gainValue_cellular (S := gaining) trivial _).holds (fun _ _ => rfl) (fun _ _ => False.elim)
        False.elim hu fun _ _ => False.elim
    have hover := Swift.gainValue (.handle id access) u
    cases hx : gainValue (.handle id access) u with
    | done claim t =>
      rw [hx] at hgain
      have hset : W ⟨claim.realm, .acquired, claim.object⟩ = [id] := hW _ rfl
      refine ⟨⟨by rw [hset]; exact hgain.1, hgain.2.sub fun _ => List.mem_cons_of_mem _⟩, ?_⟩
      intro t' ht' _
      rw [hset] at ht'
      exact given_holds (.ok claim) ht' (by simp)
    | fail f t =>
      rw [hx] at hgain
      exact .before (hgain.1.2.sub fun _ => List.mem_cons_of_mem _)
        (given_holds (.error f) hgain.1.1 fun f' he hf => (hgain.2 (by cases he; exact hf)).elim)
    | halt p t =>
      rw [hx] at hgain
      exact fun hp => (hgain hp).elim
    | send => rw [hx] at hover; exact hover.elim

end Action

/-! ## Operations -/

/-- The slot of a shared cell. -/
def Cell.shared? : Cell → Option SlotId
  | .own .. => none
  | .handle id _ => some id

namespace Op

/-- The shared cell that the operation reads a claim from. -/
def reading? (s : State) : Op → Option SlotId
  | .cell (.use key _ (.readOwned _)) => (s.cellOf key).bind Cell.shared?
  | .native (.readOwned h) => (s.behind h).bind Cell.shared?
  | _ => none

/-- The lock that the operation holds at a signal: that of the cell from which it reads, while it
acquires. -/
def window (op : Op) (s : State) (g : Signal) : List SlotId :=
  if g.moment = .acquired then (op.reading? s).toList else []

/-- The operation changes the variable of a shared cell. -/
def ChangesShared (op : Op) (s : State) (id : SlotId) : Prop :=
  op.Changes ∧ (op.cell? s).bind Cell.shared? = some id

/-- What the operation may do in this state. Locks may refuse it if `R` holds. -/
def scope (op : Op) (s : State) (R : Prop) : Scope where
  keys := True
  gains := op.reading? s = none
  reads := (op.reading? s).isSome
  looks id := ∀ i, op.reading? s = some i → i = id
  changes id := op.ChangesShared s id
  writes id := ∃ f, op.cell? s = some (.own f id)
  refuses := R
  loose := False
  dumps := True
  setup := True
  outer _ _ := True

variable {op : Op}

theorem reading?_eq_none (h : ¬ op.ReadsOwned) : op.reading? s = none := by
  cases op with
  | cell op =>
    cases op with
    | use key bound verb =>
      cases verb with
      | readOwned => exact absurd trivial h
      | _ => rfl
    | _ => rfl
  | native op =>
    cases op with
    | readOwned => exact absurd trivial h
    | _ => rfl
  | _ => rfl

theorem window_eq_nil (h : ¬ op.ReadsOwned) (g : Signal) : op.window s g = [] := by
  rw [window, reading?_eq_none h]
  split <;> rfl

theorem reading?_eq (h : op.ReadsOwned) : op.reading? s = (op.cell? s).bind Cell.shared? := by
  cases op with
  | cell op =>
    cases op with
    | use key bound verb =>
      cases verb with
      | readOwned => rfl
      | _ => cases h
    | _ => cases h
  | native op =>
    cases op with
    | readOwned => rfl
    | _ => cases h
  | _ => cases h

end Op

namespace Op

theorem Acquires.not_reads {op : Op} (h : op.Acquires) : ¬ op.ReadsOwned := by
  cases op with
  | cell op =>
    cases op with
    | use _ _ verb => cases verb <;> first | exact id | exact False.elim h
    | _ => exact id
  | native op => cases op <;> first | exact id | exact False.elim h
  | _ => exact id

theorem Looks.not_reads {op : Op} (h : op.Looks) : ¬ op.ReadsOwned := by
  cases op with
  | cell op =>
    cases op with
    | use _ _ verb => cases verb <;> first | exact id | exact False.elim h
    | _ => exact id
  | native op => cases op <;> first | exact id | exact False.elim h
  | _ => exact id

end Op

theorem perform_scope (op : Op) (s : State) (R : Prop) :
    Action.Cellular.At (op.scope s R) (perform op) s := by
  have hlooks : ¬ op.ReadsOwned → ∀ id, (op.scope s R).looks id := fun h id i hi => by
    rw [Op.reading?_eq_none h] at hi
    cases hi
  refine Action.perform_at trivial (fun _ _ _ => trivial)
    (fun _ => ⟨fun _ _ _ => trivial, fun _ _ => trivial⟩)
    (fun _ => ⟨trivial, fun _ _ _ => trivial⟩) (fun _ _ _ _ => trivial)
    (fun h => Op.reading?_eq_none h.not_reads) (fun h c hc => ?_) (fun h c hc => ?_)
    (fun h c hc => ?_) fun h => ⟨trivial, hlooks (h ▸ id)⟩
  · have hr : op.reading? s = c.shared? := by rw [Op.reading?_eq h, hc, Option.bind_some]
    cases c with
    | own => exact hr
    | handle id a => exact ⟨by show (op.reading? s).isSome; rw [hr]; rfl, fun i hi => by
        rw [hr] at hi
        exact (Option.some.inj hi).symm⟩
  · cases c with
    | own => trivial
    | handle id a => exact hlooks h.not_reads id
  · cases c with
    | own f id => exact ⟨f, hc⟩
    | handle id a => exact ⟨h, by rw [hc]; rfl⟩

/-- The cell that an operation uses has a key. -/
theorem le_tally_cell {op : Op} {c : Cell} (h : op.cell? s = some c) (w : Cell → Nat) :
    w c ≤ s.tally w := by
  cases op with
  | cell op =>
    cases op with
    | use key =>
      obtain ⟨e, he, rfl⟩ := Option.map_eq_some_iff.1 h
      obtain ⟨k, -, hk⟩ := Option.bind_eq_some_iff.1 he
      exact le_tally_kept hk w
    | _ => cases h
  | native op =>
    obtain ⟨h', -, hb⟩ := Option.bind_eq_some_iff.1 h
    obtain ⟨key, -, hkey⟩ := Option.bind_eq_some_iff.1 hb
    obtain ⟨i, -, hi⟩ := Option.bind_eq_some_iff.1 hkey
    exact le_tally_handle hi w
  | _ => cases h

/-- A cell with a slot of its own is not shared. -/
theorem Sound.own_unshared {op : Op} {f : Form} (hs : Sound [] s)
    (h : op.cell? s = some (.own f id)) : s.sharing.get? id = none := by
  have h1 := le_tally_cell h (Cell.owns id)
  have h2 := hs.owners id
  rw [Cell.owns_own, if_pos rfl] at h1
  split at h2
  · next hs => exact hs.2
  · omega

/-- **What an operation does to locks.** -/
theorem course_holds {op : Op} (hs : Sound [] s) (hl : s.Locked L)
    (hR : ∀ id ∈ L, op.ChangesShared s id → R) : (op.course s).Holds R (op.window s) L s := by
  obtain ⟨b, hb, hcell⟩ := Action.unwinding_at (perform_scope op s R)
  show (Action.unwinding (perform op) s).Holds R (op.window s) L s
  rw [hb s rfl]
  refine hcell.holds (fun g hg => ?_) hR (fun hr id access u hlooks hu => ?_) hl fun id _ => ?_
  · by_cases ha : g.moment = .acquired
    · have hnone : op.reading? s = none := hg ha
      rw [Op.window, hnone]
      split <;> rfl
    · exact if_neg ha
  · obtain ⟨i, hi⟩ := Option.isSome_iff_exists.1 hr
    refine Action.readOwned_holds access hu fun g hg => ?_
    rw [Op.window, if_pos hg, hi, hlooks i hi, Option.toList_some]
  · rintro ⟨f, hf⟩
    exact hs.own_unshared hf

/-! ## Runs -/

/-- Scripts leave held locks, and the variables behind them, alone. -/
def SparesLocks (react : Signal → State → Except (Halt × State) State) : Prop :=
  ∀ L g s s', Sound [] s → s.Locked L → react g s = .ok s' → s'.Locked L ∧ Held L s s'

/-- And so do operations. -/
def StepSparesLocks (step : Op → State → Outcome Answer) : Prop :=
  ∀ L op s r s', Sound [] s → s.Locked L → step op s = .ended r s' → s'.Locked L ∧ Held L s s'

section Settling

variable {react : Signal → State → Except (Halt × State) State} {x : Act α} {Q : Post α}
  {l : List Cell} {ds : List Deed} {res : Except Failure α} {g : Signal}

theorem Act.Holds.ended (hx : x.Holds R W L s) (hr : Lawful react) (hk : SparesLocks react)
    (hs : Sound l s) (h : x.Does Q ds l s) (he : x.settle react = .ended res s') :
    (s'.Locked L ∧ Held L s s') ∧ (res = .error (.panic .relocked) → R) := by
  induction x generalizing ds l s with
  | done a t =>
    cases he
    exact ⟨hx, nofun⟩
  | fail f t =>
    cases he
    exact ⟨hx.1, fun h => hx.2 (Except.error.inj h)⟩
  | halt => cases he
  | send g t next ih =>
    obtain ⟨ds', m, hn⟩ := h
    rw [Act.settle] at he
    split at he
    · next t' ht' =>
      have ht := m.sound hs
      obtain ⟨hc, hs'⟩ := hr g t t' ht ht'
      obtain ⟨hlocked, hheld⟩ := hk _ g t t' ht hx.1.1 ht'
      obtain ⟨⟨hl, hh⟩, href⟩ := ih t' (hx.2 t' hlocked hheld) hs' (hn t' hc hs') he
      exact ⟨⟨hl, hx.1.2.trans ((hheld.sub fun _ => List.mem_append_right _).trans hh)⟩, href⟩
    · cases he

/-- At a signal the course holds what it says that it does. -/
theorem Act.Holds.sends (hx : x.Holds R W L s) (hr : Lawful react) (hk : SparesLocks react)
    (hs : Sound l s) (h : x.Does Q ds l s) (hg : x.Sends react g t) : t.Locked (W g ++ L) := by
  induction hg generalizing ds l s with
  | now => exact hx.1.1
  | @later g g' u u' t next hu hn ih =>
    obtain ⟨ds', m, hd⟩ := h
    have ht := m.sound hs
    obtain ⟨hc, hs'⟩ := hr g u u' ht hu
    obtain ⟨hlocked, hheld⟩ := hk _ g u u' ht hx.1.1 hu
    exact ih (hx.2 u' hlocked hheld) hs' (hd u' hc hs')

end Settling

section Scripts

variable {step : Op → State → Outcome Answer} {body : Script}

theorem runNested_spares (hl : LawfulStep step) (h : StepSparesLocks step) (hs : Sound [] s)
    (hlock : s.Locked L) (he : runNested step body s = .ok s') : s'.Locked L ∧ Held L s s' := by
  induction body generalizing s with
  | nil =>
    cases he
    exact ⟨hlock, .refl _⟩
  | cons op ops ih =>
    rw [runNested] at he
    split at he
    · next r t ht =>
      obtain ⟨hlt, hht⟩ := h L op s r t hs hlock ht
      have hs' := (hl op s r t hs ht).2
      obtain ⟨hlocked, hheld⟩ :=
        ih ((Move.aside (answered_aside r t)).sound hs') (hlt.same rfl) he
      exact ⟨hlocked, hht.trans ((Held.same rfl : Held L t (t.note (.answered r))).trans hheld)⟩
    · cases he

theorem hooked_same (g : Signal) (s : State) :
    (((s.eraseHook g).note (.hook g)).slots, ((s.eraseHook g).note (.hook g)).sharing,
      ((s.eraseHook g).note (.hook g)).next) = (s.slots, s.sharing, s.next) := by
  show ((s.eraseHook g).slots, (s.eraseHook g).sharing, (s.eraseHook g).next) = _
  unfold State.eraseHook
  split <;> rfl

theorem react_spares (hl : LawfulStep step) (h : StepSparesLocks step) :
    SparesLocks (react step) := by
  intro L g s s' hs hlock he
  rw [react] at he
  split at he
  · have hsame := hooked_same g s
    obtain ⟨hlocked, hheld⟩ := runNested_spares hl h ((Move.aside (hook_aside g s)).sound hs)
      (hlock.same (congrArg Prod.snd hsame)) he
    exact ⟨hlocked, (Held.same hsame).trans hheld⟩
  · cases he
    exact ⟨hlock, .refl s⟩

theorem runThread_spares (hl : LawfulStep step) (h : StepSparesLocks step) (hs : Sound [] s)
    (hlock : s.Locked L) (he : runThread step body s = .ok s') : s'.Locked L ∧ Held L s s' := by
  rw [runThread] at he
  cases ht : runNested step body s.startThread with
  | error e => rw [ht] at he; cases he
  | ok t =>
    rw [ht] at he
    cases he
    obtain ⟨hlocked, hheld⟩ := runNested_spares hl h hs.startThread (hlock.same rfl) ht
    exact ⟨hlocked.same rfl, (Held.same rfl : Held L s s.startThread).trans
      (hheld.trans (Held.same rfl))⟩

end Scripts

/-- **Operations leave held locks, and the variables behind them, alone**, with all the scripts that
they set off. -/
theorem step_spares (n : Nat) : StepSparesLocks (step n) := by
  induction n with
  | zero => intro L op s r s' hs hlock he; cases he
  | succ n ih =>
    intro L op s r s' hs hlock he
    have hl := step_lawful n
    by_cases hop : ∃ body, op = .thread body
    · obtain ⟨body, rfl⟩ := hop
      exact runThread_spares hl ih hs hlock (step_thread he).2
    · rw [step_perform fun body hb => hop ⟨body, hb⟩] at he
      exact ((course_holds (R := True) hs hlock fun _ _ _ => trivial).ended (react_lawful hl)
        (react_spares hl ih) hs (Action.performing_does op hs) he).1

/-! ## Reads in progress -/

/-- The states that a run comes to, each with the cells from which claims are being acquired by
reads that have not ended yet. -/
inductive Amid : List SlotId → State → Prop
  | start (build : Build) (profiling : Bool) (environment : Table String Text.Utf8.Bytes)
      (file : FileContent) : Amid [] (.start build profiling environment file)
  | ended {L : List SlotId} {s s' : State} {n : Nat} {op : Op} {r : Reply} (h : Amid L s)
      (he : step n op s = .ended r s') : Amid L s'
  | answered {L : List SlotId} {s : State} (r : Reply) (h : Amid L s) :
      Amid L (s.note (.answered r))
  | signalled {L : List SlotId} {s t : State} {n : Nat} {op : Op} {g : Signal} (h : Amid L s)
      (hg : (op.course s).Sends (react (step n)) g t) : Amid (op.window s g ++ L) t
  | hooked {L : List SlotId} {s : State} (g : Signal) (h : Amid L s) :
      Amid L ((s.eraseHook g).note (.hook g))
  | threaded {L : List SlotId} {s : State} (h : Amid L s) : Amid L s.startThread
  | switched {L : List SlotId} {s : State} {t : Thread} {ts : List Thread} (h : Amid L s)
      (hp : (t :: ts).Perm (s.thread :: s.waiting)) : Amid L (s.switch t ts)

theorem Amid.sound (h : Amid L s) : Sound [] s := by
  induction h with
  | start => exact .start _ _ _ _
  | ended _ he ih => exact (step_lawful _ _ _ _ _ ih he).2
  | answered r _ ih => exact (Move.aside (answered_aside r _)).sound ih
  | signalled _ hg ih => exact ih.sends hg
  | hooked g _ ih => exact (Move.aside (hook_aside g _)).sound ih
  | threaded _ ih => exact ih.startThread
  | switched _ hp ih => exact ih.switch hp

/-- **The locks that are held are those of the reads in progress.** -/
theorem Amid.locked (h : Amid L s) : s.Locked L := by
  induction h with
  | start => exact ⟨nofun, nofun, nofun⟩
  | ended h he ih => exact (step_spares _ _ _ _ _ _ h.sound ih he).1
  | answered r _ ih => exact ih.same rfl
  | @signalled L s t n op g h hg ih =>
    have hl := step_lawful n
    exact (course_holds (R := True) h.sound ih fun _ _ _ => trivial).sends (react_lawful hl)
      (react_spares hl (step_spares n)) h.sound (Action.performing_does op h.sound) hg
  | hooked g _ ih => exact ih.same (congrArg Prod.snd (hooked_same g _))
  | threaded _ ih => exact ih.same rfl
  | switched _ _ ih => exact ih.same rfl

/-- In runs without such reads none is in progress. -/
theorem ReachedBy.amid {p : Op → Prop} (h : ReachedBy p s) (hp : ∀ op, p op → ¬ op.ReadsOwned) :
    Amid [] s := by
  induction h with
  | start => exact .start _ _ _ _
  | ended _ _ he ih => exact ih.ended he
  | answered r _ ih => exact ih.answered r
  | @signalled s t n op g _ ho hop hg ih =>
    have hreads : ¬ op.ReadsOwned := by
      cases op with
      | hook | thread => exact id
      | _ => exact hp _ ho
    have hamid := ih.signalled hg
    rwa [Op.window_eq_nil hreads] at hamid
  | hooked g _ ih => exact ih.hooked g
  | threaded _ ih => exact ih.threaded
  | switched _ hp ih => exact ih.switched hp

end ClaimCells
