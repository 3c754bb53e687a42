import ClaimCells.Proofs.Runs

/-!
# Claims are conserved

The ledger counts for every object the claims there are: those that bound slots own, those that
are kept under keys, those on their way, and those that went out to owners that nobody keeps count
of. An acquisition or a release under way counts from the moment the ledger has recorded it, so the
balance holds at every signal too.

The journal knows of the claims that went out and came back in (`Journal.raw`). As long as nobody
gives back what never went out (`Journal.Honest`), no release is refused.

Main result: `claims_conserved`.
-/

namespace ClaimCells

variable {s s' : State} {l l' : List Cell} {ds : List Deed} {c : Claim} {o : ObjectId}

/-! ## The ledger -/

/-- Every object that was handed out has claims or is freed. -/
structure Ledger.Sound (k : Ledger) : Prop where
  counted : ∀ o n, k.claims.get? o = some n → 1 ≤ n ∧ o ≤ k.last ∧ o ∉ k.freed
  freed : ∀ o ∈ k.freed, o ≤ k.last
  gone : ∀ o, 0 < o → o ≤ k.last → k.claims.get? o = none → o ∈ k.freed

namespace Ledger

variable {k k' : Ledger}

theorem acquire_eq (h : k.acquire o = .ok k') : ∃ n, k.claims.get? o = some n ∧ o ∉ k.freed ∧
    k' = { k with claims := k.claims.insert o (n + 1), acquires := k.acquires + 1 } := by
  rw [acquire] at h
  split at h
  · cases h
  · next hf =>
    split at h
    · cases h
    · next n hn =>
      cases h
      refine ⟨n, hn, fun hm => hf ?_, rfl⟩
      rw [isFreed, List.contains_eq_mem]
      exact decide_eq_true hm

theorem acquire_error {m : Misuse} (h : k.acquire o = .error m) :
    m = .acquireFreed o ∨ m = .acquireUnknown o := by
  rw [acquire] at h
  split at h
  · cases h; exact .inl rfl
  · split at h
    · cases h; exact .inr rfl
    · cases h

theorem count_acquire (h : k.acquire o = .ok k') (o' : ObjectId) :
    k'.count o' = k.count o' + if o' = o then 1 else 0 := by
  obtain ⟨n, hn, -, rfl⟩ := acquire_eq h
  unfold count
  dsimp only
  rw [Table.get?_insert]
  split
  · next ho => rw [ho, hn]; rfl
  · rfl

theorem Sound.acquire (hk : k.Sound) (h : k.acquire o = .ok k') : k'.Sound := by
  obtain ⟨n, hn, -, rfl⟩ := acquire_eq h
  refine ⟨fun o' n' h' => ?_, hk.freed, fun o' hpos hle h' => ?_⟩
  · replace h' := (Table.get?_insert _ _ _ _).symm.trans h'
    split at h'
    · next ho =>
      cases h'
      exact ⟨Nat.le_add_left _ _, ho ▸ (hk.counted o n hn).2⟩
    · exact hk.counted o' n' h'
  · replace h' := (Table.get?_insert _ _ _ _).symm.trans h'
    split at h'
    · cases h'
    · exact hk.gone o' hpos hle h'

theorem Sound.not_freed (hk : k.Sound) (h : 0 < k.count o) : k.isFreed o = false := by
  cases hn : k.claims.get? o with
  | none => rw [count, hn] at h; exact absurd h (lt_irrefl _)
  | some n =>
    rw [isFreed, List.contains_eq_mem]
    exact decide_eq_false (hk.counted o n hn).2.2

/-- A release of an object that has claims takes one of them. -/
theorem Sound.release (hk : k.Sound) (h : 0 < k.count o) : ∃ k', k.release o = .ok k' ∧ k'.Sound ∧
    ∀ o', k'.count o' + (if o' = o then 1 else 0) = k.count o' := by
  cases hn : k.claims.get? o with
  | none => rw [count, hn] at h; exact absurd h (lt_irrefl _)
  | some n =>
    obtain ⟨hpos, hlast, hfree⟩ := hk.counted o n hn
    rw [Ledger.release, if_neg (by rw [hk.not_freed h]; nofun), hn]
    dsimp only
    split
    · next h1 =>
      refine ⟨_, rfl, ⟨fun o' n' h' => ?_, fun o' ho' => ?_, fun o' hp hle h' => ?_⟩, fun o' => ?_⟩
      · replace h' := (Table.get?_erase _ _ _).symm.trans h'
        split at h'
        · cases h'
        · next hne =>
          obtain ⟨h2, h3, h4⟩ := hk.counted o' n' h'
          exact ⟨h2, h3, fun hm => (List.mem_cons.1 hm).elim hne h4⟩
      · rcases List.mem_cons.1 ho' with rfl | ho'
        · exact hlast
        · exact hk.freed o' ho'
      · replace h' := (Table.get?_erase _ _ _).symm.trans h'
        split at h'
        · next ho => exact ho ▸ List.mem_cons_self
        · exact List.mem_cons_of_mem _ (hk.gone o' hp hle h')
      · unfold count
        dsimp only
        rw [Table.get?_erase]
        split
        · next ho => rw [ho, hn, Option.getD_none, Option.getD_some]; omega
        · rfl
    · next h1 =>
      refine ⟨_, rfl, ⟨fun o' n' h' => ?_, hk.freed, fun o' hp hle h' => ?_⟩, fun o' => ?_⟩
      · replace h' := (Table.get?_insert _ _ _ _).symm.trans h'
        split at h'
        · next ho =>
          cases h'
          exact ⟨by omega, ho ▸ hlast, ho ▸ hfree⟩
        · exact hk.counted o' n' h'
      · replace h' := (Table.get?_insert _ _ _ _).symm.trans h'
        split at h'
        · cases h'
        · exact hk.gone o' hp hle h'
      · unfold count
        dsimp only
        rw [Table.get?_insert]
        split
        · next ho => rw [ho, hn, Option.getD_some, Option.getD_some]; omega
        · rfl

/-- An object is freed as soon as it has no claim left. -/
theorem Sound.freed_iff (hk : k.Sound) (hpos : 0 < o) (hle : o ≤ k.last) :
    k.isFreed o = true ↔ k.count o = 0 := by
  rw [isFreed, List.contains_eq_mem, decide_eq_true_iff, count]
  cases hn : k.claims.get? o with
  | none => exact iff_of_true (hk.gone o hpos hle hn) rfl
  | some n =>
    obtain ⟨h1, -, h2⟩ := hk.counted o n hn
    exact iff_of_false h2 (Nat.one_le_iff_ne_zero.1 h1)

theorem Sound.fresh (hk : k.Sound) : k.claims.get? (k.last + 1) = none := by
  cases hn : k.claims.get? (k.last + 1) with
  | none => rfl
  | some n => exact absurd (hk.counted _ n hn).2.1 (Nat.not_succ_le_self _)

theorem Sound.allocate (hk : k.Sound) : k.allocate.2.Sound := by
  refine ⟨fun o n h => ?_, fun o ho => (hk.freed o ho).trans (Nat.le_succ _), fun o hp hle h => ?_⟩
  · replace h := (Table.get?_insert _ _ _ _).symm.trans h
    split at h
    · next ho =>
      cases h
      refine ⟨le_rfl, ho.le, fun hm => ?_⟩
      rw [ho] at hm
      exact absurd (hk.freed _ hm) (Nat.not_succ_le_self _)
    · obtain ⟨h1, h2, h3⟩ := hk.counted o n h
      exact ⟨h1, h2.trans (Nat.le_succ _), h3⟩
  · replace h := (Table.get?_insert _ _ _ _).symm.trans h
    split at h
    · cases h
    · next ho => exact hk.gone o hp (Nat.lt_succ_iff.1 (lt_of_le_of_ne hle ho)) h

theorem Sound.count_allocate (hk : k.Sound) (o : ObjectId) :
    k.allocate.2.count o = k.count o + if o = k.allocate.1 then 1 else 0 := by
  show ((k.claims.insert (k.last + 1) 1).get? o).getD 0 = k.count o + if o = k.last + 1 then 1 else 0
  rw [Table.get?_insert]
  split
  · next ho => rw [count, ho, hk.fresh]; rfl
  · rfl

end Ledger

/-! ## Where claims are -/

/-- What a claim counts for an object of the ledger. -/
def Claim.on (o : ObjectId) (c : Claim) : Nat :=
  if c = ⟨.counted, o⟩ then 1 else 0

/-- What a slot counts for an object of the ledger. -/
def Slot.on (o : ObjectId) (v : Slot) : Nat :=
  v.claim?.elim 0 (Claim.on o)

/-- How many claims on an object bound slots own. -/
def State.claimsInSlots (s : State) (o : ObjectId) : Nat :=
  s.slots.sum fun _ v => v.on o

/-- How many claims on an object are kept under keys. -/
def State.claimsKept (s : State) (o : ObjectId) : Nat :=
  s.thread.claims.sum fun _ o' => Claim.on o ⟨.counted, o'⟩

/-- How many claims on an object are on their way. -/
def State.claimsInHands (s : State) (o : ObjectId) : Nat :=
  s.thread.hands.count ⟨.counted, o⟩

/-- How many claims on an object went out to owners that nobody keeps count of, less those that
came back. -/
def Journal.raw (o : ObjectId) : Journal → Int
  | [] => 0
  | .disowned c :: j => raw o j + c.on o
  | .adopted c :: j => raw o j - c.on o
  | _ :: j => raw o j

/-- No claim came in that had not gone out before. -/
def Journal.Honest : Journal → Prop
  | [] => True
  | .adopted c :: j => (∀ o, c.on o ≤ raw o j) ∧ Honest j
  | _ :: j => Honest j

theorem Journal.Honest.raw_nonneg {j : Journal} (h : j.Honest) (o : ObjectId) : 0 ≤ j.raw o := by
  induction j with
  | nil => exact le_rfl
  | cons e j ih =>
    cases e with
    | disowned c =>
      have := ih h
      rw [Journal.raw]
      omega
    | adopted c =>
      have := h.1 o
      rw [Journal.raw]
      omega
    | _ => exact ih h

/-- Entries that tell of no claim that goes out or comes in, and of no refusal. -/
def Entry.quiet : Entry → Bool
  | .disowned _ | .adopted _ | .refused _ => false
  | _ => true

theorem Entry.quiet_of_idle {e : Entry} (h : e.idle = true) : e.quiet = true := by
  cases e <;> first | rfl | exact absurd h (by simp [Entry.idle])

theorem Journal.raw_append {es j : Journal} (h : ∀ e ∈ es, e.quiet = true) (o : ObjectId) :
    Journal.raw o (es ++ j) = j.raw o := by
  induction es with
  | nil => rfl
  | cons e es ih =>
    rw [← ih fun e' he => h e' (List.mem_cons_of_mem _ he)]
    have he := h e List.mem_cons_self
    cases e <;> first | rfl | cases he

theorem Journal.Honest.of_append {es j : Journal} (h : Journal.Honest (es ++ j)) : j.Honest := by
  induction es with
  | nil => exact h
  | cons e es ih =>
    cases e with
    | adopted c => exact ih h.2
    | _ => exact ih h

/-- Moves only add to the journal. -/
theorem Move.journal (m : Move l s ds l' s') : ∃ es, s'.journal = es ++ s.journal := by
  cases m with
  | aside h => exact h.journal.imp fun _ h => h.1
  | counted | reshaped | taken | locked | unkept | parted | flagged | givenBack =>
    exact ⟨[], rfl⟩
  | dropped aloud | freedFull aloud => exact ⟨_ :: State.announcement _ _ _ _, rfl⟩
  | freed aloud => exact ⟨_ :: _ :: State.announcement _ _ _ _, rfl⟩
  | made | bound | emptied | endedBound | retained => exact ⟨[_, _], rfl⟩
  | madeShared => exact ⟨[_, _, _], rfl⟩
  | _ => exact ⟨[_], rfl⟩

theorem claims_cons (c : Claim) (H : List Claim) (o : ObjectId) :
    (c :: H).count ⟨.counted, o⟩ = H.count ⟨.counted, o⟩ + c.on o := by
  rw [List.count_cons, Claim.on]
  simp only [beq_iff_eq]

theorem claims_erase {H : List Claim} (h : c ∈ H) (o : ObjectId) :
    (H.erase c).count ⟨.counted, o⟩ + c.on o = H.count ⟨.counted, o⟩ := by
  rw [← claims_cons]
  exact (List.perm_cons_erase h).symm.count_eq _

theorem claims_append (v : Option Claim) (H : List Claim) (o : ObjectId) :
    (v.toList ++ H).count ⟨.counted, o⟩ = H.count ⟨.counted, o⟩ + v.elim 0 (Claim.on o) := by
  cases v with
  | none => rfl
  | some c => exact claims_cons c H o

theorem claims_letGoAny {v : Option Claim} {H : List Claim} (h : ∀ c ∈ v, c ∈ H) (o : ObjectId) :
    (v.elim H H.erase).count ⟨.counted, o⟩ + v.elim 0 (Claim.on o) = H.count ⟨.counted, o⟩ := by
  cases v with
  | none => rfl
  | some c => exact claims_erase (h c rfl) o

/-! ## The balance -/

/-- The thread is the only one there ever was. -/
def State.Alone (s : State) : Prop :=
  s.waiting = [] ∧ s.ended = []

/-- The balance of claims. -/
structure Conserved (s : State) : Prop where
  ledger : s.thread.ledger.Sound
  balance : ∀ o, (s.thread.ledger.count o : Int) =
    s.journal.raw o + s.claimsInSlots o + s.claimsKept o + s.claimsInHands o
  refused : ∀ m, .refused m ∈ s.journal → ∃ o, m = .acquireFreed o ∨ m = .acquireUnknown o

/-- Where the claims are, and what the ledger counts. -/
def State.claimed (s : State) :=
  (s.slots, s.thread.claims, s.thread.hands, s.thread.ledger)

namespace Conserved

/-- Moves that leave the ledger alone and only carry claims from one place to another. -/
theorem carried (h : Conserved s) (es : Journal) (hj : s'.journal = es ++ s.journal)
    (hes : ∀ e ∈ es, e.quiet = true) (hl : s'.thread.ledger = s.thread.ledger)
    (hb : ∀ o, s'.claimsInSlots o + s'.claimsKept o + s'.claimsInHands o =
      s.claimsInSlots o + s.claimsKept o + s.claimsInHands o) : Conserved s' where
  ledger := hl ▸ h.ledger
  balance o := by
    have h1 := h.balance o
    have h2 := hb o
    rw [hl, hj, Journal.raw_append hes]
    omega
  refused m hm := by
    rw [hj] at hm
    rcases List.mem_append.1 hm with hm | hm
    · exact absurd (hes _ hm) (by simp [Entry.quiet])
    · exact h.refused m hm

/-- Moves that concern no claim. -/
theorem same (h : Conserved s) (es : Journal) (hj : s'.journal = es ++ s.journal)
    (hes : ∀ e ∈ es, e.quiet = true) (ht : s'.claimed = s.claimed) : Conserved s' := by
  simp only [State.claimed, Prod.mk.injEq] at ht
  obtain ⟨hs, hc, hh, hl⟩ := ht
  refine h.carried es hj hes hl fun o => ?_
  rw [State.claimsInSlots, State.claimsKept, State.claimsInHands, hs, hc, hh]
  rfl

/-- An object on which there is a claim is alive. -/
theorem alive (h : Conserved s) (hj : s.journal.Honest)
    (hc : 0 < s.claimsInSlots o + s.claimsKept o + s.claimsInHands o) :
    0 < s.thread.ledger.count o := by
  have h1 := h.balance o
  have h2 := hj.raw_nonneg o
  omega

theorem alive_of_hands (h : Conserved s) (hj : s.journal.Honest)
    (hc : ⟨.counted, o⟩ ∈ s.thread.hands) : 0 < s.thread.ledger.count o := by
  refine h.alive hj (Nat.add_pos_right _ ?_)
  exact List.count_pos_iff.2 hc

end Conserved

/-! ## Every move -/

theorem Slot.on_some {v : Slot} {o' : ObjectId} (h : v.value = some o') (o : ObjectId) :
    v.on o = Claim.on o ⟨v.realm, o'⟩ := by
  rw [Slot.on, Slot.claim?, h]
  rfl

theorem Slot.on_none {v : Slot} (h : v.value = none) (o : ObjectId) : v.on o = 0 := by
  rw [Slot.on, Slot.claim?, h]
  rfl

theorem Claim.on_counted (o o' : ObjectId) :
    Claim.on o ⟨.counted, o'⟩ = if o = o' then 1 else 0 := by
  rw [Claim.on]
  by_cases h : o = o'
  · rw [if_pos h, h, if_pos rfl]
  · rw [if_neg h, if_neg fun hc => h (by cases hc; rfl)]

theorem Claim.on_native (o o' : ObjectId) : Claim.on o ⟨.native, o'⟩ = 0 :=
  if_neg nofun

/-- Moves that change the ledger and write one entry. -/
theorem Conserved.counted {e : Entry} (h : Conserved s) (hj : s'.journal = e :: s.journal)
    (he : e.quiet = true) (hs : s'.slots = s.slots) (hc : s'.thread.claims = s.thread.claims)
    (hl : s'.thread.ledger.Sound)
    (hb : ∀ o, s'.thread.ledger.count o + s.claimsInHands o =
      s.thread.ledger.count o + s'.claimsInHands o) : Conserved s' where
  ledger := hl
  balance o := by
    have h1 := h.balance o
    have h2 := hb o
    have h3 : s'.claimsInSlots o = s.claimsInSlots o := by
      rw [State.claimsInSlots, hs]
      rfl
    have h4 : s'.claimsKept o = s.claimsKept o := by rw [State.claimsKept, hc]; rfl
    have h5 : Journal.raw o ([e] ++ s.journal) = s.journal.raw o :=
      Journal.raw_append (by simpa using he) o
    rw [hj, h3, h4, ← List.singleton_append, h5]
    omega
  refused m hm := by
    rw [hj] at hm
    rcases List.mem_cons.1 hm with rfl | hm
    · cases he
    · exact h.refused m hm

/-- Moves that carry claims in the hands to or from an owner that nobody keeps count of. -/
theorem Conserved.passed {e : Entry} (h : Conserved s) (hj : s'.journal = e :: s.journal)
    (he : ∀ m, e ≠ .refused m) (hs : s'.slots = s.slots)
    (hc : s'.thread.claims = s.thread.claims) (hl : s'.thread.ledger = s.thread.ledger)
    (hb : ∀ o, Journal.raw o (e :: s.journal) + s'.claimsInHands o =
      s.journal.raw o + s.claimsInHands o) : Conserved s' where
  ledger := hl ▸ h.ledger
  balance o := by
    have h1 := h.balance o
    have h2 := hb o
    have h3 : s'.claimsInSlots o = s.claimsInSlots o := by
      rw [State.claimsInSlots, hs]
      rfl
    have h4 : s'.claimsKept o = s.claimsKept o := by rw [State.claimsKept, hc]; rfl
    rw [hj, h3, h4, hl]
    omega
  refused m hm := by
    rw [hj] at hm
    rcases List.mem_cons.1 hm with rfl | hm
    · exact absurd rfl (he m)
    · exact h.refused m hm

/-- A claim in hand becomes the value of a slot, whose old one comes into the hands. -/
theorem Conserved.bound {id : SlotId} {v : Slot} {o' : ObjectId} (h : Conserved s) (es : Journal)
    (hv : s.slots.get? id = some v) (hc : ⟨v.realm, o'⟩ ∈ s.thread.hands)
    (hj : s'.journal = es ++ s.journal) (hes : ∀ e ∈ es, e.quiet = true)
    (ht : s'.claimed = (s.slots.modify id ({ · with value := some o' }), s.thread.claims,
      v.claim?.toList ++ s.thread.hands.erase ⟨v.realm, o'⟩, s.thread.ledger)) :
    Conserved s' := by
  simp only [State.claimed, Prod.mk.injEq] at ht
  obtain ⟨hs, hk, hh, hl⟩ := ht
  refine h.carried es hj hes hl fun o => ?_
  have h1 := claims_erase hc o
  have h2 := claims_append v.claim? (s.thread.hands.erase ⟨v.realm, o'⟩) o
  have h3 := Table.sum_modify_of_get? hv ({ · with value := some o' }) fun _ v => v.on o
  rw [Slot.on_some (v := { v with value := some o' }) rfl, Slot.on] at h3
  rw [State.claimsInSlots, State.claimsInSlots, State.claimsKept, State.claimsKept,
    State.claimsInHands, State.claimsInHands, hs, hh, hk]
  dsimp only at h3
  omega

/-- The value of a slot comes into the hands. -/
theorem Conserved.made {v : Slot} (h : Conserved s) (es : Journal)
    (hfresh : s.slots.get? s.next = none) (hc : ∀ c ∈ v.claim?, c ∈ s.thread.hands)
    (hj : s'.journal = es ++ s.journal) (hes : ∀ e ∈ es, e.quiet = true)
    (ht : s'.claimed = (s.slots.insert s.next v, s.thread.claims,
      v.claim?.elim s.thread.hands s.thread.hands.erase, s.thread.ledger)) : Conserved s' := by
  simp only [State.claimed, Prod.mk.injEq] at ht
  obtain ⟨hs, hk, hh, hl⟩ := ht
  refine h.carried es hj hes hl fun o => ?_
  have h1 := claims_letGoAny hc o
  have h2 := Table.sum_insert_fresh hfresh v fun _ v => v.on o
  rw [Slot.on] at h2
  rw [State.claimsInSlots, State.claimsInSlots, State.claimsKept, State.claimsKept,
    State.claimsInHands, State.claimsInHands, hs, hh, hk]
  omega

theorem Conserved.emptied {id : SlotId} {v : Slot} {o' : ObjectId} (h : Conserved s) (es : Journal)
    (hv : s.slots.get? id = some v) (ho : v.value = some o')
    (hj : s'.journal = es ++ s.journal) (hes : ∀ e ∈ es, e.quiet = true)
    (ht : s'.claimed = (s.slots.modify id ({ · with value := none }), s.thread.claims,
      ⟨v.realm, o'⟩ :: s.thread.hands, s.thread.ledger)) : Conserved s' := by
  simp only [State.claimed, Prod.mk.injEq] at ht
  obtain ⟨hs, hk, hh, hl⟩ := ht
  refine h.carried es hj hes hl fun o => ?_
  have h1 := claims_cons ⟨v.realm, o'⟩ s.thread.hands o
  have h2 := Table.sum_modify_of_get? hv ({ · with value := none }) fun _ v => v.on o
  rw [Slot.on_some ho, Slot.on_none (v := { v with value := none }) rfl] at h2
  rw [State.claimsInSlots, State.claimsInSlots, State.claimsKept, State.claimsKept,
    State.claimsInHands, State.claimsInHands, hs, hh, hk]
  omega

/-- The value of a slot that goes away comes into the hands. -/
theorem Conserved.ended {id : SlotId} {v : Slot} {o' : ObjectId} (h : Conserved s) (es : Journal)
    (hv : s.slots.get? id = some v) (ho : v.value = some o')
    (hj : s'.journal = es ++ s.journal) (hes : ∀ e ∈ es, e.quiet = true)
    (ht : s'.claimed = (s.slots.erase id, s.thread.claims, ⟨v.realm, o'⟩ :: s.thread.hands,
      s.thread.ledger)) : Conserved s' := by
  simp only [State.claimed, Prod.mk.injEq] at ht
  obtain ⟨hs, hk, hh, hl⟩ := ht
  refine h.carried es hj hes hl fun o => ?_
  have h1 := claims_cons ⟨v.realm, o'⟩ s.thread.hands o
  have h2 := Table.sum_erase_of_get? hv fun _ v => v.on o
  rw [Slot.on_some ho] at h2
  rw [State.claimsInSlots, State.claimsInSlots, State.claimsKept, State.claimsKept,
    State.claimsInHands, State.claimsInHands, hs, hh, hk]
  omega

/-- **Every move keeps the balance of claims.** -/
theorem Move.conserved (m : Move l s ds l' s') (hs : Sound l s) (h : Conserved s)
    (hj : s.journal.Honest) : Conserved s' := by
  cases m with
  | aside ha =>
    obtain ⟨es, hes, hidle⟩ := ha.journal
    refine h.same es hes (fun e he => e.quiet_of_idle (hidle e he)) ?_
    simp only [State.claimed, ha.slots, ha.claims, ha.hands, ha.ledger]
  | counted | locked | unkept | parted | flagged | givenBack | reshaped =>
    exact h.same [] rfl (List.forall_mem_nil _) rfl
  | kept | given | tuned => exact h.same [_] rfl (by simp [Entry.quiet]) rfl
  | retained => exact h.same [_, _] rfl (by simp [Entry.quiet]) rfl
  | dropped aloud | freedFull aloud =>
    exact h.same (_ :: State.announcement _ _ _ _) rfl
      (by cases aloud <;> simp [State.announcement, Entry.quiet]) rfl
  | freed aloud =>
    exact h.same (_ :: _ :: State.announcement _ _ _ _) rfl
      (by cases aloud <;> simp [State.announcement, Entry.quiet]) rfl
  | allocated =>
    refine h.counted rfl rfl rfl rfl h.ledger.allocate fun o => ?_
    have h1 := h.ledger.count_allocate o
    have h2 := claims_cons ⟨.counted, s.thread.ledger.allocate.1⟩ s.thread.hands o
    rw [← Claim.on_counted] at h1
    change s.thread.ledger.allocate.2.count o + s.thread.hands.count _ =
      s.thread.ledger.count o + (_ :: s.thread.hands).count _
    omega
  | @gained o' k hk =>
    refine h.counted rfl rfl rfl rfl (h.ledger.acquire hk) fun o => ?_
    have h1 := Ledger.count_acquire hk o
    have h2 := claims_cons ⟨.counted, o'⟩ s.thread.hands o
    rw [← Claim.on_counted] at h1
    change k.count o + s.thread.hands.count _ =
      s.thread.ledger.count o + (_ :: s.thread.hands).count _
    omega
  | gainedNative o' f =>
    refine h.carried [_] rfl (by simp [Entry.quiet]) rfl fun o => ?_
    have h1 := claims_cons ⟨.native, o'⟩ s.thread.hands o
    rw [Claim.on_native] at h1
    change _ + _ + (_ :: s.thread.hands).count _ = _ + _ + s.thread.hands.count _
    rw [h1]
    rfl
  | @refusedGain o' m hk =>
    refine ⟨h.ledger, h.balance, fun m' hm => ?_⟩
    rcases List.mem_cons.1 hm with hm | hm
    · cases hm
      exact ⟨o', Ledger.acquire_error hk⟩
    · exact h.refused m' hm
  | @released o' k hc hk =>
    obtain ⟨k', hk', hl, hb⟩ := h.ledger.release (h.alive_of_hands hj hc)
    obtain rfl : k = k' := Except.ok.inj (hk.symm.trans hk')
    refine h.counted rfl rfl rfl rfl hl fun o => ?_
    have h1 := hb o
    have h2 := claims_erase hc o
    rw [← Claim.on_counted] at h1
    change k.count o + s.thread.hands.count _ =
      s.thread.ledger.count o + (s.thread.hands.erase _).count _
    omega
  | @releasedNative o' f hc =>
    refine h.carried [_] rfl (by simp [Entry.quiet]) rfl fun o => ?_
    have h1 := claims_erase hc o
    rw [Claim.on_native] at h1
    change _ + _ + (s.thread.hands.erase _).count _ = _ + _ + s.thread.hands.count _
    rw [← h1]
    rfl
  -- no release is refused while the claim that is given up counts
  | lost hc hk =>
    obtain ⟨k', hk', -⟩ := h.ledger.release (h.alive_of_hands hj hc)
    cases hk.symm.trans hk'
  | @lostNative o' hc =>
    refine h.carried [_] rfl (by simp [Entry.quiet]) rfl fun o => ?_
    have h1 := claims_erase hc o
    rw [Claim.on_native] at h1
    change _ + _ + (s.thread.hands.erase _).count _ = _ + _ + s.thread.hands.count _
    rw [← h1]
    rfl
  | adopted c =>
    refine h.passed rfl (by simp) rfl rfl rfl fun o => ?_
    have h1 := claims_cons c s.thread.hands o
    change s.journal.raw o - ((c.on o : Nat) : Int) + ((c :: s.thread.hands).count _ : Nat) =
      s.journal.raw o + (s.thread.hands.count _ : Nat)
    omega
  | @disowned c hc =>
    refine h.passed rfl (by simp) rfl rfl rfl fun o => ?_
    have h1 := claims_erase hc o
    change s.journal.raw o + ((c.on o : Nat) : Int) + ((s.thread.hands.erase c).count _ : Nat) =
      s.journal.raw o + (s.thread.hands.count _ : Nat)
    omega
  | @taken key o' hk =>
    refine h.carried [] rfl (List.forall_mem_nil _) rfl fun o => ?_
    have h1 := claims_cons ⟨.counted, o'⟩ s.thread.hands o
    have h2 := Table.sum_erase_of_get? hk fun _ o' => Claim.on o ⟨.counted, o'⟩
    change s.claimsInSlots o + (s.thread.claims.erase key).sum _ + (_ :: s.thread.hands).count _ =
      s.claimsInSlots o + s.thread.claims.sum _ + s.thread.hands.count _
    omega
  | @handed key o' hc =>
    refine h.carried [_] rfl (by simp [Entry.quiet]) rfl fun o => ?_
    have h1 := claims_erase hc o
    have h2 := claims_append ((s.thread.claims.get? key).map (⟨.counted, ·⟩))
      (s.thread.hands.erase ⟨.counted, o'⟩) o
    have h3 := s.thread.claims.sum_eq_sum_erase key fun _ o' => Claim.on o ⟨.counted, o'⟩
    have h4 := s.thread.claims.sum_insert key o' fun _ o' => Claim.on o ⟨.counted, o'⟩
    have h5 : ((s.thread.claims.get? key).map (⟨.counted, ·⟩ : ObjectId → Claim)).elim 0
        (Claim.on o) =
          ((s.thread.claims.get? key).map fun o' => Claim.on o ⟨.counted, o'⟩).getD 0 := by
      cases s.thread.claims.get? key <;> rfl
    change s.claimsInSlots o + (s.thread.claims.insert key o').sum _ +
        (_ ++ s.thread.hands.erase _).count _ =
      s.claimsInSlots o + s.thread.claims.sum _ + s.thread.hands.count _
    omega
  | made _ _ hc => exact h.made [_, _] hs.fresh hc rfl (by simp [Entry.quiet]) rfl
  | madeShared _ hc => exact h.made [_, _, _] hs.fresh hc rfl (by simp [Entry.quiet]) rfl
  | bound hv hc hp => exact h.bound [_, _] hv hc rfl (by simp [Entry.quiet]) rfl
  | boundFull hv hc => exact h.bound [_] hv hc rfl (by simp [Entry.quiet]) rfl
  | emptied r hv ho hp => exact h.emptied [_, _] hv ho rfl (by simp [Entry.quiet]) rfl
  | emptiedFull hv ho => exact h.emptied [_] hv ho rfl (by simp [Entry.quiet]) rfl
  | @ended id v form hl hv ho =>
    refine h.carried [_] rfl (by simp [Entry.quiet]) rfl fun o => ?_
    have h1 := Table.sum_erase_of_get? hv fun _ v => v.on o
    rw [Slot.on_none ho] at h1
    exact congrArg (· + s.claimsKept o + s.claimsInHands o) h1.symm
  | endedBound hl hv ho hp => exact h.ended [_, _] hv ho rfl (by simp [Entry.quiet]) rfl
  | endedFull hl hv ho => exact h.ended [_] hv ho rfl (by simp [Entry.quiet]) rfl

/-! ## Every run -/

/-- As long as there is one thread, and nobody gives back what never went out, nothing breaks the
balance of claims. -/
theorem Stable.conserved : Stable fun s => s.Alone → s.journal.Honest → Conserved s where
  move {l s ds l' s'} hs m h halone hj := by
    obtain ⟨hw, he⟩ := m.waiting
    obtain ⟨es, hes⟩ := m.journal
    have hj' : s.journal.Honest := Journal.Honest.of_append (hes ▸ hj)
    exact m.conserved hs (h ⟨hw ▸ halone.1, he ▸ halone.2⟩ hj') hj'
  startThread _ halone _ := nomatch halone.1
  endThread _ _ _ halone _ := nomatch halone.2

theorem Conserved.start (build : Build) (profiling : Bool)
    (environment : Table String Text.Utf8.Bytes) (file : FileContent) :
    Conserved (.start build profiling environment file) where
  ledger := ⟨nofun, nofun, fun _ hpos hle => absurd hle (Nat.not_le.2 hpos)⟩
  balance _ := rfl
  refused := nofun

/-- **Claims are conserved.** At the end of every operation and whenever a script is set off, the
ledger counts for every object the claims that went out for good, those that bound slots own, those
that are kept and those on their way. So no release was refused, what anybody has a claim on is
alive, and an object is freed when there is none left. -/
theorem claims_conserved (h : Reached s) (halone : s.Alone) (hj : s.journal.Honest) :
    (∀ o, (s.thread.ledger.count o : Int) =
      s.journal.raw o + s.claimsInSlots o + s.claimsKept o + s.claimsInHands o) ∧
    (∀ m, .refused m ∈ s.journal → ∃ o, m = .acquireFreed o ∨ m = .acquireUnknown o) ∧
    (∀ o, 0 < s.claimsInSlots o + s.claimsKept o + s.claimsInHands o →
      s.thread.ledger.isFreed o = false) ∧
    ∀ o, 0 < o → o ≤ s.thread.ledger.last → (s.thread.ledger.isFreed o = true ↔
      s.journal.raw o = 0 ∧ s.claimsInSlots o = 0 ∧ s.claimsKept o = 0 ∧
        s.claimsInHands o = 0) := by
  have hc : Conserved s :=
    h.stable .conserved (fun _ _ _ _ _ _ => .start _ _ _ _) halone hj
  refine ⟨hc.balance, hc.refused, fun o ho => hc.ledger.not_freed (hc.alive hj ho),
    fun o hpos hle => ?_⟩
  have h1 := hc.balance o
  have h2 := hj.raw_nonneg o
  rw [hc.ledger.freed_iff hpos hle]
  omega

/-- An object whose claim is handed to a cell. -/
theorem claims_conserved_bound : ∃ s : State, s.claimsInSlots 1 = 1 ∧
    (s.thread.ledger.count 1 : Int) =
      s.journal.raw 1 + s.claimsInSlots 1 + s.claimsKept 1 + s.claimsInHands 1 := by
  have h0 : Reached (.start .plain false {} none) := .start _ _ _ _
  have h1 := h0.ended (show step 1 (.object (.allocate (some ""))) _ = .ended _ _ from rfl)
  have h2 := h1.ended (show step 1 (.cell (.make "" (.plain "" (some "")))) _ = .ended _ _ from rfl)
  exact ⟨_, rfl, (claims_conserved h2 ⟨rfl, rfl⟩ (by trivial)).1 1⟩

end ClaimCells
