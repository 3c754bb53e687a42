import ClaimCells.Proofs.Runs

/-!
# The flow of claims

A claim comes in when it is acquired or taken over from somebody, and goes out when it is dropped,
which releases it, or handed to somebody. Meanwhile it is in one place: a slot owns it, it is kept
under a key, or it is on its way, on one of the threads. The journal tells of all that comes in and
goes out, whoever counts the claims of the object. A claim that is acquired, or released, for
somebody else comes in and goes out at once.

A release that the ledger refuses ends a claim like any other. So this account needs no discipline:
it holds also when claims are given back that never went out.

Main results: `Move.accounted`, every move keeps the account, and `Reached.accounted`.
-/

namespace ClaimCells

variable {s s' : State} {l l' : List Cell} {ds : List Deed} {c x : Claim} {v : Slot} {id : SlotId}
  {o : ObjectId} {H : List Claim}

/-! ## What the journal tells -/

/-- The claim that comes in with an entry. -/
def Entry.creates? : Entry → Option Claim
  | .allocated o | .acquired o => some ⟨.counted, o⟩
  | .called _ .acquired o => some ⟨.native, o⟩
  | .adopted c => some c
  | _ => none

/-- The claim whose release is attempted with an entry. -/
def Entry.drops? : Entry → Option Claim
  | .released o | .refused (.releaseFreed o) | .refused (.releaseUnknown o) => some ⟨.counted, o⟩
  | .called _ .released o => some ⟨.native, o⟩
  | _ => none

/-- The claim that is handed out with an entry. -/
def Entry.handsOut? : Entry → Option Claim
  | .disowned c => some c
  | _ => none

/-- How often entries tell something of a claim. -/
def Journal.times (j : Journal) (f : Entry → Option Claim) (x : Claim) : Nat :=
  (j.filterMap f).count x

/-- How many claims came in. -/
def Journal.created (j : Journal) (x : Claim) : Nat :=
  j.times Entry.creates? x

/-- How many claims were dropped. -/
def Journal.dropped (j : Journal) (x : Claim) : Nat :=
  j.times Entry.drops? x

/-- How many claims were handed out. -/
def Journal.handedOut (j : Journal) (x : Claim) : Nat :=
  j.times Entry.handsOut? x

theorem Journal.times_append (es j : Journal) (f : Entry → Option Claim) (x : Claim) :
    Journal.times (es ++ j) f x = es.times f x + j.times f x := by
  rw [Journal.times, List.filterMap_append, List.count_append]
  rfl

theorem Journal.created_append (es j : Journal) (x : Claim) :
    Journal.created (es ++ j) x = es.created x + j.created x :=
  times_append es j _ x

theorem Journal.dropped_append (es j : Journal) (x : Claim) :
    Journal.dropped (es ++ j) x = es.dropped x + j.dropped x :=
  times_append es j _ x

theorem Journal.handedOut_append (es j : Journal) (x : Claim) :
    Journal.handedOut (es ++ j) x = es.handedOut x + j.handedOut x :=
  times_append es j _ x

theorem Journal.times_eq_zero {es : Journal} {f : Entry → Option Claim}
    (h : ∀ e ∈ es, f e = none) (x : Claim) : es.times f x = 0 := by
  rw [Journal.times, List.filterMap_eq_nil_iff.2 h, List.count_nil]

/-- Entries with which no claim comes in or goes out. -/
structure Entry.Still (e : Entry) : Prop where
  creates : e.creates? = none
  drops : e.drops? = none
  handsOut : e.handsOut? = none

@[simp] theorem Entry.still_did (d : Deed) : (Entry.did d).Still := ⟨rfl, rfl, rfl⟩

@[simp] theorem Entry.still_event (e : Event) (w : Bool) : (Entry.event e w).Still :=
  ⟨rfl, rfl, rfl⟩

@[simp] theorem Entry.still_opened (id : Nat) (p : Option Nat) : (Entry.opened id p).Still :=
  ⟨rfl, rfl, rfl⟩

@[simp] theorem Entry.still_tuned (p : Profiler) : (Entry.tuned p).Still := ⟨rfl, rfl, rfl⟩

theorem Entry.still_of_idle {e : Entry} (h : e.idle = true) : e.Still := by
  cases e <;> first | exact ⟨rfl, rfl, rfl⟩ | exact absurd h (by simp [Entry.idle])

/-- What entries tell of a claim, taken together, is what went out less what came in. -/
structure Journal.Tells (es : Journal) (x : Claim) (came went : Nat) : Prop where
  created : es.created x = came
  gone : es.dropped x + es.handedOut x = went

theorem Journal.Tells.still {es : Journal} (h : ∀ e ∈ es, e.Still) (x : Claim) : es.Tells x 0 0 where
  created := times_eq_zero (fun e he => (h e he).creates) x
  gone := by
    rw [dropped, handedOut, times_eq_zero fun e he => (h e he).drops,
      times_eq_zero fun e he => (h e he).handsOut]

/-! ## Where claims are -/

/-- How often a slot owns the claim. -/
def Slot.owns (x : Claim) (v : Slot) : Nat :=
  v.claim?.toList.count x

/-- How often the claim is kept, or on its way, on a thread. -/
def Thread.claimsOn (t : Thread) (x : Claim) : Nat :=
  (t.claims.sum fun _ o => [⟨.counted, o⟩].count x) + t.hands.count x

/-- In how many places the claim is. -/
def State.claimsOn (s : State) (x : Claim) : Nat :=
  (s.slots.sum fun _ v => v.owns x) + s.thread.claimsOn x +
    ((s.waiting ++ s.ended).map (Thread.claimsOn · x)).sum

/-- Every claim that came in is somewhere, or went out. -/
def Accounted (x : Claim) (s : State) : Prop :=
  s.journal.created x = s.journal.dropped x + s.journal.handedOut x + s.claimsOn x

theorem count_erase (h : c ∈ H) (x : Claim) :
    H.count x = (H.erase c).count x + [c].count x := by
  rw [(List.perm_cons_erase h).count_eq x, ← List.singleton_append, List.count_append,
    Nat.add_comm]

theorem count_letGoAny {w : Option Claim} (h : ∀ c ∈ w, c ∈ H) (x : Claim) :
    H.count x = (w.elim H H.erase).count x + w.toList.count x := by
  cases w with
  | none => rfl
  | some c => exact count_erase (h c rfl) x

theorem Slot.owns_some (h : v.value = some o) (x : Claim) : v.owns x = [⟨v.realm, o⟩].count x := by
  rw [Slot.owns, Slot.claim?, h]
  rfl

theorem Slot.owns_none (h : v.value = none) (x : Claim) : v.owns x = 0 := by
  rw [Slot.owns, Slot.claim?, h]
  rfl

/-! ## The account -/

/-- What owns claims. -/
def State.owners (s : State) :=
  (s.slots, s.thread.claims, s.thread.hands, s.waiting, s.ended)

theorem State.claimsOn_eq {slots : Table SlotId Slot} {claims : Table String ObjectId}
    {hands : List Claim}
    (h : s'.owners = (slots, claims, hands, s.waiting, s.ended)) (x : Claim) :
    s'.claimsOn x = (slots.sum fun _ v => v.owns x) +
      ((claims.sum fun _ o => [⟨.counted, o⟩].count x) + hands.count x) +
      ((s.waiting ++ s.ended).map (Thread.claimsOn · x)).sum := by
  simp only [State.owners, Prod.mk.injEq] at h
  rw [State.claimsOn, Thread.claimsOn, h.1, h.2.1, h.2.2.1, h.2.2.2.1, h.2.2.2.2]

namespace Accounted

theorem step (h : Accounted x s) (es : Journal) {came went : Nat} (hj : s'.journal = es ++ s.journal)
    (ht : es.Tells x came went) (hb : s'.claimsOn x + went = s.claimsOn x + came) :
    Accounted x s' := by
  have hcreated := ht.created
  have hgone := ht.gone
  rw [Accounted] at h ⊢
  rw [hj, Journal.created_append, Journal.dropped_append, Journal.handedOut_append]
  omega

/-- Nothing comes in or goes out. -/
theorem still (h : Accounted x s) (es : Journal) (hj : s'.journal = es ++ s.journal)
    (hes : ∀ e ∈ es, e.Still) (hb : s'.claimsOn x = s.claimsOn x) : Accounted x s' :=
  h.step es hj (.still hes x) hb

/-- Claims go from one place to another. -/
theorem moved {slots : Table SlotId Slot} {claims : Table String ObjectId} {hands : List Claim}
    (h : Accounted x s) (es : Journal) (hj : s'.journal = es ++ s.journal)
    (hes : ∀ e ∈ es, e.Still) (ho : s'.owners = (slots, claims, hands, s.waiting, s.ended))
    (hb : (slots.sum fun _ v => v.owns x) + (claims.sum fun _ o => [⟨.counted, o⟩].count x) +
        hands.count x = (s.slots.sum fun _ v => v.owns x) + s.thread.claimsOn x) :
    Accounted x s' := by
  refine h.still es hj hes ?_
  rw [State.claimsOn_eq ho, State.claimsOn]
  omega

theorem same (h : Accounted x s) (es : Journal) (hj : s'.journal = es ++ s.journal)
    (hes : ∀ e ∈ es, e.Still) (ho : s'.owners = s.owners) : Accounted x s' := by
  refine h.still es hj hes ?_
  rw [State.claimsOn_eq (s := s) ho]
  rfl

/-- A claim comes in. -/
theorem gained {e : Entry} (h : Accounted x s) (hj : s'.journal = e :: s.journal)
    (he : Journal.Tells [e] x ([c].count x) 0)
    (ho : s'.owners = (s.slots, s.thread.claims, c :: s.thread.hands, s.waiting, s.ended)) :
    Accounted x s' := by
  refine h.step [e] hj he ?_
  rw [State.claimsOn_eq ho, ← List.singleton_append, List.count_append, State.claimsOn,
    Thread.claimsOn]
  omega

/-- A claim in hand goes out. -/
theorem lost {e : Entry} (h : Accounted x s) (hc : c ∈ s.thread.hands)
    (hj : s'.journal = e :: s.journal) (he : Journal.Tells [e] x 0 ([c].count x))
    (ho : s'.owners =
      (s.slots, s.thread.claims, s.thread.hands.erase c, s.waiting, s.ended)) : Accounted x s' := by
  refine h.step [e] hj he ?_
  have h1 := count_erase hc x
  rw [State.claimsOn_eq ho, State.claimsOn, Thread.claimsOn]
  omega

/-- A slot takes its claim out of the hands. -/
theorem made (h : Accounted x s) (es : Journal) (hs : Sound l s)
    (hc : ∀ c ∈ v.claim?, c ∈ s.thread.hands) (hj : s'.journal = es ++ s.journal)
    (hes : ∀ e ∈ es, e.Still) (ho : s'.owners = (s.slots.insert s.next v, s.thread.claims,
      v.claim?.elim s.thread.hands s.thread.hands.erase, s.waiting, s.ended)) : Accounted x s' := by
  refine h.still es hj hes ?_
  have h1 := count_letGoAny hc x
  have h2 := Table.sum_insert_fresh hs.fresh v fun _ v => v.owns x
  rw [Slot.owns] at h2
  rw [State.claimsOn_eq ho, State.claimsOn, Thread.claimsOn]
  omega

/-- A slot takes a claim out of the hands, and its old one goes there. -/
theorem bound (h : Accounted x s) (es : Journal) (hv : s.slots.get? id = some v)
    (hc : ⟨v.realm, o⟩ ∈ s.thread.hands) (hj : s'.journal = es ++ s.journal)
    (hes : ∀ e ∈ es, e.Still)
    (ho : s'.owners = (s.slots.modify id ({ · with value := some o }), s.thread.claims,
      v.claim?.toList ++ s.thread.hands.erase ⟨v.realm, o⟩, s.waiting, s.ended)) :
    Accounted x s' := by
  refine h.still es hj hes ?_
  have h1 := count_erase hc x
  have h2 := Table.sum_modify_of_get? hv ({ · with value := some o }) fun _ v => v.owns x
  rw [Slot.owns_some (v := { v with value := some o }) rfl, Slot.owns] at h2
  rw [State.claimsOn_eq ho, List.count_append, State.claimsOn, Thread.claimsOn]
  dsimp only at h2
  omega

/-- The claim of a slot goes into the hands. -/
theorem emptied (h : Accounted x s) (es : Journal) (hv : s.slots.get? id = some v)
    (hval : v.value = some o) (hj : s'.journal = es ++ s.journal) (hes : ∀ e ∈ es, e.Still)
    (ho : s'.owners = (s.slots.modify id ({ · with value := none }), s.thread.claims,
      ⟨v.realm, o⟩ :: s.thread.hands, s.waiting, s.ended)) : Accounted x s' := by
  refine h.still es hj hes ?_
  have h2 := Table.sum_modify_of_get? hv ({ · with value := none }) fun _ v => v.owns x
  rw [Slot.owns_none (v := { v with value := none }) rfl, Slot.owns_some hval] at h2
  rw [State.claimsOn_eq ho, ← List.singleton_append, List.count_append, State.claimsOn,
    Thread.claimsOn]
  omega

/-- The claim of a slot that ends goes into the hands. -/
theorem ended (h : Accounted x s) (es : Journal) (hv : s.slots.get? id = some v)
    (hval : v.value = some o) (hj : s'.journal = es ++ s.journal) (hes : ∀ e ∈ es, e.Still)
    (ho : s'.owners = (s.slots.erase id, s.thread.claims, ⟨v.realm, o⟩ :: s.thread.hands,
      s.waiting, s.ended)) :
    Accounted x s' := by
  refine h.still es hj hes ?_
  have h2 := Table.sum_erase_of_get? hv fun _ v => v.owns x
  rw [Slot.owns_some hval] at h2
  rw [State.claimsOn_eq ho, ← List.singleton_append, List.count_append, State.claimsOn,
    Thread.claimsOn]
  omega

end Accounted

theorem Ledger.release_error {k : Ledger} {m : Misuse} (h : k.release o = .error m) :
    m = .releaseFreed o ∨ m = .releaseUnknown o := by
  rw [Ledger.release] at h
  split at h
  · cases h
    exact .inl rfl
  · split at h
    · cases h
      exact .inr rfl
    · split at h <;> cases h

theorem Entry.still_of_refusal {k : Ledger} {m : Misuse} (h : k.acquire o = .error m) :
    (Entry.refused m).Still := by
  rw [Ledger.acquire] at h
  split at h
  · cases h
    exact ⟨rfl, rfl, rfl⟩
  · split at h <;> cases h
    exact ⟨rfl, rfl, rfl⟩

/-- **Every move keeps the account of claims**, unless there are no functions to give a native one
up with. -/
theorem Move.accounted (m : Move l s ds l' s') (hs : Sound l s) (h : Accounted x s)
    (hj : x.realm = .native → ∀ w, .event (.violated .functionsMissing) w ∉ s'.journal) :
    Accounted x s' := by
  have hdisowned : ∀ c, Journal.Tells [.disowned c] x 0 ([c].count x) :=
    fun c => ⟨rfl, Nat.zero_add _⟩
  cases m with
  | aside ha =>
    obtain ⟨es, hes, hidle⟩ := ha.journal
    refine h.same es hes (fun e he => e.still_of_idle (hidle e he)) ?_
    simp only [State.owners, ha.slots, ha.claims, ha.hands, ha.waiting, ha.ended]
  | counted | locked | unkept | parted | flagged | givenBack | reshaped =>
    exact h.same [] rfl (List.forall_mem_nil _) rfl
  | tuned | kept | given => exact h.same [_] rfl (by simp) rfl
  | retained => exact h.same [_, _] rfl (by simp) rfl
  | refusedGain hk => exact h.same [_] rfl (by simpa using Entry.still_of_refusal hk) rfl
  | dropped aloud | freedFull aloud =>
    exact h.same (_ :: State.announcement _ _ _ _) rfl
      (by cases aloud <;> simp [State.announcement]) rfl
  | freed aloud =>
    exact h.same (_ :: _ :: State.announcement _ _ _ _) rfl
      (by cases aloud <;> simp [State.announcement]) rfl
  | allocated | gained | gainedNative | adopted => exact h.gained rfl ⟨rfl, rfl⟩ rfl
  | released hc | releasedNative _ hc => exact h.lost hc rfl ⟨rfl, rfl⟩ rfl
  | disowned hc => exact h.lost hc rfl (hdisowned _) rfl
  | lost hc hk =>
    obtain rfl | rfl := Ledger.release_error hk <;> exact h.lost hc rfl ⟨rfl, rfl⟩ rfl
  | @lostNative o hc =>
    obtain ⟨realm, o'⟩ := x
    cases realm with
    | native => exact absurd List.mem_cons_self (hj rfl _)
    | counted =>
      refine h.moved [_] rfl (by simp) rfl ?_
      have h1 := count_erase hc ⟨.counted, o'⟩
      rw [List.count_singleton, if_neg (by simp)] at h1
      change _ + _ + (s.thread.hands.erase ⟨.native, o⟩).count _ = _
      rw [Thread.claimsOn, h1]
      exact Nat.add_assoc _ _ _
  | @taken key o hk =>
    refine h.moved [] rfl (List.forall_mem_nil _) rfl ?_
    have h1 := Table.sum_erase_of_get? hk fun _ o => [(⟨.counted, o⟩ : Claim)].count x
    change s.slots.sum _ + (s.thread.claims.erase key).sum _ +
      ([⟨.counted, o⟩] ++ s.thread.hands : List Claim).count x = _
    rw [List.count_append, Thread.claimsOn]
    omega
  | @handed key o hc =>
    refine h.moved [_] rfl (by simp) rfl ?_
    have h1 := count_erase hc x
    have h2 := s.thread.claims.sum_eq_sum_erase key fun _ o => [(⟨.counted, o⟩ : Claim)].count x
    have h3 := s.thread.claims.sum_insert key o fun _ o => [(⟨.counted, o⟩ : Claim)].count x
    have h4 : ((s.thread.claims.get? key).map (⟨.counted, ·⟩ : ObjectId → Claim)).toList.count x =
        ((s.thread.claims.get? key).map fun o => [(⟨.counted, o⟩ : Claim)].count x).getD 0 := by
      cases s.thread.claims.get? key <;> rfl
    change s.slots.sum _ + (s.thread.claims.insert key o).sum _ +
      (((s.thread.claims.get? key).map (⟨.counted, ·⟩ : ObjectId → Claim)).toList ++
        s.thread.hands.erase ⟨.counted, o⟩).count x = _
    rw [List.count_append, Thread.claimsOn]
    omega
  | made _ _ hc => exact h.made [_, _] hs hc rfl (by simp) rfl
  | madeShared _ hc => exact h.made [_, _, _] hs hc rfl (by simp) rfl
  | bound hv hc => exact h.bound [_, _] hv hc rfl (by simp) rfl
  | boundFull hv hc => exact h.bound [_] hv hc rfl (by simp) rfl
  | emptied _ hv ho => exact h.emptied [_, _] hv ho rfl (by simp) rfl
  | emptiedFull hv ho => exact h.emptied [_] hv ho rfl (by simp) rfl
  | @ended id v form hl hv ho =>
    refine h.still [_] rfl (by simp) ?_
    have h1 := Table.sum_erase_of_get? hv fun _ v => v.owns x
    rw [Slot.owns_none ho] at h1
    exact congrArg (· + _ + _) h1.symm
  | endedBound _ hv ho => exact h.ended [_, _] hv ho rfl (by simp) rfl
  | endedFull _ hv ho => exact h.ended [_] hv ho rfl (by simp) rfl

/-! ## Every run -/

/-- Threads take what they have along. -/
theorem Accounted.startThread (h : Accounted x s) : Accounted x s.startThread := by
  have hsum : s.startThread.claimsOn x = s.claimsOn x := by
    show s.slots.sum _ + 0 +
      (List.map (Thread.claimsOn · x) (s.thread :: (s.waiting ++ s.ended))).sum = _
    rw [List.map_cons, List.sum_cons, State.claimsOn]
    omega
  exact h.still [] rfl (List.forall_mem_nil _) hsum

theorem Accounted.endThread (h : Accounted x s') (hw : s'.waiting = s.thread :: s.waiting) :
    Accounted x (s'.endThread s) := by
  have hsum : (s'.endThread s).claimsOn x = s'.claimsOn x := by
    show s'.slots.sum _ + s.thread.claimsOn x +
      ((s.waiting ++ s'.thread :: s'.ended).map (Thread.claimsOn · x)).sum = _
    rw [State.claimsOn, hw]
    simp only [List.map_append, List.map_cons, List.sum_append, List.sum_cons, List.cons_append]
    omega
  exact h.still [] rfl (List.forall_mem_nil _) hsum

/-- Nothing breaks the account of the claims that the ledgers count. -/
theorem Stable.accounted (hx : x.realm = .counted) : Stable (Accounted x) where
  move hs m h := m.accounted hs h fun hn => nomatch hx.symm.trans hn
  startThread h := h.startThread
  endThread _ hw h := h.endThread hw

theorem Accounted.start (x : Claim) (build : Build) (profiling : Bool)
    (environment : Table String Text.Utf8.Bytes) (file : FileContent) :
    Accounted x (.start build profiling environment file) :=
  rfl

/-- **Every claim that came in is somewhere, or went out**, in every state that is reached. -/
theorem Reached.accounted (h : Reached s) (o : ObjectId) : Accounted ⟨.counted, o⟩ s :=
  h.stable (.accounted rfl) (.start _)

end ClaimCells
