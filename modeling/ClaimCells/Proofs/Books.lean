import ClaimCells.Proofs.Earnings
import ClaimCells.Proofs.Prompt
import ClaimCells.Proofs.Tally

/-!
# The three books

The trace, the profiler and the ledger are written independently of each other. They agree over
every run in which the profiler is left to the cells and no release is refused: the counters are what
the trace tells, every claim that the profiler counts as released is released in the ledger, directly
after the word about it, and all other releases are of claims that were in no cell.

Main results: `Reached.booked`, the ledgers are what the journal tells, `Reached.paired`, a release
follows the word about it, and `books_agree`.
-/

namespace ClaimCells

variable {s s' t : State} {l l' : List Cell} {ds : List Deed} {es j : Journal} {e : Entry} {o : ObjectId}
  {op : Op} {G : Prop}

/-! ## The ledgers -/

/-- How many claims were added to objects that had one already, on all threads. -/
def State.acquires (s : State) : Nat :=
  ((s.thread :: (s.waiting ++ s.ended)).map (·.ledger.acquires)).sum

/-- How many claims were released, on all threads. -/
def State.releases (s : State) : Nat :=
  ((s.thread :: (s.waiting ++ s.ended)).map (·.ledger.releases)).sum

/-- The ledger counted one more claim. -/
def Entry.acquires : Entry → Bool
  | .acquired _ => true
  | _ => false

/-- The ledger counted one claim less. -/
def Entry.releases : Entry → Bool
  | .released _ => true
  | _ => false

/-- The ledgers have counted what the journal tells. -/
structure State.Booked (s : State) : Prop where
  acquires : s.acquires = s.journal.countP Entry.acquires
  releases : s.releases = s.journal.countP Entry.releases

theorem Ledger.release_counts {k k' : Ledger} (h : k.release o = .ok k') :
    k'.acquires = k.acquires ∧ k'.releases = k.releases + 1 := by
  rw [Ledger.release] at h
  split at h
  · cases h
  · split at h
    · cases h
    · split at h <;> cases h <;> exact ⟨rfl, rfl⟩

namespace State.Booked

theorem step (h : s.Booked) (es : Journal) (hj : s'.journal = es ++ s.journal)
    (hw : (s'.waiting, s'.ended) = (s.waiting, s.ended))
    (ha : s'.thread.ledger.acquires = s.thread.ledger.acquires + es.countP Entry.acquires)
    (hr : s'.thread.ledger.releases = s.thread.ledger.releases + es.countP Entry.releases) :
    s'.Booked := by
  obtain ⟨hacq, hrel⟩ := h
  simp only [Prod.mk.injEq] at hw
  rw [State.acquires, List.map_cons, List.sum_cons] at hacq
  rw [State.releases, List.map_cons, List.sum_cons] at hrel
  constructor
  · rw [State.acquires, hj, hw.1, hw.2, List.map_cons, List.sum_cons, List.countP_append]
    omega
  · rw [State.releases, hj, hw.1, hw.2, List.map_cons, List.sum_cons, List.countP_append]
    omega

/-- Nothing is counted. -/
theorem still (h : s.Booked) (es : Journal) (hj : s'.journal = es ++ s.journal)
    (hw : (s'.waiting, s'.ended, s'.thread.ledger.acquires, s'.thread.ledger.releases) =
      (s.waiting, s.ended, s.thread.ledger.acquires, s.thread.ledger.releases))
    (hes : ∀ e ∈ es, e.acquires = false ∧ e.releases = false) : s'.Booked := by
  simp only [Prod.mk.injEq] at hw
  refine h.step es hj (by rw [hw.1, hw.2.1]) ?_ ?_
  · rw [hw.2.2.1, List.countP_eq_zero.2 fun e he => by simp [hes e he], Nat.add_zero]
  · rw [hw.2.2.2, List.countP_eq_zero.2 fun e he => by simp [hes e he], Nat.add_zero]

end State.Booked

theorem Entry.unbooked_of_idle (h : e.idle = true) : e.acquires = false ∧ e.releases = false := by
  cases e <;> first | exact ⟨rfl, rfl⟩ | cases h

theorem Move.booked (m : Move l s ds l' s') (h : s.Booked) : s'.Booked := by
  cases m with
  | aside ha =>
    obtain ⟨es, hj, hes⟩ := ha.journal
    exact h.still es hj (by rw [ha.waiting, ha.ended, ha.ledger]) fun e he =>
      Entry.unbooked_of_idle (hes e he)
  | gained hk =>
    obtain ⟨n, -, -, rfl⟩ := Ledger.acquire_eq hk
    exact h.step [_] rfl rfl rfl rfl
  | released _ hk =>
    obtain ⟨ha, hr⟩ := Ledger.release_counts hk
    exact h.step [_] rfl rfl ha hr
  | dropped aloud | freedFull aloud =>
    exact h.still (_ :: State.announcement _ _ _ _) rfl rfl
      (by cases aloud <;> simp [State.announcement, Entry.acquires, Entry.releases])
  | freed aloud =>
    exact h.still (_ :: _ :: State.announcement _ _ _ _) rfl rfl
      (by cases aloud <;> simp [State.announcement, Entry.acquires, Entry.releases])
  | counted | locked | unkept | parted | flagged | givenBack | reshaped | taken =>
    exact h.still [] rfl rfl (List.forall_mem_nil _)
  | made | bound | emptied | endedBound | retained =>
    exact h.still [_, _] rfl rfl (by simp [Entry.acquires, Entry.releases])
  | madeShared => exact h.still [_, _, _] rfl rfl (by simp [Entry.acquires, Entry.releases])
  | _ => exact h.still [_] rfl rfl (by simp [Entry.acquires, Entry.releases])

theorem Stable.booked : Stable State.Booked where
  move _ m h := m.booked h
  startThread {s} h := by
    refine ⟨?_, ?_⟩
    · exact (Nat.zero_add _).trans h.acquires
    · exact (Nat.zero_add _).trans h.releases
  endThread {s s'} _ hw h := by
    obtain ⟨ha, hr⟩ := h
    rw [State.acquires, hw] at ha
    rw [State.releases, hw] at hr
    constructor
    · show (List.map _ (s.thread :: (s.waiting ++ s'.thread :: s'.ended))).sum = s'.journal.countP _
      rw [← ha]
      simp only [List.map_append, List.map_cons, List.sum_append, List.sum_cons, List.cons_append]
      omega
    · show (List.map _ (s.thread :: (s.waiting ++ s'.thread :: s'.ended))).sum = s'.journal.countP _
      rw [← hr]
      simp only [List.map_append, List.map_cons, List.sum_append, List.sum_cons, List.cons_append]
      omega

/-- **The ledgers have counted what the journal tells**, in every state that is reached. -/
theorem Reached.booked (h : Reached s) : s.Booked :=
  h.stable .booked fun _ _ _ _ => ⟨rfl, rfl⟩

/-! ## Releases that follow the word -/

/-- The entry tells that a variable gave up its claim. -/
def Entry.givesUp : Entry → Bool
  | .event e _ => e.givesUp
  | _ => false

/-- The last entry does. -/
def Journal.givesUp : Journal → Bool
  | e :: _ => e.givesUp
  | [] => false

/-- Directly after the word that a variable gave up its claim a claim ends. -/
def Journal.Paired : Journal → Prop
  | [] => True
  | e :: j => (Journal.givesUp j = true → ∃ x, e.Ends x) ∧ Paired j

/-- And none is left to end. -/
structure State.Paired (s : State) : Prop where
  paired : s.journal.Paired
  settled : s.journal.givesUp = false

theorem Entry.Calm.givesUp (h : e.Calm G) : e.givesUp = false := by
  cases e <;> first | rfl | exact h

/-- Nothing is told of a variable that gave up its claim. -/
theorem Journal.Paired.append (es : Journal) (h : j.Paired ∧ j.givesUp = false) (hes : ∀ e ∈ es, e.givesUp = false) :
    Journal.Paired (es ++ j) ∧ Journal.givesUp (es ++ j) = false := by
  induction es with
  | nil => exact h
  | cons e es ih =>
    obtain ⟨hp, hn⟩ := ih fun e' he' => hes e' (List.mem_cons_of_mem _ he')
    refine ⟨⟨fun hg => ?_, hp⟩, hes e List.mem_cons_self⟩
    exact nomatch hn.symm.trans hg

theorem Stride.paired (h : Stride G s t) (hs : s.Paired) : t.Paired := by
  cases h with
  | calm h =>
    obtain ⟨-, es, hj, hes⟩ := h
    have hp := Journal.Paired.append es ⟨hs.paired, hs.settled⟩ fun e he => (hes e he).givesUp
    rw [← hj] at hp
    exact ⟨hp.1, hp.2⟩
  | deed d es _ hj hes =>
    have hdid : Journal.Paired (.did d :: s.journal) ∧ Journal.givesUp (.did d :: s.journal) = false :=
      Journal.Paired.append [.did d] ⟨hs.paired, hs.settled⟩ (by simp [Entry.givesUp])
    have hp : Journal.Paired t.journal ∧ Journal.givesUp t.journal = false := by
      rw [hj]
      cases hes with
      | silent => exact hdid
      | told w he => exact ⟨⟨nofun, hdid.1⟩, he⟩
      | givenUp _ _ he' =>
        exact ⟨⟨fun _ => ⟨_, he'⟩, nofun, hdid.1⟩, (he'.calm (G := True)).givesUp⟩
    exact ⟨hp.1, hp.2⟩

theorem Strode.paired (h : Strode G s t) (hs : s.Paired) : t.Paired := by
  induction h with
  | refl => exact hs
  | tail _ h ih => exact h.paired ih

theorem State.Paired.aside (h : s.Paired) (ha : Aside s t) : t.Paired := by
  obtain ⟨es, hj, hes⟩ := ha.journal
  exact Stride.paired (G := True) (.calm ⟨ha.slots, es, hj, fun e he => e.calm_of_idle (hes e he)⟩) h

theorem paired_upheld (p : Op → Prop) : Upheld p State.Paired where
  course _ _ _ hs := (course_strides _ _).keeps (fun h => h.paired) hs
  answered r h := h.aside (answered_aside r _)
  hooked g h := h.aside (hook_aside g _)
  startThread h := ⟨h.paired, h.settled⟩
  endThread _ h := ⟨h.paired, h.settled⟩
  switch _ h := ⟨h.paired, h.settled⟩

/-- **A claim ends directly after the word that a variable gave it up**, in every state that is
reached. -/
theorem Reached.paired (h : Reached s) : s.Paired :=
  (h.by_all.upheld (paired_upheld _) fun _ _ _ _ => ⟨trivial, rfl⟩).1

namespace Journal

/-- How many entries of a sort come directly after the word that a variable gave up its claim. -/
def following (p : Entry → Bool) : Journal → Nat
  | [] => 0
  | e :: j => following p j + (givesUp j && p e).toNat

/-- How many claims were released without such a word. -/
def free : Journal → Nat
  | [] => 0
  | e :: j => free j + (!givesUp j && e.releases).toNat

theorem free_measure : Measure free :=
  ⟨fun _ _ => by simp [free, Entry.releases], fun _ _ => by simp [free, Entry.releases]⟩

/-- Every release is of one sort or the other. -/
theorem countP_releases (j : Journal) :
    j.countP Entry.releases = j.following Entry.releases + j.free := by
  induction j with
  | nil => rfl
  | cons e j ih =>
    rw [List.countP_cons, following, free, ih]
    cases givesUp j <;> cases e.releases <;> simp <;> omega

end Journal

/-- The native release function was called. -/
def Entry.callsRelease : Entry → Bool
  | .called _ .released _ => true
  | _ => false

/-- The native acquire function was called. -/
def Entry.callsAcquire : Entry → Bool
  | .called _ .acquired _ => true
  | _ => false

theorem Journal.gained_eq (j : Journal) :
    j.gained = j.countP Entry.acquires + j.countP Entry.callsAcquire := by
  induction j with
  | nil => rfl
  | cons e j ih =>
    rw [gained, List.countP_cons, List.countP_cons, List.countP_cons]
    rw [gained] at ih
    rw [ih]
    have hone : e.gains.toNat = e.acquires.toNat + e.callsAcquire.toNat := by
      cases e with
      | called l m o => cases m <;> rfl
      | _ => rfl
    simp only [← Bool.cond_eq_ite]
    simp only [Bool.toNat] at hone
    omega

/-- What was asked for was refused. -/
def Entry.refuses : Entry → Bool
  | .refused _ | .event (.violated _) _ => true
  | _ => false

/-- No release of a claim that a variable gave up is refused. -/
def Journal.Smooth : Journal → Prop
  | [] => True
  | e :: j => (Journal.givesUp j = true → e.refuses = false) ∧ Smooth j

instance Journal.decidableSmooth : DecidablePred Journal.Smooth
  | [] => .isTrue trivial
  | _ :: j => @instDecidableAnd _ _ (inferInstanceAs (Decidable (_ → _))) (decidableSmooth j)

theorem Entry.Ends.released {x : Claim} (h : e.Ends x) (hr : e.refuses = false) :
    e.releases.toNat + e.callsRelease.toNat = 1 := by
  obtain h | ⟨-, w, rfl⟩ := h
  · cases e with
    | released => rfl
    | refused m => cases hr
    | called l m o => cases m <;> first | rfl | cases h
    | _ => cases h
  · cases hr

/-- **A release follows every word of a claim that was given up.** -/
theorem Journal.Paired.following (h : j.Paired) (hj : j.Smooth) (hn : j.givesUp = false) :
    j.countP Entry.givesUp = j.following Entry.releases + j.following Entry.callsRelease := by
  -- a word at the head of the journal waits for its release
  suffices hall : j.countP Entry.givesUp = j.following Entry.releases +
      j.following Entry.callsRelease + j.givesUp.toNat by
    rw [hall, hn]
    rfl
  clear hn
  induction j with
  | nil => rfl
  | cons e j ih =>
    rw [List.countP_cons, ih h.2 hj.2, Journal.following, Journal.following]
    have hhead : Journal.givesUp (e :: j) = e.givesUp := rfl
    rw [hhead]
    cases hg : Journal.givesUp j with
    | false => cases e.givesUp <;> simp
    | true =>
      obtain ⟨x, hx⟩ := h.1 hg
      have hone := hx.released (hj.1 hg)
      simp only [Bool.true_and, Bool.toNat_true]
      cases e.givesUp <;> simp <;> omega

/-- The profiler counts a release with every such word. -/
theorem Entry.counted_releases (e : Entry) :
    (CellKind.all.map fun k => e.counted.count (k, .released)).sum = e.givesUp.toNat := by
  cases e with
  | event ev w =>
    cases ev with
    | constructed k _ b | assigned k _ b => cases k <;> cases b <;> rfl
    | unbound k _ r => cases k <;> cases r <;> rfl
    | destroyedBound k => cases k <;> rfl
    | _ => rfl
  | _ => rfl

theorem Journal.counted_releases (j : Journal) :
    (CellKind.all.map fun k => j.counted.count (k, .released)).sum = j.countP Entry.givesUp := by
  induction j with
  | nil => rfl
  | cons e j ih =>
    have hcons (k : CellKind) : (Journal.counted (e :: j)).count (k, .released) =
        e.counted.count (k, .released) + (Journal.counted j).count (k, .released) :=
      List.count_append
    simp only [hcons, List.sum_map_add]
    rw [ih, e.counted_releases, List.countP_cons, Nat.add_comm]
    cases e.givesUp <;> rfl

/-! ## Claims that are released by hand -/

namespace Action

open Act (Grows)

/-- What a release of a claim that nobody kept count of comes to. -/
def Freed (r : Except Failure Answer) (k : Int) : Prop :=
  k = if r.toBool then 1 else 0

/-- What is done about a claim that is released from nobody's hands. -/
theorem performRelease_eq (o : ObjectId) : performObject (.release o) = (do
    requireKnown o
    adopt ⟨.counted, o⟩
    letGo ⟨.counted, o⟩
    let _ ← settleLedger ((← thread).ledger.release o)
    note (.released o)
    send ⟨.counted, .released, o⟩
    let t ← thread
    let _ ← (if t.ledger.isFreed o then send ⟨.counted, .freed, o⟩ else pure () : Action Unit)
    return .nothing) := by
  simp only [performObject, release, bind_assoc]

/-- Such a release is done, or refused and nothing else. -/
theorem release_grows (o : ObjectId) (s : State) :
    (unwinding (performObject (.release o)) s).Grows (·.journal.free)
      (fun r k => k = if r.toBool then 1 else 0) 0 s := by
  by_cases hk : o ∈ s.thread.known
  · let u := ((s.note (.adopted ⟨.counted, o⟩)).hold ⟨.counted, o⟩).letGo ⟨.counted, o⟩
    have hhands : u.thread.hands = s.thread.hands := List.erase_cons_head ..
    have hrun : performObject (.release o) s =
        (settleLedger (u.thread.ledger.release o) u).bind fun _ => (do
          note (.released o)
          send ⟨.counted, .released, o⟩
          let t ← thread
          let _ ← (if t.ledger.isFreed o then send ⟨.counted, .freed, o⟩ else pure () : Action Unit)
          return .nothing : Action Answer) := by
      rw [performRelease_eq, bind_apply, requireKnown_some hk]
      rfl
    cases hl : u.thread.ledger.release o with
    | error m =>
      rw [hl, settleLedger_error, raise_bind] at hrun
      obtain hraise | ⟨h, hraise⟩ := raise_eq Answer (.misuse m) (u.note (.refused m))
      · rw [unwinding_fail (hrun.trans hraise) hhands]
        show (0 : Int) + ((Journal.free (.refused m :: .adopted _ :: s.journal) : Int) - _) = 0
        simp [Journal.free, Entry.releases]
      · rw [unwinding_halt (hrun.trans hraise)]
        trivial
    | ok k =>
      rw [hl, settleLedger_ok, done_bind] at hrun
      simp only [unwinding, bind_apply, thread_apply, done_bind, attempt_apply, hrun]
      refine Grows.tried (P := fun r k => k = 1 ∧ ∃ x, r = .ok x) (fun t => ?_) ?_
      · have hone : (0 : Int) + ((Journal.free (.released o :: .adopted ⟨.counted, o⟩ :: s.journal) : Int) -
            s.journal.free) = 1 := by
          simp [Journal.free, Journal.givesUp, Entry.givesUp, Entry.releases]
        change Grows _ _ ((0 : Int) + (Journal.free (.released o :: .adopted ⟨.counted, o⟩ :: s.journal) -
          s.journal.free)) t ((ite (t.thread.ledger.isFreed o = true) (send ⟨.counted, .freed, o⟩)
            (pure ()) >>= fun _ => pure Answer.nothing : Action Answer) t)
        rw [hone]
        split
        · exact fun u => ⟨by omega, _, rfl⟩
        · exact ⟨by omega, _, rfl⟩
      · rintro _ _ t ⟨rfl, x, rfl⟩
        show (1 : Int) + (_ - _) = 1
        omega
  · rw [unwinding_fail (f := .noSuchObject)
      (by rw [performRelease_eq, bind_apply, requireKnown_none hk, fail_bind]) rfl]
    show (0 : Int) + (_ - _) = 0
    omega

end Action

/-! ## Every run -/

/-- A claim is released that no cell and no key holds. -/
def Op.releasesRaw : Op → Bool
  | .object (.release _) => true
  | _ => false

namespace Call

variable {c : Call}

/-- Such a claim was released. -/
def releasesRaw (c : Call) : Bool :=
  c.op.releasesRaw && c.reply.toBool

/-- The operation itself acquired a claim. -/
def acquires (c : Call) : Bool :=
  c.growth Journal.gained = 1

theorem Done.free (h : c.Done) (hop : c.op.releasesRaw = true) :
    c.growth Journal.free = c.releasesRaw.toNat := by
  obtain ⟨n, s, s', -, hrun, hstretches⟩ := h
  cases hc : c.op with
  | object op =>
    cases op with
    | release o =>
      rw [hc] at hrun hstretches
      have hgrows := (Action.release_grows o s).settle hrun
      rw [Int.zero_add] at hgrows
      rw [growth, hstretches]
      refine hgrows.trans ?_
      rw [releasesRaw, hop, Bool.true_and]
      cases c.reply <;> rfl
    | _ => rw [hc] at hop; cases hop
  | _ => rw [hc] at hop; cases hop

theorem Done.gained (h : c.Done) :
    c.growth Journal.gained = c.acquires.toNat ∧ (c.acquires = true → c.op.Gains) ∧
      (c.op.Gains → c.reply.toBool = true → c.acquires = true) := by
  obtain ⟨n, s, s', -, hrun, hstretches⟩ := h
  have hsum : c.growth Journal.gained =
      0 + ClaimCells.growthOf State.gained ((c.op.course s).stretches (react (step n)) s) := by
    rw [growth, hstretches, Int.zero_add, growth_eq]
  by_cases hop : c.op.Gains
  · have hgrows := (course_earns hop s).settle hrun
    rw [← hsum] at hgrows
    obtain hone | ⟨hzero, f, hf⟩ := hgrows
    · have hacq : c.acquires = true := decide_eq_true hone
      exact ⟨by rw [hone, hacq]; rfl, fun _ => hop, fun _ _ => hacq⟩
    · have hacq : c.acquires = false := decide_eq_false (by rw [hzero]; decide)
      exact ⟨by rw [hzero, hacq]; rfl, fun _ => hop, fun _ hr => by rw [hf] at hr; cases hr⟩
  · have hzero := (course_idles hop s).settle hrun
    rw [← hsum] at hzero
    have hacq : c.acquires = false := decide_eq_false (by rw [hzero]; decide)
    exact ⟨by rw [hzero, hacq]; rfl, fun h => absurd (hacq.symm.trans h) nofun, fun h => absurd h hop⟩

end Call

section Calls

variable {L : List Call}

/-- What operations acquire is one claim each. -/
theorem sum_gained (h : ∀ c ∈ L, c.Done) :
    (L.map (·.growth Journal.gained)).sum = L.countP Call.acquires := by
  induction L with
  | nil => rfl
  | cons c L ih =>
    obtain ⟨hc, hL⟩ := List.forall_mem_cons.1 h
    rw [List.map_cons, List.sum_cons, ih hL, hc.gained.1, List.countP_cons]
    cases c.acquires <;> simp
    omega

/-- Those that release a claim that nobody holds release one each. -/
theorem sum_free (h : ∀ c ∈ L, c.Done) : (L.map (·.growth Journal.free)).sum =
    L.countP Call.releasesRaw +
      ((L.filter (!·.op.releasesRaw)).map (·.growth Journal.free)).sum := by
  induction L with
  | nil => rfl
  | cons c L ih =>
    obtain ⟨hc, hL⟩ := List.forall_mem_cons.1 h
    rw [List.map_cons, List.sum_cons, ih hL, List.countP_cons]
    cases hop : c.op.releasesRaw with
    | true =>
      rw [hc.free hop, List.filter_cons_of_neg (by simp [hop])]
      cases c.releasesRaw <;> simp
      omega
    | false =>
      have hraw : c.releasesRaw = false := by rw [Call.releasesRaw, hop, Bool.false_and]
      rw [List.filter_cons_of_pos (by simp [hop]), List.map_cons, List.sum_cons, hraw]
      simp
      omega

end Calls

/-- The operations of a script, and all those within them. -/
def Script.calls (body : Script) (n : Nat) (s : State) : List Call :=
  scriptCalls (step n) (ClaimCells.calls n) body s

/-- **Trace, counters and ledger agree**, at the end of every run in which the counters are left to
the cells and no claim that a variable gave up is refused. For each kind the counters are what the
trace tells. All releases on the ledger, and of claims that variables gave up to native functions,
are those the profiler counted, those by hand, and those of claims that were dropped otherwise. All
claims that were acquired were acquired by operations that may do so, one each, and by each of them
that succeeded. -/
theorem books_agree {body : Script} {build : Build} {environment : Table String Text.Utf8.Bytes}
    {file : FileContent} {n : Nat}
    (hrun : runNested (step n) body (.start build true environment file) = .ok s)
    (hop : body.Only Op.LeavesCounters) (hlit : s.journal.Lit) (hroom : ¬ s.profiler.Full)
    (hsmooth : s.journal.Smooth) :
    let done := body.calls n (.start build true environment file)
    (∀ k, s.profiler.Traces s.journal.events k) ∧
    (s.releases + s.journal.following Entry.callsRelease : Int) =
      (CellKind.all.map fun k => (s.profiler.kindStats k).released.toNat).sum +
        done.countP Call.releasesRaw +
        ((done.filter (!·.op.releasesRaw)).map (·.growth Journal.free)).sum ∧
    s.acquires + s.journal.countP Entry.callsAcquire = done.countP Call.acquires ∧
    ∀ c ∈ done, (c.acquires = true → c.op.Gains) ∧
      (c.op.Gains → c.reply.toBool = true → c.acquires = true) := by
  intro done
  have hreached : Reached s := (Reached.start _ _ _ _).script hrun
  have htallied : s.Tallied := (runNested_upholds tallied_upheld (step_lawful n)
    (tallied_upheld.step n) hop (.start _ _ _ _) ⟨fun _ => rfl, fun _ _ k e _ => by
      cases k <;> cases e <;> rfl⟩ (.start _ _ _ _) hrun).1
  have hdone : ∀ c ∈ done, c.Done := fun c hc => scriptCalls_done (calls_done n) hc
  refine ⟨htallied.traces hlit hroom, ?_, ?_, fun c hc => (hdone c hc).gained.2⟩
  · have hfree : (s.journal.free : Int) - _ = (done.map (·.growth Journal.free)).sum :=
      scriptCalls_grow Journal.free_measure.states (calls_grow Journal.free_measure.states n) hrun
    rw [sum_free hdone] at hfree
    have hbooked := hreached.booked.releases
    rw [Journal.countP_releases] at hbooked
    have hfollow := hreached.paired.paired.following hsmooth hreached.paired.settled
    have hcounted : (CellKind.all.map fun k => (s.profiler.kindStats k).released.toNat).sum =
        s.journal.countP Entry.givesUp := by
      rw [← Journal.counted_releases]
      exact congrArg List.sum (List.map_congr_left fun k _ =>
        htallied.counter hlit hroom k .released nofun)
    have hstart : Journal.free (State.start build true environment file).journal = 0 := rfl
    rw [hstart] at hfree
    omega
  · have hgained : (s.journal.gained : Int) - _ = (done.map (·.growth Journal.gained)).sum :=
      scriptCalls_grow Journal.gained_measure.states (calls_grow Journal.gained_measure.states n) hrun
    rw [sum_gained hdone] at hgained
    have hstart : Journal.gained (State.start build true environment file).journal = 0 := rfl
    rw [hstart] at hgained
    have hbooked := hreached.booked.acquires
    have hsplit := s.journal.gained_eq
    omega

/-- A cell is read, and bound to another object; the claim that was read is dropped, and one on the
other object added and released by hand. -/
theorem books_agree_rebound : ∃ s : State, s.releases = 3 ∧ s.acquires = 2 ∧
    (s.profiler.kindStats .plain).released.toNat = s.journal.events.countP (·.rebinds .plain) +
      s.journal.events.countP (·.unbinds .plain .release) +
      s.journal.events.countP (·.destroysBound .plain) := by
  let body : Script := [.object (.allocate (some "a")), .cell (.make "c" (.plain "" (some "a"))),
    .cell (.use "c" false (.readOwned "b")), .object (.allocate (some "d")),
    .cell (.use "c" false (.assign "d")), .object (.dropClaim "b"), .object (.acquire 2),
    .object (.release 2)]
  have hleaves : (runNested (step 1) body (.start .plain true {} none)).toOption.map (fun s =>
      (s.releases, s.acquires, decide s.journal.Smooth, s.journal.tunings.isEmpty,
        CellKind.all.all fun k => [.constructed, .bound, .released, .transferred, .unboundAccess,
          .cellFreed].all fun e => (s.profiler.record k e).isSome)) =
      some (3, 2, true, true, true) := by
    decide +kernel
  obtain ⟨s, hrun, hseen⟩ := Option.map_eq_some_iff.1 hleaves
  simp only [Prod.mk.injEq, decide_eq_true_eq, List.isEmpty_iff] at hseen
  obtain ⟨hreleases, hacquires, hsmooth, htunings, hcounters⟩ := hseen
  have hok : runNested (step 1) body (.start .plain true {} none) = .ok s := by
    cases hr : runNested (step 1) body (.start .plain true {} none) with
    | error e => rw [hr] at hrun; cases hrun
    | ok t => rw [hr] at hrun; cases hrun; rfl
  have hlit : s.journal.Lit := by
    rw [Journal.Lit, htunings]
    exact List.forall_mem_nil _
  have hroom : ¬ s.profiler.Full := by
    rintro ⟨k, e, h⟩
    have hk := List.all_eq_true.1 (List.all_eq_true.1 hcounters k (by cases k <;> decide)) e
      (by cases e <;> decide)
    rw [h] at hk
    cases hk
  exact ⟨s, hreleases, hacquires, ((books_agree hok (by simp [onlyOf, body, Op.Only, Op.LeavesCounters])
    hlit hroom hsmooth).1 .plain).released⟩

end ClaimCells
