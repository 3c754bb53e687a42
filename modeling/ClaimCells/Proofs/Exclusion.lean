import ClaimCells.Proofs.Refusals

/-!
# Locks keep changes out

With plain counters a lock is refused just when a cell is to be changed from within a read that
acquires a claim on its value. So the value that such a read acquired a claim on is still there when
the read answers.

The cells from which claims are being acquired are told by `Amid`.

Main result: `locks_exclude`.
-/

namespace ClaimCells

open Act (Outcome)

variable {α β : Type} {s s' t u w : State} {L : List SlotId} {id : SlotId} {a : Access}
  {key : String} {k : KeptId} {e : Kept} {o : ObjectId} {l : List Cell} {ds : List Deed}
  {Q : Post α}

section Courses

variable {x : Act α} {react : Signal → State → Except (Halt × State) State} {R : Prop}
  {W : Signal → List SlotId}

/-! ## Panics -/

/-- The course, when `react` runs what signals set off, breaks off with the panic. -/
inductive Act.Panics (react : Signal → State → Except (Halt × State) State) (p : Panic) :
    Act α → Prop
  | failed (t : State) : Panics react p (.fail (.panic p) t)
  | fatal (t : State) : Panics react p (.halt (.fatal p) t)
  | later {g : Signal} {t t' : State} {next : State → Act α} (h : react g t = .ok t')
      (hn : Panics react p (next t')) : Panics react p (.send g t next)

/-- A course that breaks off ends so. -/
theorem Act.Panics.settle {p : Panic} (h : x.Panics react p) :
    ∃ t, x.settle react = .ended (.error (.panic p)) t ∨ x.settle react = .halted (.fatal p) t := by
  induction h with
  | failed t => exact ⟨t, .inl rfl⟩
  | fatal t => exact ⟨t, .inr rfl⟩
  | later h _ ih =>
    rw [Act.settle, h]
    exact ih

theorem Act.panics_of_ended {p : Panic} (h : x.settle react = .ended (.error (.panic p)) t) :
    x.Panics react p := by
  induction x with
  | done => cases h
  | fail f u =>
    cases h
    exact .failed _
  | halt => cases h
  | send g u next ih =>
    rw [Act.settle] at h
    split at h
    · next u' hu' => exact .later hu' (ih u' h)
    · cases h

/-- Only what the course says can make a lock refuse it. -/
theorem Act.Holds.panics (hx : x.Holds R W L s) (hr : Lawful react) (hk : SparesLocks react)
    (hs : Sound l s) (h : x.Does Q ds l s) (hp : x.Panics react .relocked) : R := by
  induction hp generalizing ds l s with
  | failed t => exact hx.2 rfl
  | fatal t => exact hx rfl
  | @later g t t' next ht' _ ih =>
    obtain ⟨ds', m, hn⟩ := h
    have ht := m.sound hs
    obtain ⟨hc, hs'⟩ := hr g t t' ht ht'
    obtain ⟨hlocked, hheld⟩ := hk _ g t t' ht hx.1.1 ht'
    exact ih (hx.2 t' hlocked hheld) hs' (hn t' hc hs')

/-! ## Nobody waits -/

/-- The course waits for a lock only where counters are atomic. -/
def Act.Patient : Act α → Prop
  | halt h t => h = .blocked → t.build.mode = .atomic
  | send _ _ next => ∀ t, (next t).Patient
  | _ => True

namespace Act.Patient

theorem bind {k : α → State → Act β} (h : x.Patient) (hk : ∀ a t, (k a t).Patient) :
    (x.bind k).Patient := by
  induction x with
  | done a t => exact hk a t
  | fail => trivial
  | halt => exact h
  | send g t next ih => exact fun t => ih t (h t)

theorem tried {k : Except Failure α → State → Act β} (h : x.Patient)
    (hk : ∀ r t, (k r t).Patient) : (x.attempt.bind k).Patient := by
  induction x with
  | done a t | fail a t => exact hk _ t
  | halt => exact h
  | send g t next ih => exact fun t => ih t (h t)

end Act.Patient

namespace Action

open Act (Patient)

variable {S : Scope}

theorem raise_patient (p : Panic) (s : State) : (raise p s : Act α).Patient := by
  simp only [raise, bind_apply, thread_apply, done_bind, ite_apply]
  split
  · trivial
  · exact fun h => by cases h

theorem sharing_patient (id : SlotId) (s : State) : (sharing id s).Patient := by
  show (demand _ (s.sharing.get? id) s).Patient
  cases s.sharing.get? id <;> trivial

theorem lockForReading_patient (id : SlotId) (s : State) : (lockForReading id s).Patient := by
  refine .bind (sharing_patient id s) fun sh t => ?_
  simp only [bind_apply, get_apply, done_bind, ite_apply]
  split
  · next h => exact fun _ => h.2
  · trivial

theorem lockForChange_patient (id : SlotId) (s : State) : (lockForChange id s).Patient := by
  refine .bind (sharing_patient id s) fun sh t => ?_
  simp only [bind_apply, get_apply, done_bind, ite_apply]
  split
  · cases hm : t.build.mode with
    | plain => exact raise_patient _ t
    | atomic => exact fun _ => hm
  · trivial

theorem Cellular.patient {a : Action α} (h : Cellular S a) (hS : S.refuses) (s : State) :
    (a s).Patient := by
  induction h generalizing s with
  | pure | fail | eraseClaim | insertClaim => trivial
  | halt h _ hb => exact fun he => absurd he hb
  | send => exact fun _ => trivial
  | read _ _ _ ih => exact ih s hS s
  | moved ha =>
    rw [ha]
    trivial
  | lookClaim _ _ ih => exact ih s.thread hS s
  | piece _ _ ih | makeSlot _ ih => exact ih hS s
  | lockForReading id => exact lockForReading_patient id s
  | lockForChange id _ _ ih => exact .bind (lockForChange_patient id s) fun _ t => ih hS t
  | readOwned id access _ _ _ ih =>
    refine .bind (lockForReading_patient id s) fun _ t => ?_
    refine .tried (ih hS _) fun r t => ?_
    cases r <;> trivial
  | makeShared _ ih => exact .bind (ih hS s) fun _ _ => trivial
  | bind _ _ ih ihk => exact .bind (ih hS s) fun x t => ihk x hS t
  | tried _ _ ih ihk => exact .tried (ih hS s) fun r t => ihk r (fun _ _ _ => hS) hS t

end Action

/-- The later state is of the same build. -/
abbrev SameBuild (s t : State) : Prop :=
  t.build = s.build

theorem course_patient (op : Op) (s : State) :
    (op.course s).Patient ∧ (op.course s).Stays SameBuild s := by
  have hcell : Action.Cellular.At (.wide SameBuild) (perform op) s :=
    Action.perform_wide s (fun _ _ _ => rfl) ⟨fun _ _ _ => rfl, fun _ _ => rfl⟩
      (fun _ => ⟨trivial, fun _ _ h => (congrArg State.build h :)⟩) fun g body _ u => by
        show (u.setHook g body).build = u.build
        unfold State.setHook
        split <;> rfl
  have hcourse := Action.unwinding_at hcell
  obtain ⟨b, hb, hc⟩ := hcourse
  refine ⟨?_, Action.Cellular.At.stays ?_ ⟨b, hb, hc⟩⟩
  · show (Action.unwinding (perform op) s).Patient
    rw [hb s rfl]
    exact hc.patient trivial s
  · exact ⟨trivial, fun _ => trivial, fun _ => rfl, fun _ _ _ h h' => h'.trans h,
      fun h => (congrArg State.build h.surroundings :), id⟩

theorem Act.Patient.unblocked (hx : x.Patient) (hg : x.Stays SameBuild s) (hr : Lawful react)
    (hb : ∀ g t u, Sound [] t → t.build.mode = .plain → react g t ≠ .error (.blocked, u))
    (hs : Sound l s) (h : x.Does Q ds l s) (hm : s.build.mode = .plain) (u : State) :
    x.settle react ≠ .halted .blocked u := by
  induction x generalizing ds l s with
  | done | fail => exact fun he => by cases he
  | halt p t =>
    intro he
    cases he
    have hatomic := hx rfl
    have hsame : u.build = s.build := hg
    rw [hsame, hm] at hatomic
    cases hatomic
  | send g t next ih =>
    obtain ⟨ds', m, hn⟩ := h
    have ht := m.sound hs
    have hmt : t.build.mode = .plain := by rw [hg.1]; exact hm
    rw [Act.settle]
    cases hreact : react g t with
    | ok t' =>
      obtain ⟨hc, hs'⟩ := hr g t t' ht hreact
      exact ih t' (hx t') (hg.2 t') hs' (hn t' hc hs') (by rw [hc.build]; exact hmt)
    | error e =>
      obtain ⟨p, v⟩ := e
      intro he
      cases he
      exact hb g t u ht hmt hreact

end Courses

section Scripts

variable {step : Op → State → Outcome Answer} {body : Script}

/-- No operation waits for a lock with plain counters. -/
def StepUnblocked (step : Op → State → Outcome Answer) : Prop :=
  ∀ op s t, Sound [] s → s.build.mode = .plain → step op s ≠ .halted .blocked t

theorem runNested_unblocked (hl : LawfulStep step) (h : StepUnblocked step) (hs : Sound [] s)
    (hm : s.build.mode = .plain) (u : State) : runNested step body s ≠ .error (.blocked, u) := by
  induction body generalizing s with
  | nil => exact fun he => by cases he
  | cons op ops ih =>
    rw [runNested]
    cases hop : step op s with
    | ended r t =>
      obtain ⟨hc, ht⟩ := hl op s r t hs hop
      exact ih ((Move.aside (answered_aside r t)).sound ht) (by
        show t.build.mode = .plain
        rw [hc.build]
        exact hm)
    | halted p t =>
      intro he
      cases he
      exact h op s u hs hm hop

theorem react_unblocked (hl : LawfulStep step) (h : StepUnblocked step) (g : Signal) (s u : State)
    (hs : Sound [] s) (hm : s.build.mode = .plain) : react step g s ≠ .error (.blocked, u) := by
  rw [react]
  split
  · refine runNested_unblocked hl h ((Move.aside (hook_aside g s)).sound hs) ?_ u
    show (s.eraseHook g).build.mode = .plain
    unfold State.eraseHook
    split <;> exact hm
  · exact fun he => by cases he

end Scripts

/-- **With plain counters nobody ever waits for a lock.** -/
theorem step_unblocked (n : Nat) : StepUnblocked (step n) := by
  induction n with
  | zero => intro op s t _ _ h; cases h
  | succ n ih =>
    intro op s t hs hm
    have hl := step_lawful n
    by_cases hop : ∃ body, op = .thread body
    · obtain ⟨body, rfl⟩ := hop
      rw [step, runThread]
      cases hrun : runNested (step n) body s.startThread with
      | ok u => exact fun he => by cases he
      | error e =>
        obtain ⟨p, v⟩ := e
        intro he
        cases he
        exact runNested_unblocked hl ih hs.startThread hm t hrun
    · rw [step_perform fun body hb => hop ⟨body, hb⟩]
      obtain ⟨hpatient, hstays⟩ := course_patient op s
      exact hpatient.unblocked hstays (react_lawful hl) (react_unblocked hl ih) hs
        (Action.performing_does op hs) hm t

/-! ## What a read acquired is still there -/

namespace Action

section Reading

variable {react : Signal → State → Except (Halt × State) State} {claim : Claim}
  {r : Except Failure Claim} {v : Slot} {a' : Access}

/-- A read leaves the variable of its cell alone, and so does all that it sets off. -/
theorem readOwned_held (hk : SparesLocks react) (hs : Sound [] s)
    (hl : s.Locked L) (hv : (Cell.handle id a).Stands s v)
    (he : (readOwned (.handle id a) s).settle react = .ended r u) : Held (id :: L) s u := by
  obtain ⟨sh, hsh⟩ := hv.shared id a rfl
  have hdoes : (readOwned (.handle id a) s).Does (Acquires s [] (.handle id a) v) [] [] s :=
    readOwned_does hs hv
  rw [readOwned] at he hdoes
  obtain h | h := reading_some hsh (acquireValue (.handle id a))
  · rw [h] at he
    cases he
  rw [h, acquireValue_eq, bind_apply, attempt_apply, bind_apply]
    at he hdoes
  have hu := lock_taken hl hsh
  refine (readers_held id fun c => { c with readers := c.readers + 1 }).trans ?_
  generalize { s with sharing := _ } = w at hu he hdoes ⊢
  have hgain : (gainValue (.handle id a) w).Holds False (fun _ => []) (id :: L) w :=
    (gainValue_cellular (S := gaining) trivial _).holds (fun _ _ => rfl)
      (fun _ _ => False.elim) False.elim hu fun _ _ => False.elim
  have hover := Swift.gainValue (.handle id a) w
  have hback : ∀ (r' : Except Failure Claim) {t' : State}, ((setSharing id
      (fun c => { c with readers := c.readers - 1 }) >>= fun _ => ofExcept r') t').settle
        react = .ended r u → Held (id :: L) t' u := fun r' t' h => by
    cases r' <;>
    · cases h
      exact readers_held id _
  cases hx : gainValue (.handle id a) w with
  | done claim t =>
    rw [hx] at he hdoes hgain
    obtain ⟨ds', m, -⟩ := hdoes
    have ht := m.sound hs
    change Act.settle react (.send _ t _) = _ at he
    rw [Act.settle] at he
    split at he
    · next t' ht' =>
      obtain ⟨-, hheld⟩ := hk (id :: L) _ t t' ht hgain.1 ht'
      exact hgain.2.trans (hheld.trans (hback (.ok claim) he))
    · cases he
  | fail f t =>
    rw [hx] at he hgain
    exact hgain.1.2.trans (hback (.error f) he)
  | halt p t =>
    rw [hx] at he
    cases he
  | send => rw [hx] at hover; exact hover.elim

/-- A cell that an operation uses by its key is there when its claim is read. -/
theorem readOwned_stays (hr : Lawful react) (hs : Sound [] s) (hv : (Cell.handle id a).Stands s v)
    (he : (readOwned (.handle id a) s).settle react = .ended (.ok claim) u)
    (hk : s.thread.kept.get? k = some e) (hc : e.cell = .handle id a') (hu : e.users ≠ 0) :
    (u.sharing.get? id).isSome := by
  have hdoes : (readOwned (.handle id a) s).Does (Acquires s [] (.handle id a) v) [] [] s :=
    readOwned_does hs hv
  obtain ⟨l', hsound, -, -, -, hcame⟩ := hdoes.settle hr hs he
  obtain ⟨sh, hsh⟩ := hsound.sharing_of_kept (hcame.used k e hk hu) hc
  exact Option.isSome_iff_exists.2 ⟨sh, hsh⟩

/-- **What a read acquired a claim on is still the value** of the cell when it answers, unless the
cell is gone. -/
theorem readOwned_value (hr : Lawful react) (hk : SparesLocks react) (hs : Sound [] s)
    (hl : s.Locked L) (hv : (Cell.handle id a).Stands s v)
    (he : (readOwned (.handle id a) s).settle react = .ended (.ok claim) u)
    (hsh : (u.sharing.get? id).isSome) :
    ∃ v', u.slots.get? id = some v' ∧ v'.claim? = some claim := by
  obtain ⟨sh, hsh⟩ := Option.isSome_iff_exists.1 hsh
  have hdoes : (readOwned (.handle id a) s).Does (Acquires s [] (.handle id a) v) [] [] s :=
    readOwned_does hs hv
  obtain ⟨l', hu, -, -, hclaim, -⟩ := hdoes.settle hr hs he
  obtain ⟨v', hv'⟩ := Option.isSome_iff_exists.1 (hu.shared id sh hsh).2
  have hheld := readOwned_held hk hs hl hv he
  have hsame := hheld.fixed id List.mem_cons_self (hs.youngSlots id v hv.slot) sh v' hsh hv'
  obtain rfl : v = v' := Option.some.inj (hv.slot.symm.trans hsame)
  exact ⟨v, hv', hclaim⟩

end Reading

end Action

/-! ## The read in an operation -/

/-- The course `y` begins with the course `x`. -/
def Act.Begins (x : Act α) (y : Act β) : Prop :=
  ∃ (k : α → State → Act β) (K : Except Failure β → State → Act β), y = (x.bind k).attempt.bind K

/-- The course `y` begins with the course `x`, and comes to no value but that of `x`. -/
def Act.Passes (x y : Act α) : Prop :=
  ∃ K : Except Failure α → State → Act α, y = x.attempt.bind K ∧
    ∀ r t, (K r t).Ends fun r' => ∀ a, r' = .ok a → r = .ok a

namespace Act.Passes

variable {x y z : Act α} {react : Signal → State → Except (Halt × State) State}

theorem trans (h : x.Passes y) (h' : y.Passes z) : x.Passes z := by
  obtain ⟨K, rfl, hK⟩ := h
  obtain ⟨K', rfl, hK'⟩ := h'
  exact ⟨_, Act.tried_assoc x K K', fun r t => (hK r t).tried fun r₁ h₁ t' =>
    (hK' r₁ t').imp fun r₂ h₂ a ha => h₁ a (h₂ a ha)⟩

theorem settle {a : α} (h : x.Passes y) (he : y.settle react = .ended (.ok a) t) :
    ∃ u, x.settle react = .ended (.ok a) u := by
  obtain ⟨K, rfl, hK⟩ := h
  rw [Act.settle_bind, Act.settle_attempt] at he
  cases hx : x.settle react with
  | halted p u =>
    rw [hx] at he
    cases he
  | ended r u =>
    rw [hx] at he
    have hr : r = .ok a := (hK r u).settle he a rfl
    exact ⟨u, hr ▸ rfl⟩

end Act.Passes

namespace Action

open Act (Begins Passes Ends)

theorem ofExcept_passes (r : Except Failure α) (t : State) :
    (ofExcept r t).Ends fun r' => ∀ a, r' = .ok a → r = .ok a := by
  cases r <;> exact fun a ha => ha

theorem after_passes (x : Act β) (r : Except Failure α) :
    (x.bind fun _ => ofExcept r).Ends fun r' => ∀ a, r' = .ok a → r = .ok a :=
  (Ends.any x).bind (fun _ _ t => ofExcept_passes r t) fun _ _ _ ha => by cases ha

theorem unwinding_passes (b : Action α) (s : State) : (b s).Passes (unwinding b s) := by
  refine ⟨_, unwinding_apply b s, fun r t => ?_⟩
  cases r with
  | ok x => exact fun a ha => ha
  | error f =>
    exact after_passes (((t.thread.hands.take (t.thread.hands.length - s.thread.hands.length)).forM
      fun c => cleanUp (release c)) t) (.error f)

theorem looking_passes {b : Action α} (hk : s.thread.kept.get? k = some e)
    (hx : e.exclusive = false) :
    (b (s.flag k Kept.looked)).Passes (looking k b s) := by
  refine (unwinding_passes b _).trans ⟨fun r => setKept k (fun e =>
    { e with readers := e.readers - 1 }) >>= fun _ => ofExcept r, ?_,
    fun r t => ofExcept_passes r _⟩
  rw [looking, bind_apply, kept_some hk, done_bind, ite_apply,
    if_neg (by rw [hx]; exact Bool.false_ne_true)]
  rfl

theorem withCell_passes {b : KeptId → Cell → Action α} (hcells : s.thread.cells.get? key = some k)
    (hk : s.thread.kept.get? k = some e) :
    (b k e.cell (s.flag k Kept.entered)).Passes (withCell key b s) := by
  refine (unwinding_passes (b k e.cell) _).trans ⟨fun r => conclude r (leave k), ?_, fun r t => ?_⟩
  · rw [withCell, bind_apply, keptId_some hcells, done_bind, bind_apply, kept_some hk, done_bind,
      bind_apply, setKept_apply, done_bind]
    rfl
  · dsimp only [conclude]
    split
    · exact after_passes (cleanUp (leave k) t) (.error _)
    · exact after_passes (leave k t) r

theorem nativeCall_passes (b : Action α) (s : State) : (b s.calling).Passes (nativeCall b s) :=
  ⟨fun r t => ofExcept r t.returned, rfl, fun r t => ofExcept_passes r t.returned⟩

end Action

/-- The answer is a claim on the object. -/
def Answer.Claims (o : ObjectId) (a : Answer) : Prop :=
  a = .object o ∨ a = .pointer (some o)

/-- An operation that reads a claim begins with that, and answers with the claim. A cell that is
read by its key is in use meanwhile. -/
theorem Op.reads {op : Op} (hs : Sound [] s) (ho : s.Open) (h : op.reading? s = some id) :
    ∃ a w v, Sound [] w ∧ s.Intact w ∧ w.next = s.next ∧ (Cell.handle id a).Stands w v ∧
      ((∀ call, op ≠ .native call) →
        ∃ k e a, w.thread.kept.get? k = some e ∧ e.cell = .handle id a ∧ e.users ≠ 0) ∧
      ∃ k : Claim → State → Act Answer,
        ((Action.readOwned (.handle id a) w).bind k).Passes (op.course s) ∧
        ∀ claim t, (k claim t).Ends fun r => ∀ ans, r = .ok ans → ans.Claims claim.object := by
  cases op with
  | cell op =>
    cases op with
    | use key bound verb =>
      cases verb with
      | readOwned new =>
        obtain ⟨k, e, a, hkey, hk, hc, hx⟩ := Action.shared_of_key h ho
        obtain ⟨a', ha'⟩ := Action.via_handle id a bound
        obtain ⟨v, hv, -⟩ := hs.stands_of_kept hk
        have hk' : (s.flag k Kept.entered).thread.kept.get? k = some e.entered := by
          rw [State.flag_kept, if_pos rfl, hk, Option.map_some]
        rw [hc] at hv
        have hused : ((s.flag k Kept.entered).flag k Kept.looked).thread.kept.get? k =
            some e.entered.looked := by
          rw [State.flag_kept, if_pos rfl, hk']
          rfl
        refine ⟨a', (s.flag k Kept.entered).flag k Kept.looked, v,
          Sound.flag (Sound.flag hs fun _ => rfl) fun _ => rfl, rfl, rfl,
          ⟨hv.slot, fun i b hi => by cases hi; exact hv.shared id a rfl⟩,
          fun _ => ⟨k, _, a, hused, hc, Nat.succ_ne_zero _⟩,
          fun claim => Action.keepClaim new claim.object >>= fun _ => pure (.object claim.object),
          ?_, fun claim t => ?_⟩
        · have hlook := Action.looking_passes (b := Action.readOwned (e.cell.via bound) >>=
            fun claim => Action.keepClaim new claim.object >>= fun _ =>
              pure (Answer.object claim.object)) hk' hx
          have hwith := Action.withCell_passes (b := Action.usePart bound (.readOwned new)) hkey hk
          have hall := (hlook.trans hwith).trans
            (Action.unwinding_passes (perform (.cell (.use key bound (.readOwned new)))) s)
          rwa [Action.bind_apply, hc, ha'] at hall
        · exact (Act.Ends.any (Action.keepClaim new claim.object t)).bind
            (fun _ _ _ ans he => by cases he; exact .inl rfl) fun _ _ _ he => by cases he
      | _ => cases h
    | _ => cases h
  | native op =>
    cases op with
    | readOwned h' =>
      obtain ⟨c, hb, hshared⟩ := Option.bind_eq_some_iff.1 h
      obtain ⟨a, rfl⟩ := c.handle_of_shared hshared
      obtain ⟨key, -, hkey⟩ := Option.bind_eq_some_iff.1 hb
      obtain ⟨i, -, hi⟩ := Option.bind_eq_some_iff.1 hkey
      obtain ⟨v, hv, -⟩ := hs.stands_of_handle hi
      have haside : Aside s s.calling := .silent rfl rfl
      refine ⟨a, s.calling, v, (Move.aside haside).sound hs, rfl, rfl, ⟨hv.slot, hv.shared⟩,
        fun hn => absurd rfl (hn _), fun claim => Action.disown claim >>= fun _ =>
          pure (.pointer (some claim.object)), ?_, fun claim t => ?_⟩
      · have hcall := Action.nativeCall_passes (Action.callNative (.readOwned h')) s
        rw [Action.callNative, Action.bind_apply, (Action.handle_behind hb).2, Action.done_bind]
          at hcall
        exact hcall.trans (Action.unwinding_passes (perform _) s)
      · exact (Act.Ends.any (Action.disown claim t)).bind
          (fun _ _ _ ans he => by cases he; exact .inr rfl) fun _ _ _ he => by cases he
    | _ => cases h
  | _ => cases h

/-! ## Claims that cannot be had -/

/-- The course breaks off at once, and not because of a lock. -/
def Act.Stops (s : State) : Act α → Prop
  | fail f t => f ≠ .panic .relocked ∧ s.Alongside t
  | halt h _ => h ≠ .fatal .relocked
  | _ => False

namespace Act.Stops

variable {x : Act α}

theorem bind (h : x.Stops s) (k : α → State → Act β) : (x.bind k).Stops s := by
  cases x with
  | fail | halt => exact h
  | done | send => exact h.elim

theorem framed {y : Act β} (h : x.Stops t) (hf : Action.Framed t s x y) : y.Stops s := by
  obtain ⟨K, hK, rfl⟩ := hf
  cases x with
  | done | send => exact h.elim
  | halt => exact h
  | fail f u =>
    obtain ⟨hne, hside⟩ := h
    obtain ⟨u', hu', hside', -⟩ := hK.passes f u (Eq.trans hside hK.alongside)
    show (K (.error f) u).Stops s
    rw [hu']
    exact ⟨hne, hside'⟩

theorem spared {react : Signal → State → Except (Halt × State) State} (h : x.Stops s) :
    ¬ x.Panics react .relocked := by
  intro hp
  cases hp with
  | failed => exact h.1 rfl
  | fatal => exact h rfl
  | later => exact h

end Act.Stops

namespace Action

open Act (Relocks Stops)

theorem raise_stops {p : Panic} (hp : p ≠ .relocked) (h : s.Alongside t) :
    (raise p t : Act α).Stops s := by
  simp only [raise, bind_apply, thread_apply, done_bind, ite_apply]
  split
  · exact ⟨fun he => hp (Failure.panic.inj he), h⟩
  · exact fun he => hp (Halt.fatal.inj he)

theorem violate_stops (i : Invariant) (h : s.Alongside t) : (violate i t : Act α).Stops s := by
  show (raise (.invariant i) (t.emit (.violated i)) : Act α).Stops s
  exact raise_stops (fun he => by cases he) h

theorem acquire_denied {c : Claim} (h : ¬ s.Grants c) : (acquire c s).Stops s := by
  refine Stops.bind ?_ _
  obtain ⟨realm, o⟩ := c
  cases realm with
  | counted =>
    rw [gain]
    simp only [bind_apply, thread_apply, done_bind]
    cases hl : s.thread.ledger.acquire o with
    | ok l => exact absurd ⟨l, hl⟩ h
    | error m =>
      rw [settleLedger_error, raise_bind]
      exact raise_stops (by simp) rfl
  | native =>
    have hnone : s.functions = none := Option.not_isSome_iff_eq_none.1 h
    have hgain : gain ⟨.native, o⟩ s = violate .functionsMissing s := by
      show (functions s).bind _ = _
      rw [functions_none hnone, violate_bind]
    rw [hgain]
    exact violate_stops _ rfl

section Kept

variable {bound : Bool} {verb : Verb}

/-- **An operation that does not come by its claim asks for no lock.** -/
theorem using_stops (h : (Op.cell (.use key bound verb)).ChangesShared s id) (hs : Sound [] s)
    (ho : s.Open) (hn : ¬ (Op.cell (.use key bound verb)).Ready s) :
    ((Op.cell (.use key bound verb)).course s).Stops s := by
  obtain ⟨k, e, a, hkey, hk, hc, hx⟩ := shared_of_key h.2 ho
  -- what is done with the cell stops, so all of it does
  have hpart {b : Action Answer} (heq : usePart bound verb k e.cell = changing k b >>= pure)
      (hstops : ∀ f : Kept → Kept, (b ((s.flag k Kept.entered).flag k f)).Stops
        ((s.flag k Kept.entered).flag k f)) :
      ((Op.cell (.use key bound verb)).course s).Stops s := by
    obtain ⟨f, -, hf⟩ := changing_course bound verb pure hkey hk hx hc heq
    exact (hstops f).framed ((Framed.unwinding b _).trans hf)
  cases verb with
  | assign claim =>
    have hnone : s.thread.claims.get? claim = none := Option.not_isSome_iff_eq_none.1 hn
    refine hpart (b := takeClaim claim >>= fun o => assign (e.cell.via bound) o >>= fun _ =>
      pure .nothing) (by rw [bind_pure]; rfl) fun f => ?_
    rw [bind_apply, takeClaim_none (s := (s.flag k Kept.entered).flag k f) hnone]
    exact ⟨(fun he => by cases he), rfl⟩
  | assignBorrowed o =>
    obtain ⟨v, hv, hrealm⟩ := hs.slot_of_kept hk
    refine hpart (b := requireKnown o >>= fun _ => assignBorrowed (e.cell.via bound) o >>= fun _ =>
      pure .nothing) (by rw [bind_pure]; rfl) fun f => ?_
    by_cases hknown : o ∈ s.thread.known
    · have hdenied : ¬ s.Grants ⟨.counted, o⟩ := fun hg => hn ⟨hknown, hg⟩
      generalize hw : (s.flag k Kept.entered).flag k f = w
      have hslot : w.slots.get? (e.cell.via bound).slot = some v := by
        rw [← hw, Cell.slot_via]
        exact hv
      rw [bind_apply, requireKnown_some (hw ▸ hknown), done_bind, bind_apply,
        assignBorrowed_apply hslot, hrealm]
      exact ((acquire_denied (hw ▸ hdenied)).bind _).bind _
    · rw [bind_apply, requireKnown_none (s := (s.flag k Kept.entered).flag k f) hknown]
      exact ⟨(fun he => by cases he), rfl⟩
  | _ => exact absurd trivial hn

end Kept

section Native

variable {h : Option String} {op : NativeOp}

/-- **A call that does not come by its claim asks for no lock.** -/
theorem calling_stops (hc : (Op.native op).ChangesShared s id) (hs : Sound [] s)
    (hn : ¬ (Op.native op).Ready s) : ((Op.native op).course s).Stops s := by
  obtain ⟨-, h, a, hh, hat⟩ := native_of_changesShared hc
  refine Stops.framed ?_ (nativeCall_framed op s)
  cases op with
  | assign _ o =>
    cases hh
    obtain rfl : o = 0 := not_not.1 hn
    rw [assign_behind hat, if_pos rfl]
    exact violate_stops _ rfl
  | assignBorrowed _ o =>
    cases hh
    obtain ⟨v, hv, hrealm⟩ := slot_behind hs hat
    have hdenied : ¬ s.calling.Grants ⟨.native, o⟩ := hn
    rw [assignBorrowed_behind hat hv, hrealm]
    exact ((acquire_denied hdenied).bind _).bind _
  | _ => exact absurd trivial hn

end Native

end Action

/-! ## Exclusion -/

/-- The operation is refused the lock of the cell, at once or after it has acquired the claim to
assign, with all that this set off. -/
def Op.LockedOut (op : Op) (n : Nat) (s : State) (id : SlotId) : Prop :=
  match op.borrowed? with
  | none => (op.course s).Relocks s s (op.offered? s)
  | some c => ∃ u next, op.course s = .send ⟨c.realm, .acquired, c.object⟩ u next ∧ s.Intact u ∧
      ∀ t, react (step n) ⟨c.realm, .acquired, c.object⟩ u = .ok t →
        ((∃ call, op = .native call) → (t.sharing.get? id).isSome) →
        (next t).Relocks s t (some c)

section Exclusion

variable {op : Op} {n : Nat}

theorem Sound.shared_of_cell (hs : Sound [] s) (h : (op.cell? s).bind Cell.shared? = some id) :
    (s.sharing.get? id).isSome := by
  obtain ⟨c, hc, hshared⟩ := Option.bind_eq_some_iff.1 h
  obtain ⟨a, rfl⟩ := c.handle_of_shared hshared
  obtain ⟨sh, hsh⟩ := hs.sharing_of_le ((le_tally_cell hc _).trans (Nat.le_add_right _ _))
  exact Option.isSome_iff_exists.2 ⟨sh, hsh⟩

/-- What the scripts that an operation sets off leave, while it waits for them. -/
theorem Amid.resumed {g : Signal} {next : State → Act Answer} (h : Amid L s) (ho : ¬ op.ReadsOwned)
    (hx : op.course s = .send g u next) (ht : react (step n) g u = .ok t) :
    Came u u.thread.hands t ∧ Sound [] t ∧ t.Locked L := by
  have hsent : (op.course s).Sends (react (step n)) g u := hx ▸ .now g u next
  have hu := h.signalled hsent
  rw [Op.window_eq_nil ho] at hu
  have hl := step_lawful n
  obtain ⟨hc, hs⟩ := react_lawful hl g u t hu.sound ht
  exact ⟨hc, hs, (react_spares hl (step_spares n) L g u t hu.sound hu.locked ht).1⟩

/-- **A held lock refuses every operation that asks for it.** -/
theorem Amid.lockedOut (h : Amid L s) (hm : s.build.mode = .plain) (hid : id ∈ L)
    (hc : op.ChangesShared s id) (hready : op.Ready s) : op.LockedOut n s id := by
  have hrefuses := h.locked.refuses hm hid (h.sound.shared_of_cell hc.2)
  have hagain {t u : State} (hu : u.build = s.build) (hcame : Came u u.thread.hands t)
      (hl : t.Locked L) (hsh : (t.sharing.get? id).isSome) : t.Refuses id :=
    hl.refuses (by rw [hcame.build, hu, hm]) hid hsh
  cases op with
  | cell op =>
    cases op with
    | use key bound verb =>
      cases verb with
      | assignBorrowed o =>
        obtain ⟨u, next, hx, hintact, hbuild, ⟨k, e, a, hk, hcell, hused⟩, hnext⟩ :=
          Action.borrowing_relocks hc h.sound h.open hready
        have hacquires : (Op.cell (.use key bound (.assignBorrowed o))).Acquires := trivial
        refine ⟨u, next, hx, hintact, fun t ht _ => ?_⟩
        obtain ⟨hcame, hsound, hlocked⟩ := h.resumed hacquires.not_reads hx ht
        have hshared : (t.sharing.get? id).isSome :=
          Option.isSome_iff_exists.2 (hsound.sharing_of_kept (hcame.used k e hk hused) hcell)
        exact hnext t hcame.hands (hagain hbuild hcame hlocked hshared)
      | _ => exact Action.using_relocks hc h.open hrefuses hready rfl
    | _ => exact hc.1.elim
  | native op =>
    cases op with
    | assignBorrowed h' o =>
      obtain ⟨u, next, hx, hintact, hbuild, hnext⟩ :=
        Action.calling_borrowed_relocks hc h.sound hready
      have hacquires : (Op.native (.assignBorrowed h' o)).Acquires := trivial
      refine ⟨u, next, hx, hintact, fun t ht hsh => ?_⟩
      obtain ⟨hcame, -, hlocked⟩ := h.resumed hacquires.not_reads hx ht
      exact hnext t hcame.hands (hagain hbuild hcame hlocked (hsh ⟨_, rfl⟩))
    | _ => exact Action.calling_relocks hc hrefuses hready rfl
  | _ => exact hc.1.elim

/-- **A lock refuses only what changes its cell** while a claim is being acquired from it. -/
theorem Amid.changes_of_panics (h : Amid L s)
    (hp : (op.course s).Panics (react (step n)) .relocked) :
    ∃ id ∈ L, op.ChangesShared s id ∧ op.Ready s := by
  have hl := step_lawful n
  have hholds : (op.course s).Holds (∃ id ∈ L, op.ChangesShared s id) (op.window s) L s :=
    course_holds h.sound h.locked fun id hid hc => ⟨id, hid, hc⟩
  obtain ⟨id, hid, hc⟩ := hholds.panics (react_lawful hl) (react_spares hl (step_spares n)) h.sound
    (Action.performing_does op h.sound) hp
  refine ⟨id, hid, hc, ?_⟩
  -- what does not come by its claim breaks off before it asks
  by_contra hn
  cases op with
  | cell op =>
    cases op with
    | use => exact (Action.using_stops hc h.sound h.open hn).spared hp
    | _ => exact hc.1
  | native => exact (Action.calling_stops hc h.sound hn).spared hp
  | _ => exact hc.1

/-- **A read of a claim answers with the value** that the cell has when the claim is had. -/
theorem Amid.read_value (h : Amid L s) (hread : op.reading? s = some id) {ans : Answer}
    (he : step (n + 1) op s = .ended (.ok ans) t) :
    ∃ a w claim u, (Action.readOwned (.handle id a) w).Begins (op.course s) ∧ s.Intact w ∧
      (Action.readOwned (.handle id a) w).settle (react (step n)) = .ended (.ok claim) u ∧
      ans.Claims claim.object ∧
      (((∃ call, op = .native call) → (u.sharing.get? id).isSome) →
        ∃ v, u.slots.get? id = some v ∧ v.claim? = some claim) := by
  have hl := step_lawful n
  obtain ⟨a, w, v, hw, hintact, hnext, hv, hused, k, hpass, hans⟩ :=
    Op.reads h.sound h.open hread
  have hthread : ∀ body, op ≠ .thread body := by
    rintro body rfl
    cases hread
  rw [step_perform hthread] at he
  obtain ⟨u', hu'⟩ := hpass.settle he
  rw [Act.settle_bind] at hu'
  obtain ⟨K, hcourse, -⟩ := hpass
  cases hx : (Action.readOwned (.handle id a) w).settle (react (step n)) with
  | halted p u =>
    rw [hx] at hu'
    cases hu'
  | ended r u =>
    rw [hx] at hu'
    cases r with
    | error f => cases hu'
    | ok claim =>
      refine ⟨a, w, claim, u, ⟨k, K, hcourse⟩, hintact, hx, (hans claim u).settle hu' ans rfl,
        fun hsh => ?_⟩
      have hlocked : w.Locked L := h.locked.same (by
        rw [hnext, (Prod.mk.inj (Prod.mk.inj hintact).2).1])
      have hstays : (u.sharing.get? id).isSome := by
        by_cases hcall : ∃ call, op = .native call
        · exact hsh hcall
        · obtain ⟨k, e, a', hk, hc, hu⟩ := hused fun call heq => hcall ⟨call, heq⟩
          exact Action.readOwned_stays (react_lawful hl) hw hv hx hk hc hu
      exact Action.readOwned_value (react_lawful hl) (react_spares hl (step_spares n)) hw hlocked hv
        hx hstays

end Exclusion

/-- **With plain counters the lock of a cell excludes changes.** It refuses just those operations
that would change the cell while a read is acquiring a claim on its value, and that come as far as
to ask for it. What is refused leaves variables, handles and counters as they were, and gives up the
claim that it has in hand. Nothing ever waits, and a read answers with the value that the cell has
then. -/
theorem locks_exclude (h : Amid L s) (hm : s.build.mode = .plain) :
    (∀ id, s.Refuses id ↔ id ∈ L ∧ (s.sharing.get? id).isSome) ∧
    (∀ n (op : Op), (op.course s).Panics (react (step n)) .relocked →
      ∃ id ∈ L, op.ChangesShared s id ∧ op.Ready s) ∧
    (∀ n (op : Op), ∀ id ∈ L, op.ChangesShared s id → op.Ready s → op.LockedOut n s id) ∧
    (∀ n op t, step n op s ≠ .halted .blocked t) ∧
    ∀ n (op : Op) id ans t, op.reading? s = some id → step (n + 1) op s = .ended (.ok ans) t →
      ∃ a w claim u, (Action.readOwned (.handle id a) w).Begins (op.course s) ∧ s.Intact w ∧
        (Action.readOwned (.handle id a) w).settle (react (step n)) = .ended (.ok claim) u ∧
        ans.Claims claim.object ∧
        (((∃ call, op = .native call) → (u.sharing.get? id).isSome) →
          ∃ v, u.slots.get? id = some v ∧ v.claim? = some claim) := by
  refine ⟨fun id => ⟨fun ⟨_, sh, hsh, hr⟩ => ⟨?_, by rw [hsh]; rfl⟩, fun ⟨hid, hsh⟩ =>
    h.locked.refuses hm hid hsh⟩, fun _ _ => h.changes_of_panics, fun _ _ _ => h.lockedOut hm,
    fun n op t => step_unblocked n op s t h.sound hm, fun _ _ _ _ _ hread => h.read_value hread⟩
  rw [h.locked.count id sh hsh] at hr
  exact List.count_pos_iff.1 (Nat.pos_of_ne_zero hr)

/-- A cell cannot be cleared while a claim on its value is being acquired. -/
theorem locks_exclude_clear : ∃ s, Amid [0] s ∧ s.Refuses 0 ∧
    (Op.cell (.use "cell" false .clear)).LockedOut 0 s 0 := by
  have h0 : Amid [] (.start .plain false {} none) := .start _ _ _ _
  have h1 := h0.ended (show step 1 (.object (.allocate (some "claim"))) _ = .ended _ _ from rfl)
  have h2 := h1.ended (show step 1 (.cell (.make "cell" (.shared "" (some "claim")))) _ =
    .ended _ _ from rfl)
  have h3 := h2.signalled (show (Op.course (.cell (.use "cell" false (.readOwned "claim"))) _).Sends
    (react (step 0)) ⟨.counted, .acquired, 1⟩ _ from .now _ _ _)
  obtain ⟨hrefuses, -, hlocked, -⟩ := locks_exclude h3 rfl
  exact ⟨_, h3, (hrefuses 0).2 ⟨List.mem_singleton_self 0, rfl⟩,
    hlocked 0 _ 0 (List.mem_singleton_self 0) ⟨trivial, rfl⟩ trivial⟩

end ClaimCells
