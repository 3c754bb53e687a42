import ClaimCells.Proofs.Composition
import ClaimCells.Proofs.Variables

/-!
# Runs of operations of one class

Some things hold only as long as no operation of a certain kind is done: an operation is `Only` of a
class when it is, and whatever it leaves to scripts and threads is. Such runs set off no other
scripts, since a script must have been left behind before.

What an operation keeps is said between signals (`Act.Stays`). What every operation of the class
keeps lasts over all runs of the class.

Main results: `Cellular.stays`, `Upheld.step`, `Later.upheld` and `ReachedBy.upheld`.
-/

namespace ClaimCells

open Act (Outcome)

variable {α β : Type} {s s' t : State} {G : State → State → Prop} {p : Op → Prop}

/-! ## Between signals -/

/-- From every state in which the course is begun or resumed it comes to the next signal, or to its
end, as `G` says. -/
def Act.Stays (G : State → State → Prop) : State → Act α → Prop
  | s, done _ t | s, fail _ t | s, halt _ t => G s t
  | s, send _ t next => G s t ∧ ∀ t', Stays G t' (next t')

/-- A relation that allows what actions in a scope do. -/
structure Scope.Allows (S : Scope) (G : State → State → Prop) : Prop where
  refuses : S.refuses
  gains : S.reads → S.gains
  refl : ∀ s, G s s
  trans : ∀ s t u, G s t → G t u → G s u
  beside : ∀ {s t}, Beside S.gains s t → G s t
  outer : ∀ {s t}, S.outer s t → G s t

theorem Scope.Allows.writing {S : Scope} (h : S.Allows G) (w : SlotId → Prop) :
    (S.writing w).Allows G :=
  ⟨h.refuses, h.gains, h.refl, h.trans, h.beside, h.outer⟩

theorem Scope.Allows.loosened {S : Scope} (h : S.Allows G) : S.loosened.Allows G :=
  ⟨h.refuses, h.gains, h.refl, h.trans, h.beside, h.outer⟩

theorem Scope.Allows.gaining {S : Scope} (h : S.Allows G) (hr : S.reads) : S.gaining.Allows G :=
  ⟨h.refuses, fun _ => trivial, h.refl, h.trans,
    fun hb => h.beside ((eq_true (h.gains hr)).symm ▸ hb), h.outer⟩

namespace Act.Stays

variable {x : Act α}

theorem before (hG : ∀ s t u, G s t → G t u → G s u) (hs : G s t) (h : x.Stays G t) : x.Stays G s := by
  cases x with
  | done | fail | halt => exact hG _ _ _ hs h
  | send => exact ⟨hG _ _ _ hs h.1, h.2⟩

theorem imp {G' : State → State → Prop} (hG : ∀ {s t}, G s t → G' s t) (h : x.Stays G s) :
    x.Stays G' s := by
  induction x generalizing s with
  | done | fail | halt => exact hG h
  | send g t next ih => exact ⟨hG h.1, fun t' => ih t' (h.2 t')⟩

theorem bind (hG : ∀ s t u, G s t → G t u → G s u) {k : α → State → Act β} (h : x.Stays G s)
    (hk : ∀ a t, (k a t).Stays G t) : (x.bind k).Stays G s := by
  induction x generalizing s with
  | done a t => exact before hG h (hk a t)
  | fail | halt => exact h
  | send g t next ih => exact ⟨h.1, fun t' => ih t' (h.2 t')⟩

theorem attempt (h : x.Stays G s) : x.attempt.Stays G s := by
  induction x generalizing s with
  | done | fail | halt => exact h
  | send g t next ih => exact ⟨h.1, fun t' => ih t' (h.2 t')⟩

end Act.Stays

/-- The course comes to its end in the state in which it is begun. -/
def Act.Still (s : State) : Act α → Prop
  | done _ t | fail _ t | halt _ t => t = s
  | send .. => False

namespace Act.Still

variable {x : Act α}

theorem bind {k : α → State → Act β} (h : x.Still s) (hk : ∀ a, (k a s).Still s) :
    (x.bind k).Still s := by
  cases x with
  | done a t => exact h ▸ hk a
  | fail | halt => exact h
  | send => exact h.elim

theorem stays (h : x.Still s) (hG : ∀ s, G s s) : x.Stays G s := by
  cases x with
  | done | fail | halt => exact h ▸ hG s
  | send => exact h.elim

end Act.Still

namespace Action

open Act (Stays)

variable {S : Scope}

/-- A panic is a failure, or fatal. -/
theorem raise_eq (α : Type) (p : Panic) (s : State) :
    (raise p s : Act α) = .fail (.panic p) s ∨ ∃ h, (raise p s : Act α) = .halt h s := by
  simp only [raise, bind_apply, thread_apply, done_bind, ite_apply]
  split
  · exact .inl rfl
  · exact .inr ⟨_, rfl⟩

theorem raise_still (p : Panic) (s : State) : (raise p s : Act α).Still s := by
  simp only [raise, bind_apply, thread_apply, done_bind, ite_apply]
  split <;> rfl

theorem slot_still (id : SlotId) (s : State) : (slot id s).Still s := by
  show (demand _ (s.slots.get? id) s).Still s
  cases s.slots.get? id <;> rfl

theorem sharing_still (id : SlotId) (s : State) : (sharing id s).Still s := by
  show (demand _ (s.sharing.get? id) s).Still s
  cases s.sharing.get? id <;> rfl

theorem lockForReading_still (id : SlotId) (s : State) : (lockForReading id s).Still s := by
  refine .bind (sharing_still id s) fun sh => ?_
  simp only [bind_apply, get_apply, done_bind, ite_apply]
  split <;> rfl

theorem lockForChange_still (id : SlotId) (s : State) : (lockForChange id s).Still s := by
  refine .bind (sharing_still id s) fun sh => ?_
  simp only [bind_apply, get_apply, done_bind, ite_apply]
  split
  · cases s.build.mode with
    | plain => exact raise_still _ s
    | atomic => rfl
  · rfl

theorem lockToChange_still (c : Cell) (s : State) : (lockToChange c s).Still s := by
  cases c with
  | own => rfl
  | handle id => exact lockForChange_still id s

theorem reading_stays (hG : S.Allows G) {a : Action α} (id : SlotId)
    (ha : ∀ s, (a s).Stays G s) (s : State) : (reading id a s).Stays G s := by
  have hset : ∀ f s, (setSharing id f s).Stays G s := fun f s => hG.beside (.silent rfl rfl)
  refine .bind hG.trans ((lockForReading_still id s).stays hG.refl) fun _ t =>
    .bind hG.trans (hset _ t) fun _ t => .bind hG.trans (ha t).attempt fun r t =>
    .bind hG.trans (hset _ t) fun _ t => ?_
  cases r <;> exact hG.refl t

/-- **Cellular actions do between signals what their scope allows.** -/
theorem Cellular.stays (hG : S.Allows G) {a : Action α} (h : Cellular S a) (s : State) :
    (a s).Stays G s := by
  induction h generalizing s with
  | pure | fail | halt => exact hG.refl s
  | send g => exact ⟨hG.refl s, fun t => hG.refl t⟩
  | read _ _ _ ih => exact ih s hG s
  | moved ha _ _ _ _ ho =>
    rw [ha]
    exact ho.elim (fun ho => hG.outer (ho s)) fun ho => hG.beside (ho s)
  | lookClaim _ _ ih => exact ih s.thread hG s
  | eraseClaim | insertClaim => exact hG.beside (.silent rfl rfl)
  | piece _ _ ih => exact ih hG.loosened s
  | lockForReading id => exact (lockForReading_still id s).stays hG.refl
  | lockForChange id _ _ ih =>
    exact .bind hG.trans ((lockForChange_still id s).stays hG.refl) fun _ => ih (hG.writing _)
  | readOwned id _ hr _ _ ih => exact reading_stays hG id (ih (hG.gaining hr)) s
  | makeSlot _ ih => exact ih (hG.writing _).loosened s
  | makeShared _ ih =>
    exact .bind hG.trans (ih hG s) fun id t =>
      hG.beside (.noting (e := .did (.shared id)) rfl rfl ⟨trivial, nofun⟩)
  | bind _ _ ih ihk => exact .bind hG.trans (ih hG s) fun x => ihk x hG
  | tried _ _ ih ihk =>
    exact .bind hG.trans (ih hG s).attempt fun r => ihk r (fun _ _ _ => hG.refuses) hG

theorem Cellular.At.stays (hG : S.Allows G) {a : Action α}
    (h : Cellular.At S a s) : (a s).Stays G s := by
  obtain ⟨b, hb, hcell⟩ := h
  exact hb s rfl ▸ hcell.stays hG s

end Action

/-! ## Operations of one class -/

mutual

/-- The operation is of the class, and so is all that it leaves to scripts and threads. -/
def Op.Only (p : Op → Prop) : Op → Prop
  | .hook _ body => onlyOf p body
  | .thread body => onlyOf p body
  | op => p op

def onlyOf (p : Op → Prop) : List Op → Prop
  | [] => True
  | op :: ops => op.Only p ∧ onlyOf p ops

end

/-- All operations of a script are of the class. -/
abbrev Script.Only (body : Script) (p : Op → Prop) : Prop :=
  onlyOf p body

/-- All scripts that wait are of the class. -/
structure State.Schooled (p : Op → Prop) (s : State) : Prop where
  native : ∀ g body, s.nativeHooks.get? g = some body → body.Only p
  threads : ∀ t ∈ s.thread :: s.waiting, ∀ g body, t.hooks.get? g = some body → body.Only p

/-! ## Taking turns -/

/-- Another of the threads goes on in place of the running one, which waits among the rest. -/
def State.switch (s : State) (t : Thread) (ts : List Thread) : State :=
  { s with thread := t, waiting := ts }

theorem Sound.switch {t : Thread} {ts : List Thread} (h : Sound [] s)
    (hp : (t :: ts).Perm (s.thread :: s.waiting)) : Sound [] (s.switch t ts) := by
  have hl : Lasting s (s.switch t ts) := .of_eq rfl rfl
  have htally : ∀ w, (s.switch t ts).tally w = s.tally w := fun w => by
    have hsum := (hp.map (Thread.tally w)).sum_nat
    simp only [List.map_cons, List.sum_cons] at hsum
    show t.tally w + ((ts ++ s.ended).map (Thread.tally w)).sum + _ =
      s.thread.tally w + ((s.waiting ++ s.ended).map (Thread.tally w)).sum + _
    simp only [List.map_append, List.sum_append]
    show _ + s.handles.sum _ = _ + s.handles.sum _
    omega
  have hthreads : ∀ u ∈ t :: ts, u.Sound s := fun u hu => by
    rcases List.mem_cons.1 (hp.mem_iff.1 hu) with rfl | hu
    · exact h.thread
    · exact h.others u (List.mem_append_left _ hu)
  exact
    { handles := fun id => by rw [htally]; exact h.handles id
      owners := fun id => by rw [htally]; exact h.owners id
      shared := h.shared
      youngSlots := h.youngSlots
      native := fun i c hi => (h.native i c hi).mono hl
      thread := (hthreads t List.mem_cons_self).mono hl
      others := fun u hu => by
        rcases List.mem_append.1 hu with hu | hu
        · exact (hthreads u (List.mem_cons_of_mem _ hu)).mono hl
        · exact (h.others u (List.mem_append_right _ hu)).mono hl }

theorem State.Schooled.switch {t : Thread} {ts : List Thread} (h : s.Schooled p)
    (hp : (t :: ts).Perm (s.thread :: s.waiting)) : (s.switch t ts).Schooled p :=
  ⟨h.native, fun u hu => h.threads u (hp.mem_iff.1 hu)⟩

/-! ## What lasts -/

/-- The property holds wherever the course comes, as long as it lasts while the course waits. -/
def Act.Keeps (P : State → Prop) : Act α → Prop
  | done _ t | fail _ t => P t
  | halt _ _ => True
  | send _ t next => P t ∧ ∀ t', Came t t.thread.hands t' → Sound [] t' → P t' → Keeps P (next t')

section Keeps

variable {P P' : State → Prop} {x : Act α} {Q : Post α} {l : List Cell} {ds : List Deed}
  {react : Signal → State → Except (Halt × State) State} {res : Except Failure α} {g : Signal}

theorem Act.Stays.keeps (hP : ∀ {s t}, G s t → P s → P t) (h : x.Stays G s) (hs : P s) :
    x.Keeps P := by
  induction x generalizing s with
  | done | fail => exact hP h hs
  | halt => trivial
  | send g t next ih => exact ⟨hP h.1 hs, fun t' _ _ ht' => ih t' (h.2 t') ht'⟩

theorem Act.Keeps.and (h : x.Keeps P) (h' : x.Keeps P') : x.Keeps fun s => P s ∧ P' s := by
  induction x with
  | done | fail => exact ⟨h, h'⟩
  | halt => trivial
  | send g t next ih =>
    exact ⟨⟨h.1, h'.1⟩, fun t' hc hs ht' => ih t' (h.2 t' hc hs ht'.1) (h'.2 t' hc hs ht'.2)⟩

/-- What a course keeps, and its scripts, holds where it ends. -/
theorem Act.Keeps.ended (hx : x.Keeps P) (hr : Lawful react) (hk : Respects react P)
    (hs : Sound l s) (h : x.Does Q ds l s) (he : x.settle react = .ended res s') : P s' := by
  induction x generalizing ds l s with
  | done | fail =>
    cases he
    exact hx
  | halt => cases he
  | send g t next ih =>
    obtain ⟨ds', m, hn⟩ := h
    rw [Act.settle] at he
    split at he
    · next t' ht' =>
      obtain ⟨hc, hs'⟩ := hr g t t' (m.sound hs) ht'
      exact ih t' (hx.2 t' hc hs' (hk g t t' (m.sound hs) hx.1 ht')) hs' (hn t' hc hs') he
    · cases he

/-- And wherever it sends a signal. -/
theorem Act.Keeps.sends (hx : x.Keeps P) (hr : Lawful react) (hk : Respects react P)
    (hs : Sound l s) (h : x.Does Q ds l s) (hg : x.Sends react g t) : P t := by
  induction hg generalizing ds l s with
  | now => exact hx.1
  | @later g g' u u' t next hu hn ih =>
    obtain ⟨ds', m, hd⟩ := h
    obtain ⟨hc, hs'⟩ := hr g u u' (m.sound hs) hu
    exact ih (hx.2 u' hc hs' (hk g u u' (m.sound hs) hx.1 hu)) hs' (hd u' hc hs')

end Keeps

/-! ## Scripts of the class -/

/-- All operations of the class keep the property, and so does what begins and ends around them. -/
structure Upheld (p : Op → Prop) (P : State → Prop) : Prop where
  course : ∀ {op : Op} {s}, op.Only p → (∀ body, op ≠ .thread body) → Sound [] s → P s →
    (op.course s).Keeps P
  answered : ∀ {s} r, P s → P (s.note (.answered r))
  hooked : ∀ {s} g, P s → P ((s.eraseHook g).note (.hook g))
  startThread : ∀ {s}, P s → P s.startThread
  endThread : ∀ {s s'}, P s → P s' → P (s'.endThread s)
  switch : ∀ {s t ts}, (t :: ts).Perm (s.thread :: s.waiting) → P s → P (s.switch t ts)

namespace State.Schooled

theorem of_hooks (h : s.Schooled p) (hn : t.nativeHooks = s.nativeHooks)
    (ht : t.thread.hooks = s.thread.hooks) (hw : t.waiting = s.waiting) : t.Schooled p := by
  refine ⟨fun g body hb => h.native g body (hn ▸ hb), fun u hu g body hb => ?_⟩
  rcases List.mem_cons.1 hu with rfl | hu
  · exact h.threads s.thread List.mem_cons_self g body (ht ▸ hb)
  · exact h.threads u (List.mem_cons_of_mem _ (hw ▸ hu)) g body hb

/-- A script that waits is of the class. -/
theorem hook {g : Signal} {body : Script} (h : s.Schooled p) (hb : s.hook? g = some body) :
    body.Only p := by
  unfold State.hook? at hb
  split at hb
  · exact h.threads _ List.mem_cons_self g body hb
  · exact h.native g body hb

theorem setHook {g : Signal} {body : Script} (h : s.Schooled p) (hb : body.Only p) :
    (s.setHook g body).Schooled p := by
  have hins : ∀ {hooks : Table Signal Script},
      (∀ g body, hooks.get? g = some body → body.Only p) →
      ∀ g' body', (hooks.insert g body).get? g' = some body' → body'.Only p := by
    intro hooks hh g' body' hg
    rw [Table.get?_insert] at hg
    split at hg
    · cases hg
      exact hb
    · exact hh g' body' hg
  unfold State.setHook
  split
  · refine ⟨h.native, fun u hu => ?_⟩
    rcases List.mem_cons.1 hu with rfl | hu
    · exact hins (h.threads _ List.mem_cons_self)
    · exact h.threads u (List.mem_cons_of_mem _ hu)
  · exact ⟨hins h.native, h.threads⟩

theorem eraseHook (g : Signal) (h : s.Schooled p) : (s.eraseHook g).Schooled p := by
  have hdel : ∀ {hooks : Table Signal Script},
      (∀ g body, hooks.get? g = some body → body.Only p) →
      ∀ g' body', (hooks.erase g).get? g' = some body' → body'.Only p := by
    intro hooks hh g' body' hg
    rw [Table.get?_erase] at hg
    split at hg
    · cases hg
    · exact hh g' body' hg
  unfold State.eraseHook
  split
  · refine ⟨h.native, fun u hu => ?_⟩
    rcases List.mem_cons.1 hu with rfl | hu
    · exact hdel (h.threads _ List.mem_cons_self)
    · exact h.threads u (List.mem_cons_of_mem _ hu)
  · exact ⟨hdel h.native, h.threads⟩

theorem startThread (h : s.Schooled p) : s.startThread.Schooled p := by
  refine ⟨h.native, fun u hu => ?_⟩
  rcases List.mem_cons.1 hu with rfl | hu
  · intro g body hb
    cases hb
  · exact h.threads u hu

theorem endThread (h : s.Schooled p) (h' : s'.Schooled p) : (s'.endThread s).Schooled p :=
  ⟨h'.native, h.threads⟩

theorem start (build : Build) (profiling : Bool) (environment : Table String Text.Utf8.Bytes)
    (file : FileContent) : (State.start build profiling environment file).Schooled p := by
  refine ⟨nofun, fun u hu => ?_⟩
  rw [List.mem_singleton.1 hu]
  exact nofun

end State.Schooled

/-- An operation of the class leaves scripts of the class behind. -/
theorem Op.Only.schooled {op : Op} (h : op.Only p) (hs : s.Schooled p) :
    (op.course s).Keeps (State.Schooled p) := by
  let outer (s t : State) : Prop := s.Schooled p → t.Schooled p
  have hG : (Scope.wide outer).Allows outer :=
    { refuses := trivial
      gains := fun _ => trivial
      refl := fun _ h => h
      trans := fun _ _ _ h h' hs => h' (h hs)
      beside := fun h hs => hs.of_hooks (congrArg State.nativeHooks h.surroundings :)
        (congrArg (fun u : State => u.thread.hooks) h.surroundings :)
        (congrArg State.waiting h.surroundings :)
      outer := fun h => h }
  have hcell : Action.Cellular.At (Scope.wide outer) (perform op) s := by
    refine Action.perform_wide s ?_ ?_ (fun _ => ⟨trivial, ?_⟩) ?_
    · exact fun s n e hs => hs.of_hooks rfl rfl rfl
    · exact ⟨fun s c p hs => hs.of_hooks rfl rfl rfl, fun s p hs => hs.of_hooks rfl rfl rfl⟩
    · exact fun s t h hs => hs.of_hooks (congrArg State.nativeHooks h :)
        (congrArg (fun u : State => u.thread.hooks) h :) (congrArg State.waiting h :)
    · rintro g body rfl s hs
      exact hs.setHook h
  exact ((Action.unwinding_at hcell).stays hG).keeps (fun h => h) hs

/-! ## Runs of the class -/

section Scripts

variable {P : State → Prop} {step : Op → State → Outcome Answer} {body : Script}

/-- Operations of the class keep the property, while scripts of the class wait. -/
def UpholdsStep (p : Op → Prop) (P : State → Prop) (step : Op → State → Outcome Answer) : Prop :=
  ∀ op s r s', op.Only p → Sound [] s → P s → s.Schooled p → step op s = .ended r s' →
    P s' ∧ s'.Schooled p

theorem runNested_upholds (hP : Upheld p P) (hl : LawfulStep step) (h : UpholdsStep p P step)
    (hb : body.Only p) (hs : Sound [] s) (hp : P s) (hsc : s.Schooled p)
    (he : runNested step body s = .ok s') : P s' ∧ s'.Schooled p := by
  induction body generalizing s with
  | nil =>
    cases he
    exact ⟨hp, hsc⟩
  | cons op ops ih =>
    rw [runNested] at he
    split at he
    · next r t ht =>
      obtain ⟨hp', hsc'⟩ := h op s r t hb.1 hs hp hsc ht
      have hs' := (hl op s r t hs ht).2
      exact ih hb.2 ((Move.aside (answered_aside r t)).sound hs') (hP.answered r hp')
        (hsc'.of_hooks rfl rfl rfl) he
    · cases he

theorem react_upholds (hP : Upheld p P) (hl : LawfulStep step) (h : UpholdsStep p P step) :
    Respects (react step) fun s => P s ∧ s.Schooled p := by
  intro g s s' hs hp he
  rw [react] at he
  split at he
  · next body hb =>
    exact runNested_upholds hP hl h (hp.2.hook hb) ((Move.aside (hook_aside g s)).sound hs)
      (hP.hooked g hp.1) ((hp.2.eraseHook g).of_hooks rfl rfl rfl) he
  · cases he
    exact hp

theorem runThread_upholds (hP : Upheld p P) (hl : LawfulStep step) (h : UpholdsStep p P step)
    (hb : body.Only p) (hs : Sound [] s) (hp : P s) (hsc : s.Schooled p)
    (he : runThread step body s = .ok s') : P s' ∧ s'.Schooled p := by
  rw [runThread] at he
  cases ht : runNested step body s.startThread with
  | error e => rw [ht] at he; cases he
  | ok t =>
    rw [ht] at he
    cases he
    obtain ⟨hp', hsc'⟩ := runNested_upholds hP hl h hb hs.startThread (hP.startThread hp)
      hsc.startThread ht
    exact ⟨hP.endThread hp hp', hsc.endThread hsc'⟩

end Scripts

section Runs

variable {P : State → Prop} {n : Nat} {op : Op} {r : Reply}

theorem Upheld.both (hP : Upheld p P) (ho : op.Only p) (hop : ∀ body, op ≠ .thread body)
    (hs : Sound [] s) (hp : P s) (hsc : s.Schooled p) :
    (op.course s).Keeps fun s => P s ∧ s.Schooled p :=
  (hP.course ho hop hs hp).and (ho.schooled hsc)

/-- **What the operations of a class keep lasts over all their runs.** -/
theorem Upheld.step (hP : Upheld p P) (n : Nat) : UpholdsStep p P (step n) := by
  induction n with
  | zero => intro op s r s' ho hs hp hsc he; cases he
  | succ n ih =>
    intro op s r s' ho hs hp hsc he
    have hl := step_lawful n
    by_cases hop : ∃ body, op = .thread body
    · obtain ⟨body, rfl⟩ := hop
      exact runThread_upholds hP hl ih ho hs hp hsc (step_thread he).2
    · have hop : ∀ body, op ≠ .thread body := fun body hb => hop ⟨body, hb⟩
      rw [step_perform hop] at he
      exact (hP.both ho hop hs hp hsc).ended (react_lawful hl) (react_upholds hP hl ih) hs
        (Action.performing_does op hs) he

/-- The states that runs of the class come to, on threads that take turns between operations. -/
inductive ReachedBy (p : Op → Prop) : State → Prop
  | start (build : Build) (profiling : Bool) (environment : Table String Text.Utf8.Bytes)
      (file : FileContent) : ReachedBy p (.start build profiling environment file)
  | ended {s s' : State} {n : Nat} {op : Op} {r : Reply} (h : ReachedBy p s) (ho : op.Only p)
      (he : step n op s = .ended r s') : ReachedBy p s'
  | answered {s : State} (r : Reply) (h : ReachedBy p s) : ReachedBy p (s.note (.answered r))
  | signalled {s t : State} {n : Nat} {op : Op} {g : Signal} (h : ReachedBy p s) (ho : op.Only p)
      (hop : ∀ body, op ≠ .thread body)
      (hg : (op.course s).Sends (react (step n)) g t) : ReachedBy p t
  | hooked {s : State} (g : Signal) (h : ReachedBy p s) :
      ReachedBy p ((s.eraseHook g).note (.hook g))
  | threaded {s : State} (h : ReachedBy p s) : ReachedBy p s.startThread
  | switched {s : State} {t : Thread} {ts : List Thread} (h : ReachedBy p s)
      (hp : (t :: ts).Perm (s.thread :: s.waiting)) : ReachedBy p (s.switch t ts)

/-- The states that a run of the class comes to after `s`. -/
inductive Later (p : Op → Prop) (s : State) : State → Prop
  | refl : Later p s s
  | ended {t t' : State} {n : Nat} {op : Op} {r : Reply} (h : Later p s t) (ho : op.Only p)
      (he : step n op t = .ended r t') : Later p s t'
  | answered {t : State} (r : Reply) (h : Later p s t) : Later p s (t.note (.answered r))
  | signalled {t t' : State} {n : Nat} {op : Op} {g : Signal} (h : Later p s t) (ho : op.Only p)
      (hop : ∀ body, op ≠ .thread body)
      (hg : (op.course t).Sends (react (step n)) g t') : Later p s t'
  | hooked {t : State} (g : Signal) (h : Later p s t) :
      Later p s ((t.eraseHook g).note (.hook g))
  | threaded {t : State} (h : Later p s t) : Later p s t.startThread
  | switched {t : State} {u : Thread} {us : List Thread} (h : Later p s t)
      (hp : (u :: us).Perm (t.thread :: t.waiting)) : Later p s (t.switch u us)

theorem Later.sound (h : Later p s t) (hs : Sound [] s) : Sound [] t := by
  induction h with
  | refl => exact hs
  | ended _ _ he ih => exact (step_lawful _ _ _ _ _ ih he).2
  | answered r _ ih => exact (Move.aside (answered_aside r _)).sound ih
  | signalled _ _ _ hg ih => exact ih.sends hg
  | hooked g _ ih => exact (Move.aside (hook_aside g _)).sound ih
  | threaded _ ih => exact ih.startThread
  | switched _ hp ih => exact ih.switch hp

/-- **What the operations of a class keep lasts over the rest of the run.** -/
theorem Later.upheld (h : Later p s t) (hP : Upheld p P) (hs : Sound [] s) (hp : P s)
    (hsc : s.Schooled p) : P t ∧ t.Schooled p := by
  induction h with
  | refl => exact ⟨hp, hsc⟩
  | ended hr ho he ih => exact hP.step _ _ _ _ _ ho (hr.sound hs) ih.1 ih.2 he
  | answered r _ ih => exact ⟨hP.answered r ih.1, ih.2.of_hooks rfl rfl rfl⟩
  | @signalled t t' n op g hr ho hop hg ih =>
    have hl := step_lawful n
    have ht := hr.sound hs
    exact (hP.both ho hop ht ih.1 ih.2).sends (react_lawful hl)
      (react_upholds hP hl (hP.step n)) ht (Action.performing_does op ht) hg
  | hooked g _ ih => exact ⟨hP.hooked g ih.1, (ih.2.eraseHook g).of_hooks rfl rfl rfl⟩
  | threaded _ ih => exact ⟨hP.startThread ih.1, ih.2.startThread⟩
  | switched _ hp ih => exact ⟨hP.switch hp ih.1, ih.2.switch hp⟩

theorem ReachedBy.begun (h : ReachedBy p s) : ∃ s₀, (∃ build profiling environment file,
    s₀ = .start build profiling environment file) ∧ Later p s₀ s := by
  induction h with
  | start => exact ⟨_, ⟨_, _, _, _, rfl⟩, .refl⟩
  | ended _ ho he ih => exact ih.imp fun _ => .imp_right (·.ended ho he)
  | answered r _ ih => exact ih.imp fun _ => .imp_right (·.answered r)
  | signalled _ ho hop hg ih => exact ih.imp fun _ => .imp_right (·.signalled ho hop hg)
  | hooked g _ ih => exact ih.imp fun _ => .imp_right (·.hooked g)
  | threaded _ ih => exact ih.imp fun _ => .imp_right (·.threaded)
  | switched _ hp ih => exact ih.imp fun _ => .imp_right (·.switched hp)

theorem ReachedBy.later (h : ReachedBy p s) (hl : Later p s t) : ReachedBy p t := by
  induction hl with
  | refl => exact h
  | ended _ ho he ih => exact ih.ended ho he
  | answered r _ ih => exact ih.answered r
  | signalled _ ho hop hg ih => exact ih.signalled ho hop hg
  | hooked g _ ih => exact ih.hooked g
  | threaded _ ih => exact ih.threaded
  | switched _ hp ih => exact ih.switched hp

theorem ReachedBy.sound (h : ReachedBy p s) : Sound [] s := by
  obtain ⟨_, ⟨_, _, _, _, rfl⟩, hl⟩ := h.begun
  exact hl.sound (.start _ _ _ _)

/-- **What the operations of a class keep holds of every state that their runs come to.** -/
theorem ReachedBy.upheld (h : ReachedBy p s) (hP : Upheld p P)
    (hstart : ∀ build profiling environment file, P (.start build profiling environment file)) :
    P s ∧ s.Schooled p := by
  obtain ⟨_, ⟨_, _, _, _, rfl⟩, hl⟩ := h.begun
  exact hl.upheld hP (.start _ _ _ _) (hstart _ _ _ _) (.start _ _ _ _)

end Runs

end ClaimCells
