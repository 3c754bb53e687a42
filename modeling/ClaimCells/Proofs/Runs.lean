import ClaimCells.Proofs.Operations

/-!
# Runs

A state is reached when a run of operations leads to it: between two operations, at a signal while
an operation waits for a script, within such a script, or on another thread. What no move and no
change of threads breaks holds of all of them.

Main results: `step_lawful`, a script leaves to the operation that waits for it what that has in its
hands and in use, `Reached.sound` and `Reached.stable`.
-/

namespace ClaimCells

open Act (Outcome)

variable {α : Type} {s s' t : State} {l l' : List Cell} {ds : List Deed} {g : Signal} {n : Nat}
  {op : Op} {r : Reply}

/-! ## Threads -/

theorem Lasting.startThread (s : State) : Lasting s s.startThread :=
  .of_eq rfl rfl

theorem Lasting.endThread (s' s : State) : Lasting s' (s'.endThread s) :=
  .of_eq rfl rfl

theorem Sound.startThread (h : Sound [] s) : Sound [] s.startThread := by
  have hl := Lasting.startThread s
  have ht : ∀ w, s.startThread.tally w = s.tally w := fun w => by
    show 0 + (List.map _ (s.thread :: (s.waiting ++ s.ended))).sum + _ = _
    rw [List.map_cons, List.sum_cons, Nat.zero_add]
    rfl
  exact
    { handles := fun id => by rw [ht]; exact h.handles id
      owners := fun id => by rw [ht]; exact h.owners id
      shared := h.shared
      youngSlots := h.youngSlots
      native := fun i c hi => (h.native i c hi).mono hl
      thread :=
        { young := fun _ _ h => nomatch h
          placed := fun _ _ h => nomatch h
          fits := fun _ _ _ h _ => nomatch h
          keyed := fun _ _ h => nomatch h
          distinct := fun _ _ _ h _ => nomatch h }
      others := fun t ht => by
        rcases List.mem_cons.1 ht with rfl | ht
        · exact h.thread.mono hl
        · exact (h.others t ht).mono hl }

theorem Sound.endThread (h : Sound [] s') (hw : s'.waiting = s.thread :: s.waiting) :
    Sound [] (s'.endThread s) := by
  have hl := Lasting.endThread s' s
  have ht : ∀ w, (s'.endThread s).tally w = s'.tally w := fun w => by
    show s.thread.tally w + ((s.waiting ++ s'.thread :: s'.ended).map (Thread.tally w)).sum + _ = _
    rw [State.tally, hw]
    simp only [List.map_append, List.map_cons, List.sum_append, List.sum_cons, List.cons_append]
    show _ + s'.handles.sum _ = _
    omega
  exact
    { handles := fun id => by rw [ht]; exact h.handles id
      owners := fun id => by rw [ht]; exact h.owners id
      shared := h.shared
      youngSlots := h.youngSlots
      native := fun i c hi => (h.native i c hi).mono hl
      thread := (h.others s.thread (by rw [hw]; exact List.mem_cons_self)).mono hl
      others := fun t ht => by
        rcases List.mem_append.1 ht with ht | ht
        · refine (h.others t ?_).mono hl
          rw [hw]
          exact List.mem_append_left _ (List.mem_cons_of_mem _ ht)
        · rcases List.mem_cons.1 ht with rfl | ht
          · exact h.thread.mono hl
          · exact (h.others t (List.mem_append_right _ ht)).mono hl }

/-! ## What nothing breaks -/

/-- No move and no change of threads breaks the property. -/
structure Stable (P : State → Prop) : Prop where
  move : ∀ {l s ds l' s'}, Sound l s → Move l s ds l' s' → P s → P s'
  startThread : ∀ {s}, P s → P s.startThread
  endThread : ∀ {s s'}, Sound [] s' → s'.waiting = s.thread :: s.waiting → P s' → P (s'.endThread s)

/-- Whatever scripts do, the property lasts. -/
def Respects (react : Signal → State → Except (Halt × State) State) (P : State → Prop) : Prop :=
  ∀ g s s', Sound [] s → P s → react g s = .ok s' → P s'

/-- The course comes to a signal. -/
inductive Act.Sends (react : Signal → State → Except (Halt × State) State) :
    Act α → Signal → State → Prop
  | now (g : Signal) (s : State) (next : State → Act α) : Sends react (.send g s next) g s
  | later {g g' : Signal} {s s' t : State} {next : State → Act α} (h : react g s = .ok s')
      (hn : Sends react (next s') g' t) : Sends react (.send g s next) g' t

section Stable

variable {react : Signal → State → Except (Halt × State) State} {P : State → Prop} {Q : Post α}
  {x : Act α} {res : Except Failure α}

theorem Moves.stable (hP : Stable P) (m : Moves l s ds l' s') (hs : Sound l s) (h : P s) :
    P s' := by
  induction m with
  | refl => exact h
  | cons hm _ ih => exact ih (hm.sound hs) (hP.move hs hm h)

theorem Aside.stable (hP : Stable P) (ha : Aside s s') (hs : Sound [] s) (h : P s) : P s' :=
  hP.move hs (.aside ha) h

theorem Act.Does.stable (hr : Lawful react) (hP : Stable P) (hk : Respects react P)
    (hs : Sound l s) (h : x.Does Q ds l s) (hp : P s) (he : x.settle react = .ended res s') :
    P s' := by
  induction x generalizing ds l s with
  | done a t | fail f t =>
    obtain ⟨ds', l', m, -⟩ := h
    cases he
    exact m.stable hP hs hp
  | halt => cases he
  | send g t next ih =>
    obtain ⟨ds', m, hn⟩ := h
    rw [Act.settle] at he
    split at he
    · next t' ht' =>
      obtain ⟨hc, hs'⟩ := hr g t t' (m.sound hs) ht'
      exact ih t' hs' (hn t' hc hs') (hk g t t' (m.sound hs) (m.stable hP hs hp) ht') he
    · cases he

/-- At a signal everything is as it should be. -/
theorem Act.Does.sends (hr : Lawful react) (hP : Stable P) (hk : Respects react P)
    (hs : Sound l s) (h : x.Does Q ds l s) (hp : P s) (hg : x.Sends react g t) :
    Sound [] t ∧ P t := by
  induction hg generalizing ds l s with
  | now g u next =>
    obtain ⟨ds', m, -⟩ := h
    exact ⟨m.sound hs, m.stable hP hs hp⟩
  | @later g g' u u' t next hu hn ih =>
    obtain ⟨ds', m, hd⟩ := h
    obtain ⟨hc, hs'⟩ := hr g u u' (m.sound hs) hu
    exact ih hs' (hd u' hc hs') (hk g u u' (m.sound hs) (m.stable hP hs hp) hu)

end Stable

/-! ## Scripts -/

/-- An operation leaves the hands, and the kept cells in use, as it found them. -/
def LawfulStep (step : Op → State → Outcome Answer) : Prop :=
  ∀ op s r s', Sound [] s → step op s = .ended r s' → Came s s.thread.hands s' ∧ Sound [] s'

/-- Whatever an operation does, the property lasts. -/
def RespectsStep (step : Op → State → Outcome Answer) (P : State → Prop) : Prop :=
  ∀ op s r s', Sound [] s → P s → step op s = .ended r s' → P s'

theorem answered_aside (r : Reply) (s : State) : Aside s (s.note (.answered r)) :=
  .noting rfl (List.singleton_append).symm fun e he => by rw [List.mem_singleton.1 he]; rfl

theorem hook_aside (g : Signal) (s : State) : Aside s ((s.eraseHook g).note (.hook g)) := by
  obtain ⟨es, hj, hes⟩ := (Action.eraseHook_aside g s).journal
  refine { (Action.eraseHook_aside g s) with journal := ⟨.hook g :: es, ?_, ?_⟩ }
  · show _ :: (s.eraseHook g).journal = _
    rw [hj]
    rfl
  · intro e he
    rcases List.mem_cons.1 he with rfl | he
    · rfl
    · exact hes e he

section Scripts

variable {step : Op → State → Outcome Answer} {P : State → Prop}

theorem runNested_lawful (h : LawfulStep step) (body : Script) (hs : Sound [] s)
    (he : runNested step body s = .ok s') : Came s s.thread.hands s' ∧ Sound [] s' := by
  induction body generalizing s with
  | nil =>
    cases he
    exact ⟨.refl _, hs⟩
  | cons op ops ih =>
    rw [runNested] at he
    split at he
    · next r t ht =>
      obtain ⟨hc, hs'⟩ := h op s r t hs ht
      have ha := answered_aside r t
      obtain ⟨hc', hs''⟩ := ih ((Move.aside ha).sound hs') he
      exact ⟨(hc.stay ha.came).trans (hc.hands ▸ hc'), hs''⟩
    · cases he

theorem runNested_respects (hl : LawfulStep step) (hP : Stable P) (h : RespectsStep step P)
    (body : Script) (hs : Sound [] s) (hp : P s) (he : runNested step body s = .ok s') : P s' := by
  induction body generalizing s with
  | nil =>
    cases he
    exact hp
  | cons op ops ih =>
    rw [runNested] at he
    split at he
    · next r t ht =>
      have hs' := (hl op s r t hs ht).2
      have ha := answered_aside r t
      exact ih ((Move.aside ha).sound hs') (ha.stable hP hs' (h op s r t hs hp ht)) he
    · cases he

theorem react_lawful (h : LawfulStep step) : Lawful (react step) := by
  intro g s s' hs he
  rw [react] at he
  split at he
  · have ha := hook_aside g s
    obtain ⟨hc, hs'⟩ := runNested_lawful h _ ((Move.aside ha).sound hs) he
    exact ⟨ha.came.trans (ha.hands ▸ hc), hs'⟩
  · cases he
    exact ⟨.refl _, hs⟩

theorem react_respects (hl : LawfulStep step) (hP : Stable P) (h : RespectsStep step P) :
    Respects (react step) P := by
  intro g s s' hs hp he
  rw [react] at he
  split at he
  · have ha := hook_aside g s
    exact runNested_respects hl hP h _ ((Move.aside ha).sound hs) (ha.stable hP hs hp) he
  · cases he
    exact hp

/-- A thread of its own leaves the one that waits for it alone. -/
theorem runThread_lawful (h : LawfulStep step) {body : Script} (hs : Sound [] s)
    (he : runThread step body s = .ok s') : Came s s.thread.hands s' ∧ Sound [] s' := by
  rw [runThread] at he
  cases ht : runNested step body s.startThread with
  | error e => rw [ht] at he; cases he
  | ok t =>
    rw [ht] at he
    cases he
    obtain ⟨hc, hs'⟩ := runNested_lawful h body hs.startThread ht
    refine ⟨⟨⟨?_, rfl, hc.build, fun k e he _ => he, fun k _ hn => hn⟩, rfl⟩,
      hs'.endThread hc.waiting⟩
    exact (Lasting.startThread s).trans (hc.lasting.trans (.endThread t s))

theorem runThread_respects (hl : LawfulStep step) (hP : Stable P) (h : RespectsStep step P)
    {body : Script} (hs : Sound [] s) (hp : P s) (he : runThread step body s = .ok s') : P s' := by
  rw [runThread] at he
  cases ht : runNested step body s.startThread with
  | error e => rw [ht] at he; cases he
  | ok t =>
    rw [ht] at he
    cases he
    obtain ⟨hc, hs'⟩ := runNested_lawful hl body hs.startThread ht
    exact hP.endThread hs' hc.waiting
      (runNested_respects hl hP h body hs.startThread (hP.startThread hp) ht)

end Scripts

/-! ## Every depth -/

/-- An operation that is no thread. -/
theorem step_perform (h : ∀ body, op ≠ .thread body) :
    step (n + 1) op s = (Action.unwinding (perform op) s).settle (react (step n)) := by
  cases op with
  | thread body => exact absurd rfl (h body)
  | _ => rfl

/-- An operation that sends no signal. -/
theorem step_done {x : Answer} (h : perform op s = .done x t) (hop : ∀ body, op ≠ .thread body) :
    step (n + 1) op s = .ended (.ok x) t := by
  rw [step_perform hop, Action.unwinding_done h]
  rfl

theorem step_halt {p : Halt} (h : perform op s = .halt p t) (hop : ∀ body, op ≠ .thread body) :
    step (n + 1) op s = .halted p t := by
  rw [step_perform hop, Action.unwinding_halt h]
  rfl

theorem step_fail {f : Failure} (h : perform op s = .fail f t)
    (hh : t.thread.hands = s.thread.hands) (hop : ∀ body, op ≠ .thread body) :
    step (n + 1) op s = .ended (.error f) t := by
  rw [step_perform hop, Action.unwinding_fail h hh]
  rfl

theorem step_thread {body : Script} (he : step (n + 1) (.thread body) s = .ended r s') :
    r = .ok .nothing ∧ runThread (step n) body s = .ok s' := by
  rw [step] at he
  split at he
  · next t ht => cases he; exact ⟨rfl, ht⟩
  · cases he

/-- **Operations leave the hands, and the kept cells in use, as they found them**, whatever the
scripts do that they set off. -/
theorem step_lawful (n : Nat) : LawfulStep (step n) := by
  induction n with
  | zero => intro op s r s' hs he; cases he
  | succ n ih =>
    intro op s r s' hs he
    by_cases hop : ∃ body, op = .thread body
    · obtain ⟨body, rfl⟩ := hop
      exact runThread_lawful ih hs (step_thread he).2
    · rw [step_perform fun body hb => hop ⟨body, hb⟩] at he
      obtain ⟨l', hs', rfl, -, hc⟩ :=
        (Action.performing_does op hs).settle (react_lawful ih) hs he
      exact ⟨hc, hs'⟩

theorem step_respects {P : State → Prop} (hP : Stable P) (n : Nat) : RespectsStep (step n) P := by
  induction n with
  | zero => intro op s r s' hs hp he; cases he
  | succ n ih =>
    intro op s r s' hs hp he
    have hl := step_lawful n
    by_cases hop : ∃ body, op = .thread body
    · obtain ⟨body, rfl⟩ := hop
      exact runThread_respects hl hP ih hs hp (step_thread he).2
    · rw [step_perform fun body hb => hop ⟨body, hb⟩] at he
      exact (Action.performing_does op hs).stable (react_lawful hl) hP (react_respects hl hP ih)
        hs hp he

/-! ## Reached states -/

/-- The states that a run comes to: the beginning, the end of every operation, every signal that
sets off a script, and the beginning of every script and thread. -/
inductive Reached : State → Prop
  | start (build : Build) (profiling : Bool) (environment : Table String Text.Utf8.Bytes)
      (file : FileContent) : Reached (.start build profiling environment file)
  | ended {s s' : State} {n : Nat} {op : Op} {r : Reply} (h : Reached s)
      (he : step n op s = .ended r s') : Reached s'
  | answered {s : State} (r : Reply) (h : Reached s) : Reached (s.note (.answered r))
  | signalled {s t : State} {n : Nat} {op : Op} {g : Signal} (h : Reached s)
      (hg : (Action.unwinding (perform op) s).Sends (react (step n)) g t) : Reached t
  | hooked {s : State} (g : Signal) (h : Reached s) : Reached ((s.eraseHook g).note (.hook g))
  | threaded {s : State} (h : Reached s) : Reached s.startThread

theorem Stable.true : Stable fun _ => True :=
  ⟨fun _ _ _ => trivial, fun _ => trivial, fun _ _ _ => trivial⟩

/-- At a signal of an operation the tables of cells agree. -/
theorem Sound.sends (h : Sound [] s)
    (hg : (Action.unwinding (perform op) s).Sends (react (step n)) g t) : Sound [] t := by
  have hl := step_lawful n
  exact ((Action.performing_does op h).sends (react_lawful hl) .true
    (react_respects hl .true (step_respects .true n)) h trivial hg).1

/-- The tables of cells agree in every state that is reached. -/
theorem Reached.sound (h : Reached s) : Sound [] s := by
  induction h with
  | start => exact .start _ _ _ _
  | ended _ he ih => exact (step_lawful _ _ _ _ _ ih he).2
  | answered r _ ih => exact (Move.aside (answered_aside r _)).sound ih
  | signalled _ hg ih => exact ih.sends hg
  | hooked g _ ih => exact (Move.aside (hook_aside g _)).sound ih
  | threaded _ ih => exact ih.startThread

/-- **What nothing breaks holds of every state that is reached.** -/
theorem Reached.stable {P : State → Prop} (hP : Stable P)
    (hstart : ∀ build profiling environment file, P (.start build profiling environment file))
    (h : Reached s) : P s := by
  induction h with
  | start => exact hstart _ _ _ _
  | ended hr he ih => exact step_respects hP _ _ _ _ _ hr.sound ih he
  | answered r hr ih => exact (answered_aside r _).stable hP hr.sound ih
  | @signalled s t n op g hr hg ih =>
    have hl := step_lawful n
    exact ((Action.performing_does op hr.sound).sends (react_lawful hl) hP
      (react_respects hl hP (step_respects hP n)) hr.sound ih hg).2
  | hooked g hr ih => exact (hook_aside g _).stable hP hr.sound ih
  | threaded _ ih => exact hP.startThread ih

/-- The operations of a script lead on. -/
theorem Reached.script {body : Script} (h : Reached s) (he : runNested (step n) body s = .ok s') :
    Reached s' := by
  induction body generalizing s with
  | nil =>
    cases he
    exact h
  | cons op ops ih =>
    rw [runNested] at he
    split at he
    · next r t ht => exact ih ((h.ended ht).answered r) he
    · cases he

/-- So what a script is seen to leave is seen in a state that is reached. -/
theorem Reached.script_leaves {β : Type} {body : Script} {f : State → β} {x : β} (h : Reached s)
    (he : (runNested (step n) body s).toOption.map f = some x) : ∃ s', Reached s' ∧ f s' = x := by
  cases hs : runNested (step n) body s with
  | error e =>
    rw [hs] at he
    cases he
  | ok s' =>
    rw [hs] at he
    cases he
    exact ⟨s', h.script hs, rfl⟩

end ClaimCells
