import ClaimCells.Proofs.Calls

/-!
# Installed functions

The functions that native code installs first stay in effect, and no others are ever called: claims
are given up through them, and none is acquired. So the state
shows which calls are fatal, in every run of exported calls, on any threads and with any scripts.

Main result: `calls_fatal`.
-/

namespace ClaimCells

variable {s t u : State} {op : NativeOp} {f : Functions} {n : Nat}

/-- The operation is a call that is exported to native code. -/
def Op.Exported : Op → Prop
  | .native op => op.Exported
  | _ => False

namespace NativeOp.Exported

theorem not_acquires (h : op.Exported) : ¬ op.Acquires := by
  cases op <;> first | exact id | exact h.elim

theorem not_readsOwned (h : op.Exported) : ¬ op.ReadsOwned := by
  cases op <;> first | exact id | exact h.elim

end NativeOp.Exported

theorem ReachedBy.unlocked (h : ReachedBy Op.Exported s) : s.Locked [] :=
  (h.amid fun op ho => by
    cases op with
    | native op => exact NativeOp.Exported.not_readsOwned ho
    | _ => exact ho.elim).locked

/-! ## What stays -/

/-- The functions in effect stay, and no others are called. -/
def State.Adheres (s t : State) : Prop :=
  t.functions = s.functions ∧
    ∃ es, t.journal = es ++ s.journal ∧ ∀ e ∈ es, e.Backed False s.functions

/-- All calls went to the functions in effect. -/
def State.Backed (s : State) : Prop :=
  ∀ e ∈ s.journal, e.Backed False s.functions

/-- Entries that tell of no call. -/
def Entry.Quiet (e : Entry) : Prop :=
  ∀ f, e.Backed False f

theorem Entry.Backed.quiet {e : Entry} (h : e.Backed False none) : e.Quiet := by
  intro f
  cases e with
  | called l m o =>
    cases m with
    | acquired => exact h.1.elim
    | released =>
      obtain ⟨_, hf, -⟩ := h
      cases hf
    | freed => exact h.elim
  | _ => trivial

namespace State

theorem Adheres.refl (s : State) : s.Adheres s :=
  ⟨rfl, [], rfl, nofun⟩

theorem Adheres.trans (h : s.Adheres t) (h' : t.Adheres u) : s.Adheres u := by
  obtain ⟨hf, es, hj, hes⟩ := h
  obtain ⟨hf', es', hj', hes'⟩ := h'
  refine ⟨hf'.trans hf, es' ++ es, by rw [hj', hj, List.append_assoc], fun e he => ?_⟩
  rw [hf] at hes'
  exact (List.mem_append.1 he).elim (hes' e) (hes e)

theorem Adheres.backed (h : s.Adheres t) (hs : s.Backed) : t.Backed := by
  obtain ⟨hf, es, hj, hes⟩ := h
  intro e he
  rw [hf]
  rw [hj] at he
  exact (List.mem_append.1 he).elim (hes e) (hs e)

theorem Backed.called {l : Library} {m : Moment} {o : ObjectId} (h : s.Backed)
    (hc : .called l m o ∈ s.journal) :
    m = .released ∧ ∃ f, s.functions = some f ∧ l = f.release := by
  have hb := h _ hc
  cases m with
  | acquired => exact hb.1.elim
  | released => exact ⟨rfl, hb⟩
  | freed => exact hb.elim

theorem Adheres.silent (hf : t.functions = s.functions) (hj : t.journal = s.journal) :
    s.Adheres t :=
  ⟨hf, [], hj, nofun⟩

theorem note_adheres {e : Entry} (he : e.Quiet) : s.Adheres (s.note e) :=
  ⟨rfl, [e], rfl, fun _ h => List.mem_singleton.1 h ▸ he _⟩

theorem setHook_adheres (g : Signal) (body : Script) : s.Adheres (s.setHook g body) := by
  unfold State.setHook
  split <;> exact .silent rfl rfl

theorem eraseHook_adheres (g : Signal) : s.Adheres (s.eraseHook g) := by
  unfold State.eraseHook
  split <;> exact .silent rfl rfl

/-- Putting settings in place calls nothing. -/
theorem putInPlace_adheres (c : Settings) : s.Adheres (s.putInPlace c) := by
  have hload : s.Adheres s.loaded := by
    rw [loaded]
    split
    · exact .refl s
    · exact .silent rfl rfl
    · exact ⟨rfl, [_], rfl, by simp [Entry.Backed]⟩
  have hset : s.loaded.Adheres { s.loaded with settings := some c } := .silent rfl rfl
  exact hload.trans (hset.trans ⟨rfl, [_, _], rfl, by simp [Entry.Backed]⟩)

end State

/-! ## Installing -/

/-- Later installations change nothing, and say whether the functions are those in effect. -/
theorem course_installed (hf : s.functions = some f) (acq rel : Library) :
    (Op.native (.install acq rel)).course s = .done (.flag (f = ⟨acq, rel⟩)) s := by
  have hcall : Action.callNative (.install acq rel) s.calling =
      .done (.flag (f = ⟨acq, rel⟩)) s.calling := by
    have hf' : s.calling.functions = some f := hf
    simp only [Action.callNative, Action.install, Action.bind_apply, Action.get_apply,
      Action.done_bind, hf', Action.pure_apply]
  exact Action.unwinding_done (Action.nativeCall_done hcall)

/-- The first installation calls none of them. -/
theorem installing_backed (hf : s.functions = none) (hs : s.Backed) (acq rel : Library) :
    ((Op.native (.install acq rel)).course s).Keeps State.Backed := by
  have hcall := Action.callNative_install (s := s.calling) (f := acq) (g := rel) hf
  cases hv : (s.calling.stored.overlay s.calling.lookup).validate s.calling.build with
  | error e =>
    have hdepth : s.calling.loaded.thread.nativeDepth ≠ 0 := by
      rw [State.loaded_thread]
      exact Nat.succ_ne_zero _
    rw [hv] at hcall
    rw [Op.course, perform, Action.performNative, Action.unwinding_halt
      (Action.nativeCall_halt (hcall.trans (Action.violate_calling hdepth)))]
    trivial
  | ok _ =>
    rw [hv] at hcall
    rw [Op.course, perform, Action.performNative,
      Action.unwinding_done (Action.nativeCall_done hcall)]
    intro e he
    have hput := s.calling.putInPlace_adheres (s.calling.stored.overlay s.calling.lookup)
    have hquiet := hput.backed hs e he
    rw [hput.1, show s.calling.functions = none from hf] at hquiet
    exact hquiet.quiet _

/-! ## What calls keep -/

/-- What exported calls do: they acquire no claims. -/
def Scope.exported : Scope :=
  { Scope.wide State.Adheres with gains := False, reads := False, setup := False }

theorem Scope.exported_allows : Scope.exported.Allows State.Adheres :=
  { refuses := trivial
    gains := False.elim
    refl := .refl
    trans := fun _ _ _ => .trans
    beside := fun h => by
      obtain ⟨es, hj, hes⟩ := h.journal
      exact ⟨h.functions, es, hj, fun e he => (hes e he).backed⟩
    outer := id }

/-- What is done between signals adheres to the functions in effect, unless the first ones are
installed. -/
theorem course_adheres {op : Op} (ho : op.Only Op.Exported) (hop : ∀ body, op ≠ .thread body) :
    (op.course s).Stays State.Adheres s ∨
      ∃ f g, op = .native (.install f g) ∧ s.functions = none := by
  have hcell (hcount : ¬ op.Counts) (hset : ¬ op.SetsUp) (hg : ¬ op.Acquires)
      (hr : ¬ op.ReadsOwned) :
      (op.course s).Stays State.Adheres s := by
    refine (Action.unwinding_at (Action.perform_at trivial ?_ ?_ (fun h => absurd h hset) ?_
      (fun h => absurd h hg) (fun h => absurd h hr) (fun _ c _ => ?_) (fun _ c _ => ?_)
      fun _ => ⟨trivial, fun _ => trivial⟩)).stays Scope.exported_allows
    · exact fun s n e => .silent rfl rfl
    · exact fun h => absurd h hcount
    · exact fun g body _ s => State.setHook_adheres g body
    · cases c <;> trivial
    · cases c <;> trivial
  cases op with
  | native op =>
    by_cases hinst : ∃ f g, op = .install f g
    · obtain ⟨f, g, rfl⟩ := hinst
      cases hf : s.functions with
      | none => exact .inr ⟨f, g, rfl, rfl⟩
      | some f₀ =>
        rw [course_installed hf]
        exact .inl (.refl s)
    · refine .inl (hcell id ?_ (NativeOp.Exported.not_acquires ho)
        (NativeOp.Exported.not_readsOwned ho))
      cases op <;> first | exact id | exact fun _ => hinst ⟨_, _, rfl⟩
  | hook g body => exact .inl (hcell id id id id)
  | thread body => exact absurd rfl (hop body)
  | _ => exact ho.elim

/-- **All calls go to the functions in effect.** -/
theorem backed_upheld : Upheld Op.Exported State.Backed where
  course := by
    intro op s ho hop _ hs
    rcases course_adheres (s := s) ho hop with h | ⟨acq, rel, rfl, hf⟩
    · exact h.keeps State.Adheres.backed hs
    · exact installing_backed hf hs acq rel
  answered r h := (State.note_adheres (e := .answered r) fun _ => trivial).backed h
  hooked g h := ((State.eraseHook_adheres g).trans
    (State.note_adheres (e := .hook g) fun _ => trivial)).backed h
  startThread h := h
  endThread _ h := h
  switch _ h := h

/-- **The functions in effect stay.** -/
theorem functions_upheld (f : Functions) :
    Upheld Op.Exported fun s => s.functions = some f where
  course := by
    intro op s ho hop _ hs
    rcases course_adheres (s := s) ho hop with h | ⟨acq, rel, rfl, hf⟩
    · exact h.keeps (fun h => h.1.trans) hs
    · cases hs.symm.trans hf
  answered _ h := h
  hooked g h := (State.eraseHook_adheres g).1.trans h
  startThread h := h
  endThread _ h := h
  switch _ h := h

/-! ## Fatal calls -/

/-- No script that the operation sets off breaks off. -/
def Op.Steady (n : Nat) (op : Op) (s : State) : Prop :=
  ∀ g t, (op.course s).Sends (react (step n)) g t → ∃ u, react (step n) g t = .ok u

/-- **Which calls are fatal.** A call is fatal just when it passes null where something must be,
has to give up a claim while no functions are in effect, or installs the first ones and the start
from the environment fails; every other call is answered, unless a script breaks off or there is no
room for counting. No function is called before some are in effect. Those that are installed first
stay in effect, and all claims are given up through them; later installations only say whether they
are the same. -/
theorem calls_fatal (h : ReachedBy Op.Exported s) (hop : op.Exported) (hlive : op.Live s) :
    (op.Fatal s → ∃ p t, step (n + 1) (.native op) s = .halted (.fatal p) t) ∧
    (¬ op.Fatal s → Op.Steady n (.native op) s →
      (∃ t, step (n + 1) (.native op) s = .ended (.ok (op.answer s)) t) ∨
      s.profiler.Full ∧ ∃ t, step (n + 1) (.native op) s = .halted (.fatal .overflow) t) ∧
    (s.functions = none →
      (∀ l m o, .called l m o ∉ s.journal) ∧
      ∀ acq rel x t, op = .install acq rel → step (n + 1) (.native op) s = .ended x t →
        t.functions = some ⟨acq, rel⟩) ∧
    ∀ f, s.functions = some f → ∀ t, Later Op.Exported s t →
      t.functions = some f ∧
      (∀ l m o, .called l m o ∈ t.journal → m = .released ∧ l = f.release) ∧
      ∀ m acq rel, step (m + 1) (.native (.install acq rel)) t =
        .ended (.ok (.flag (f = ⟨acq, rel⟩))) t := by
  have hbacked {t : State} (h : ReachedBy Op.Exported t) : t.Backed ∧ t.Schooled Op.Exported :=
    h.upheld backed_upheld fun _ _ _ _ _ he => nomatch he
  have hgoes := course_exported h.sound h.unlocked hop hlive
  have hstep (n op s) : step (n + 1) (.native op) s =
      ((Op.native op).course s).settle (react (step n)) :=
    step_perform nofun
  refine ⟨fun hf => ?_, fun hf hsteady => ?_, fun hnone => ⟨fun l m o hc => ?_, ?_⟩,
    fun f hf t hl => ?_⟩
  · obtain ⟨p, t, ht⟩ := hgoes.halts hf
    exact ⟨p, t, by rw [hstep, ht]; rfl⟩
  · obtain ⟨_, t, ht, -⟩ | ⟨hfull, t, ht⟩ := hgoes.answers hf
    · obtain hend | ⟨g, hg, hend⟩ := ht.settle (react (step n))
      · exact .inl ⟨_, (hstep n op s).trans hend⟩
      · obtain ⟨u, hu⟩ := hsteady g t hg
        rw [hu] at hend
        exact .inl ⟨_, (hstep n op s).trans hend⟩
    · exact .inr ⟨hfull, t, by rw [hstep, ht]; rfl⟩
  · obtain ⟨-, f, hf, -⟩ := (hbacked h).1.called hc
    cases hnone.symm.trans hf
  · rintro acq rel x t rfl he
    obtain ⟨hok, herror⟩ := step_install (f := acq) (g := rel) hnone n
    cases hv : (s.stored.overlay s.lookup).validate s.build with
    | ok _ =>
      obtain ⟨t', ht', -, hf⟩ := hok hv
      cases he.symm.trans ht'
      exact hf
    | error e =>
      obtain ⟨t', ht', -⟩ := herror e hv
      cases he.symm.trans ht'
  · have hft : t.functions = some f :=
      (hl.upheld (functions_upheld f) h.sound hf (hbacked h).2).1
    refine ⟨hft, fun l m o hc => ?_, fun m acq rel => ?_⟩
    · obtain ⟨hm, f', hf', hl'⟩ := (hbacked (h.later hl)).1.called hc
      cases hft.symm.trans hf'
      exact ⟨hm, hl'⟩
    · rw [hstep, course_installed hft]
      rfl

/-- The last handle of a bound cell cannot be given up before functions are installed. -/
theorem calls_fatal_release : ∃ s : State, s.functions = none ∧
    NativeOp.Live s (.release (some "")) ∧
    ∃ p t, step 1 (.native (.release (some ""))) s = .halted (.fatal p) t := by
  have h0 : ReachedBy Op.Exported (.start .plain false {} none) := .start _ _ _ _
  have h1 := h0.ended (show Op.Only Op.Exported (.native (.create (some "") none 1)) from trivial)
    (show step 1 _ _ = .ended _ _ from rfl)
  have hlive {s : State} (hk : s.handleKeys.get? "" = some 1)
      (hc : s.handles.get? 1 = some (.handle 0 .locally)) : NativeOp.Live s (.release (some "")) :=
    fun _ h => by
      cases h
      exact ⟨1, _, hk, hc⟩
  have hfatal := (calls_fatal (n := 0) h1 (show NativeOp.Exported (.release _) from trivial)
    (hlive rfl rfl)).1 (.inr (.inr (.inl ⟨rfl, rfl, _, rfl, rfl⟩)))
  exact ⟨_, rfl, hlive rfl rfl, hfatal⟩

end ClaimCells
