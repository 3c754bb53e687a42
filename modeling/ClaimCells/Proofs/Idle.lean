import ClaimCells.Operation
import ClaimCells.Proofs.Claims

/-!
# Operations that concern no cell

An action is idle when it makes only moves that concern no claim and no cell, and sends no signal.
It is plain when, besides, it does not look at the flags of kept cells, or at the threads that wait.
The operations on settings, managers, the process, counters and profilers are plain; a dump is
idle.

Main results: `Plain.idle`, `performSettings_plain`, `performManager_plain`, `performProcess_plain`,
`performStats_plain`, `performProfiler_plain` and `dump_idle`.
-/

namespace ClaimCells

variable {α β : Type} {s s' : State} {l l' : List Cell} {ds ds' : List Deed}

/-- Changes what is noted of kept cells, and the threads that wait. -/
def State.recast (K : Table KeptId Kept → Table KeptId Kept) (W : List Thread → List Thread)
    (s : State) : State :=
  { s with thread := { s.thread with kept := K s.thread.kept }, waiting := W s.waiting }

/-- Operations that put other counters in place. -/
def ProfilerOp.Replaces : ProfilerOp → Prop
  | .reset | .record .. => True
  | _ => False

namespace Action

open Act (Does)

/-! ## Idle actions -/

/-- The action concerns no claim and no cell. -/
def Idle (a : Action α) : Prop :=
  ∀ ds l s, Sound l s → (a s).Does
    (fun ds' l' _ s' => ds' = ds ∧ l' = l ∧ Came s s.thread.hands s') ds l s

namespace Idle

theorem pure (a : α) : Idle (pure a) :=
  fun _ _ s _ => .done ⟨rfl, rfl, .refl s⟩

theorem fail (f : Failure) : Idle (fail f : Action α) :=
  fun _ _ s _ => .fail ⟨rfl, rfl, .refl s⟩

theorem halt (h : Halt) : Idle (halt h : Action α) :=
  fun _ _ _ _ => trivial

theorem get : Idle (get : Action State) :=
  fun _ _ s _ => .done ⟨rfl, rfl, .refl s⟩

theorem thread : Idle thread :=
  fun _ _ s _ => .done ⟨rfl, rfl, .refl s⟩

theorem bind {a : Action α} {k : α → Action β} (ha : Idle a) (hk : ∀ x, Idle (k x)) :
    Idle (a >>= k) := by
  intro ds l s hs
  refine .seq hs (ha ds l s hs) ?_ ?_
  · rintro ds' l' x s' hs' ⟨rfl, rfl, hc⟩
    refine (hk x _ _ s' hs').imp ?_
    rintro ds'' l'' r s'' ⟨rfl, rfl, hc'⟩
    exact ⟨rfl, rfl, hc.stay hc'⟩
  · exact fun ds' l' f s' _ h => h

theorem tried {a : Action α} (ha : Idle a) : Idle (attempt a) := by
  intro ds l s hs
  rw [← bind_pure (attempt a)]
  exact .tried hs (ha ds l s hs) fun ds' l' r s' _ h => .done h

theorem moved {a : Action α} {x : α} {f : State → State} (h : ∀ s, a s = .done x (f s))
    (hf : ∀ s, Aside s (f s)) : Idle a := by
  intro ds l s _
  rw [h s]
  exact .idle (.aside (hf s)) (.done ⟨rfl, rfl, (hf s).came⟩)

theorem tuned {a : Action α} {x : α} {f : State → Profiler}
    (h : ∀ s, a s = .done x (s.tune (f s))) : Idle a := by
  intro ds l s _
  rw [h s]
  exact .idle (.tuned (f s)) (.done ⟨rfl, rfl, Move.came (.tuned (l := l) (f s)) rfl rfl⟩)

theorem demand (f : Failure) : ∀ a : Option α, Idle (demand f a)
  | some a => pure a
  | none => fail f

theorem mapM {γ : Type} {a : γ → Action β} (ha : ∀ x, Idle (a x)) (xs : List γ) :
    Idle (xs.mapM a) := by
  induction xs with
  | nil => rw [List.mapM_nil]; exact pure _
  | cons x xs ih =>
    rw [List.mapM_cons]
    exact bind (ha x) fun _ => bind ih fun _ => pure _

end Idle

/-! ## Plain actions -/

/-- Actions that are put together from steps that concern no claim and no cell, and that come out
the same whatever is noted of kept cells. The counters of the process may be switched on and off;
whether others may be put in place, `T` says. -/
inductive Plain (T : Prop) : {α : Type} → Action α → Prop
  | pure {α : Type} (a : α) : Plain T (pure a)
  | fail {α : Type} (f : Failure) : Plain T (fail f : Action α)
  | halt {α : Type} (h : Halt) : Plain T (halt h : Action α)
  | read {α : Type} {k : State → Action α} (h : ∀ K W s, k (s.recast K W) = k s)
      (hk : ∀ s, Plain T (k s)) : Plain T (get >>= k)
  | moved {α : Type} {a : Action α} {x : α} {f : State → State}
      (ha : ∀ s, a s = .done x (f s)) (hf : ∀ s, Aside s (f s))
      (h : ∀ K W s, f (s.recast K W) = (f s).recast K W) : Plain T a
  | tuned {α : Type} {a : Action α} {x : α} {f : State → Profiler}
      (ha : ∀ s, a s = .done x (s.tune (f s)))
      (hf : T ∨ ∀ s, (f s).stats = s.profiler.stats)
      (h : ∀ K W s, f (s.recast K W) = f s) : Plain T a
  | bind {α β : Type} {a : Action α} {k : α → Action β} (ha : Plain T a)
      (hk : ∀ x, Plain T (k x)) : Plain T (a >>= k)
  | tried {α : Type} {a : Action α} (ha : Plain T a) : Plain T (attempt a)

namespace Plain

variable {T : Prop}

theorem idle {a : Action α} (h : Plain T a) : Idle a := by
  induction h with
  | pure a => exact .pure a
  | fail f => exact .fail f
  | halt h => exact .halt h
  | read _ _ ih => exact .bind .get ih
  | moved ha hf _ => exact .moved ha hf
  | tuned ha _ _ => exact .tuned ha
  | bind _ _ ih ihk => exact .bind ih ihk
  | tried _ ih => exact .tried ih

theorem readThread {k : Thread → Action α}
    (h : ∀ K W s, k (State.recast K W s).thread = k s.thread) (hk : ∀ t, Plain T (k t)) :
    Plain T (thread >>= k) :=
  read (k := fun s => k s.thread) h fun s => hk s.thread

theorem modify {f : State → State} (hf : ∀ s, Aside s (f s))
    (h : ∀ K W s, f (s.recast K W) = (f s).recast K W) : Plain T (modify f) :=
  moved (fun _ => rfl) hf h

theorem inThread {f : Thread → Thread} (hf : ∀ s : State, Aside s (s.inThread f))
    (h : ∀ K W (s : State), (s.recast K W).inThread f = (s.inThread f).recast K W) :
    Plain T (inThread f) :=
  moved (fun _ => rfl) hf h

theorem emit {e : Event} (he : ∀ w, (Entry.event e w).idle = true) : Plain T (emit e) :=
  moved (fun _ => rfl) (fun s => Aside.emit s e he) fun _ _ _ => rfl

theorem raise (p : Panic) : Plain T (raise p : Action α) := by
  refine readThread (fun _ _ _ => rfl) fun t => ?_
  split
  · exact fail _
  · exact halt _

theorem violate (i : Invariant) : Plain T (violate i : Action α) :=
  bind (emit fun _ => rfl) fun _ => raise _

theorem checked : ∀ a : Option α, Plain T (checked a)
  | some a => pure a
  | none => raise _

theorem demand (f : Failure) : ∀ a : Option α, Plain T (demand f a)
  | some a => pure a
  | none => fail f

theorem ofExcept : ∀ r : Except Failure α, Plain T (ofExcept r)
  | .ok a => pure a
  | .error f => fail f

theorem decoded (d : Json.Decoder α) (source : Json.Source) : Plain T (decoded d source) := by
  unfold Action.decoded
  split
  · exact pure _
  · exact fail _

theorem forM {γ : Type} {a : γ → Action Unit} (ha : ∀ x, Plain T (a x)) :
    ∀ xs : List γ, Plain T (xs.forM a)
  | [] => pure ()
  | x :: xs => bind (ha x) fun _ => forM ha xs

end Plain

section Process

variable {T : Prop}

/-! ## The process -/

theorem environment_plain : Plain T environment :=
  .read (fun _ _ _ => rfl) fun _ => .pure _

theorem ofSettings_plain : ∀ r : Except SettingsError α, Plain T (ofSettings r)
  | .ok a => .pure a
  | .error _ => .fail _

theorem loadSettings_plain : Plain T loadSettings := by
  refine .read (fun _ _ _ => rfl) fun s => ?_
  dsimp only
  split
  · exact .pure _
  · exact .bind (.emit fun _ => rfl) fun _ => .pure _

theorem processSettings_plain : Plain T processSettings := by
  refine .read (fun _ _ _ => rfl) fun s => ?_
  split
  · exact .pure _
  · exact .bind loadSettings_plain fun c =>
      .bind (.modify (fun _ => .silent rfl rfl) fun _ _ _ => rfl) fun _ => .pure _

theorem setProcessSettings_plain (c : Settings) : Plain T (setProcessSettings c) :=
  .bind processSettings_plain fun _ => .modify (fun _ => .silent rfl rfl) fun _ _ _ => rfl

theorem applySettings_plain (c : Settings) : Plain T (applySettings c) := by
  let switch (s : State) : Profiler :=
    if c.profiling.enabled then s.profiler.enable else s.profiler.disable
  have hswitch : Plain T (do tune (switch (← get))) :=
    .tuned (f := switch) (fun _ => rfl) (.inr fun s => by simp only [switch]; split <;> rfl)
      fun _ _ _ => rfl
  have heq : applySettings c = ((do tune (switch (← get))) >>= fun _ => do
      emit (.configured (← get).build.mode c.profiling.enabled)) := rfl
  rw [heq]
  exact .bind hswitch fun _ => .read (fun _ _ _ => rfl) fun _ => .emit fun _ => rfl

theorem initSettings_plain (c : Settings) : Plain T (initSettings c) :=
  .read (fun _ _ _ => rfl) fun _ => .bind (ofSettings_plain _) fun _ =>
    .bind (setProcessSettings_plain c) fun _ => applySettings_plain c

theorem initFromEnvironment_plain : Plain T initFromEnvironment :=
  .bind processSettings_plain fun _ => .bind environment_plain fun _ => initSettings_plain _

theorem initLogging_plain (fallback : String) : Plain T (initLogging fallback) := by
  refine .moved (x := ()) (f := fun s => if s.filter.isNone then
    { s with filter := some (Filter.choose (s.lookup "RUST_LOG") fallback) } else s)
    (fun s => ?_) (fun s => ?_) fun K W s => ?_
  · simp only [initLogging, bind_apply, get_apply, done_bind, ite_apply]
    split <;> rfl
  · split <;> exact .silent rfl rfl
  · show (if s.filter.isNone then _ else _) = _
    split <;> rfl

theorem startUp_plain : Plain T startUp :=
  .bind (initLogging_plain _) fun _ => .bind initFromEnvironment_plain fun _ =>
    .read (fun _ _ _ => rfl) fun _ => .emit fun _ => rfl

theorem startWith_plain (c : Settings) : Plain T (startWith c) :=
  .bind (initLogging_plain _) fun _ => initSettings_plain c

theorem report_plain (p : Profiler) : Plain T (report p) :=
  .forM (fun _ => .bind (.checked _) fun _ => .emit fun _ => rfl) _

theorem shutDown_plain : Plain T shutDown := by
  refine .bind processSettings_plain fun c => ?_
  dsimp only
  split
  · exact .read (fun _ _ _ => rfl) fun s => .bind (report_plain _) fun _ =>
      .bind (.checked _) fun _ =>
      .forM (fun _ => .emit fun _ => rfl) _
  · exact .pure _

/-! ## Settings and managers -/

theorem setSettings_plain (c : Settings) : Plain T (setSettings c) :=
  .bind (.inThread (fun _ => .silent rfl rfl) fun _ _ _ => rfl) fun _ => .pure _

theorem performSettings_plain (op : SettingsOp) : Plain T (performSettings op) := by
  refine .readThread (fun _ _ _ => rfl) fun t => .read (fun _ _ _ => rfl) fun s => ?_
  cases op with
  | default | lookup | merge => exact setSettings_plain _
  | fromEnvironment | mergeEnvironment =>
    exact .bind environment_plain fun _ => setSettings_plain _
  | decode => exact .bind (.decoded _ _) fun _ => setSettings_plain _
  | load => exact .bind (ofSettings_plain _) fun _ => setSettings_plain _
  | json | debug => exact .pure _
  | eq => exact .bind (.decoded _ _) fun _ => .pure _
  | validate => exact .bind (ofSettings_plain _) fun _ => .pure _
  | apply => exact .bind (applySettings_plain _) fun _ => .read (fun _ _ _ => rfl) fun _ => .pure _
  | init => exact .bind (initSettings_plain _) fun _ => .pure _
  | initWith => exact .bind (startWith_plain _) fun _ => .pure _
  | save => exact .bind (ofSettings_plain _) fun _ => .pure _

theorem managed_plain (ofProcess : Bool) : Plain T (managed ofProcess) := by
  unfold managed
  split
  · exact processSettings_plain
  · exact .readThread (fun _ _ _ => rfl) fun _ => .pure _

theorem setManaged_plain (ofProcess : Bool) (c : Settings) : Plain T (setManaged ofProcess c) := by
  unfold setManaged
  split
  · exact setProcessSettings_plain c
  · exact .inThread (fun _ => .silent rfl rfl) fun _ _ _ => rfl

theorem performManager_plain (ofProcess : Bool) (op : ManagerOp) :
    Plain T (performManager ofProcess op) := by
  cases op with
  | new => exact .bind (setManaged_plain _ _) fun _ => .pure _
  | init =>
    exact .bind (managed_plain _) fun _ => .read (fun _ _ _ => rfl) fun _ =>
      .bind (ofSettings_plain _) fun _ => .bind (setManaged_plain _ _) fun _ => .pure _
  | get | profiling => exact .bind (managed_plain _) fun _ => .pure _
  | update =>
    exact .bind (managed_plain _) fun _ => .bind (.decoded _ _) fun _ =>
      .bind (setManaged_plain _ _) fun _ => .pure _

theorem decodeDocument_plain (source : Json.Source) (type : DocumentType) :
    Plain T (decodeDocument source type) := by
  cases type <;> exact .bind (.decoded _ _) fun _ => .pure _

theorem performProcess_plain (op : ProcessOp) : Plain T (performProcess op) := by
  cases op with
  | init => exact .bind startUp_plain fun _ => .pure _
  | initFromEnvironment => exact .bind initFromEnvironment_plain fun _ => .pure _
  | initLogging => exact .bind (initLogging_plain _) fun _ => .pure _
  | shutdown => exact .bind shutDown_plain fun _ => .pure _
  | setEnvironment =>
    exact .bind (.modify (fun _ => .silent rfl rfl) fun _ _ _ => rfl) fun _ => .pure _
  | parseMode =>
    unfold performProcess
    dsimp only
    split
    · exact .pure _
    · exact .fail _
  | activeMode => exact .read (fun _ _ _ => rfl) fun _ => .pure _
  | decode => exact decodeDocument_plain _ _

/-! ## Counters and profilers -/

theorem performStats_plain (op : StatsOp) : Plain T (performStats op) := by
  refine .readThread (fun _ _ _ => rfl) fun t => ?_
  cases op with
  | decode =>
    exact .bind (.decoded _ _) fun _ =>
      .bind (.inThread (fun _ => .silent rfl rfl) fun _ _ _ => rfl) fun _ => .pure _
  | record =>
    exact .bind (.checked _) fun _ =>
      .bind (.inThread (fun _ => .silent rfl rfl) fun _ _ _ => rfl) fun _ => .pure _
  | outstanding => exact .bind (.checked _) fun _ => .bind (.checked _) fun _ => .pure _
  | debug => exact .pure _

theorem setProfiler_plain {own : Bool} (hT : own = false → T) (p : Profiler) :
    Plain T (setProfiler own p) := by
  cases own with
  | true => exact .inThread (fun _ => .silent rfl rfl) fun _ _ _ => rfl
  | false => exact .tuned (f := fun _ => p) (fun _ => rfl) (.inl (hT rfl)) fun _ _ _ => rfl

theorem profiler_plain (own : Bool) : Plain T (profiler own) := by
  unfold profiler
  split
  · exact .readThread (fun _ _ _ => rfl) fun _ => .pure _
  · exact .read (fun _ _ _ => rfl) fun _ => .pure _

/-- Switching a profiler on or off. -/
theorem switch_plain (own : Bool) {f : Profiler → Profiler} (hf : ∀ p, (f p).stats = p.stats) :
    Plain T (profiler own >>= fun p => setProfiler own (f p) >>= fun _ => pure Answer.nothing) := by
  cases own with
  | true => exact .bind (profiler_plain true) fun _ => .bind (setProfiler_plain nofun _) fun _ => .pure _
  | false =>
    exact .tuned (f := fun s => f s.profiler) (fun _ => rfl) (.inr fun _ => hf _) fun _ _ _ => rfl

theorem performProfiler_plain {own : Bool} {op : ProfilerOp} (hT : own = false → op.Replaces → T) :
    Plain T (performProfiler own op) := by
  cases op with
  | enable => exact switch_plain own fun _ => rfl
  | disable => exact switch_plain own fun _ => rfl
  | make => exact .bind (profiler_plain own) fun _ => .bind (setProfiler_plain nofun _) fun _ => .pure _
  | reset =>
    exact .bind (profiler_plain own) fun _ =>
      .bind (setProfiler_plain (fun h => hT h trivial) _) fun _ => .pure _
  | record =>
    refine .bind (profiler_plain own) fun p => .bind (setProfiler_plain (fun h => hT h trivial) _) fun _ => ?_
    split
    · exact .pure _
    · exact .raise _
  | report => exact .bind (profiler_plain own) fun _ => .bind (report_plain _) fun _ => .pure _
  | kind => exact .bind (profiler_plain own) fun _ => .pure _
  | stats => exact .bind (profiler_plain own) fun _ => .bind (.checked _) fun _ => .pure _

/-! ## Hooks -/

theorem setHook_aside (g : Signal) (body : Script) (s : State) : Aside s (s.setHook g body) := by
  unfold State.setHook
  split <;> exact .silent rfl rfl

theorem eraseHook_aside (g : Signal) (s : State) : Aside s (s.eraseHook g) := by
  unfold State.eraseHook
  split <;> exact .silent rfl rfl

/-- A script that is left behind. -/
theorem hook_plain (g : Signal) (body : Script) : Plain T (perform (.hook g body)) := by
  refine .bind (.modify (setHook_aside g body) fun K W s => ?_) fun _ => .pure _
  unfold State.setHook
  split <;> rfl

end Process

/-! ## Dumps -/

theorem kept_idle (k : KeptId) : Idle (kept k) :=
  .bind .thread fun _ => .demand _ _

theorem slot_idle (id : SlotId) : Idle (slot id) :=
  .bind .get fun _ => .demand _ _

theorem sharing_idle (id : SlotId) : Idle (sharing id) :=
  .bind .get fun _ => .demand _ _

theorem lockForReading_idle (id : SlotId) : Idle (lockForReading id) := by
  refine .bind (sharing_idle id) fun sh => .bind .get fun s => ?_
  split
  · exact .halt _
  · exact .pure _

theorem look_idle (c : Cell) : Idle (look c) := by
  cases c with
  | own => exact slot_idle _
  | handle => exact .bind (lockForReading_idle _) fun _ => slot_idle _

theorem viewCell_idle (k : Kept) : Idle (viewCell k) := by
  unfold viewCell
  split
  · exact .pure _
  · split
    · exact .bind (slot_idle _) fun _ => .pure _
    · exact .bind (look_idle _) fun _ => .bind (sharing_idle _) fun _ => .pure _

theorem dump_idle : Idle dump :=
  .bind .thread fun _ => .bind (.mapM (fun _ => .bind (kept_idle _) fun _ =>
    .bind (viewCell_idle _) fun _ => .pure _) _) fun _ => .pure _

end Action

end ClaimCells
