import ClaimCells.Proofs.Balance
import ClaimCells.Proofs.Configured
import ClaimCells.Proofs.Locks

/-!
# How calls from native code go

While no lock is held, a call through a live handle is fatal or comes to its answer, at once or after
the one signal that it sends for a claim that it gives up. Which calls are fatal, what the others
answer and what message they leave to their thread, can be read off the state that they begin in. A
counter that is full is fatal too.

Main result: `course_exported`.
-/

namespace ClaimCells

open Act (Outcome)

variable {α β : Type} {s t : State} {p p₁ : Profiler}

/-! ## Exported calls -/

/-- The calls that are exported to native code. -/
def NativeOp.Exported : NativeOp → Prop
  | .install .. | .create .. | .retain .. | .release _ | .assign .. | .read _ | .clear _
  | .isBound _ | .lastError | .clearError => True
  | _ => False

/-- The handle of the call is live or null. -/
def NativeOp.Live (s : State) (op : NativeOp) : Prop :=
  ∀ key, op.handle? = some (some key) → ∃ i c, s.Reaches key i c

namespace State

/-- The variable behind a handle. -/
def slotBehind (s : State) (h : Option String) : Option Slot :=
  (s.behind h).bind fun c => s.slots.get? c.slot

/-- The object in it. -/
def objectBehind (s : State) (h : Option String) : Option ObjectId :=
  (s.slotBehind h).bind Slot.value

/-- What is said when there is none. -/
def complaint (s : State) (h : Option String) : Option String := do
  let c ← s.behind h
  let v ← s.slots.get? c.slot
  if v.value.isNone then some (Action.nativeText (CellError.unbound c.access v.name).message)
  else none

/-- Starting from the environment fails. -/
def StartFails (s : State) : Prop :=
  ∃ f t, Action.initFromEnvironment s = .fail f t

theorem startFails_iff :
    s.StartFails ↔ (s.stored.overlay s.lookup).validate s.build ≠ .ok () := by
  rw [StartFails, Action.initFromEnvironment_apply]
  cases (s.stored.overlay s.lookup).validate s.build <;> simp

end State

namespace NativeOp

/-- The call has to give up a claim. -/
def Releases (s : State) : NativeOp → Prop
  | .assign h _ | .clear h => (s.objectBehind h).isSome
  | .release h => (s.objectBehind h).isSome ∧ ∃ c ∈ s.behind h, s.liveHandles c.slot = 1
  | _ => False

/-- The call is fatal: it passes null where something must be, it has to give up a claim although
no functions are installed, or it installs the first ones and the start from the environment fails. -/
def Fatal (s : State) (op : NativeOp) : Prop :=
  op.handle? = some none ∨ (∃ h, op = .assign h 0) ∨ s.functions = none ∧ op.Releases s ∨
    ∃ f g, op = .install f g ∧ s.functions = none ∧ s.StartFails

/-- What the call answers. -/
def answer (s : State) : NativeOp → Answer
  | .install f g => .flag (s.functions.all (· = ⟨f, g⟩))
  | .read h => .pointer (s.objectBehind h)
  | .clear h | .isBound h => .flag (s.objectBehind h).isSome
  | .lastError => s.thread.lastError.elim .nothing .text
  | _ => .nothing

/-- The message that its thread has after it. -/
def message (s : State) : NativeOp → Option String
  | .read h | .clear h => (s.complaint h).or s.thread.lastError
  | .clearError => none
  | _ => s.thread.lastError

end NativeOp

/-- A new handle of the cell is given out, under the key if there is one. -/
def State.Gives (s : State) (key : Option String) (c : Cell) (t : State) : Prop :=
  ∃ k, s.next ≤ k ∧ k < t.next ∧ t.handles = s.handles.insert k c ∧
    t.handleKeys = key.elim s.handleKeys (s.handleKeys.insert · k)

/-- How often an installed function was called to give up an object. -/
def Journal.givenUp (p : ObjectId) : Journal → Nat
  | [] => 0
  | .called _ .released o :: j => givenUp p j + if o = p then 1 else 0
  | _ :: j => givenUp p j

/-- The variables are these now, and a claim on this object was given up. -/
structure State.Traded (s : State) (vs : Table SlotId Slot) (given : Option ObjectId) (t : State) :
    Prop where
  slots : t.slots = vs
  kept : t.thread.kept = s.thread.kept
  givenUp : ∀ p, t.journal.givenUp p = s.journal.givenUp p + if given = some p then 1 else 0

theorem State.Traded.refl (s : State) : s.Traded s.slots none s :=
  ⟨rfl, rfl, fun _ => rfl⟩

/-- More was done, but nothing given up. -/
theorem State.Traded.on {vs vs' : Table SlotId Slot} {o : Option ObjectId} {u : State}
    (h : s.Traded vs o t) (hs : u.slots = vs') (hk : u.thread.kept = t.thread.kept)
    (hg : ∀ p, u.journal.givenUp p = t.journal.givenUp p) : s.Traded vs' o u :=
  ⟨hs, hk.trans h.kept, fun p => (hg p).trans (h.givenUp p)⟩

/-- What the call does to variables, and which object it gives up. -/
def NativeOp.Trades (s t : State) : NativeOp → Prop
  | .create _ text o => s.Traded (s.slots.insert s.next
      ⟨.native, .shared, Action.nativeName text, if o = 0 then none else some o⟩) none t
  | .assign h o => ∃ c, s.behind h = some c ∧
    s.Traded (s.slots.modify c.slot ({ · with value := some o })) (s.objectBehind h) t
  | .clear h => ∃ c, s.behind h = some c ∧
    s.Traded (s.slots.modify c.slot ({ · with value := none })) (s.objectBehind h) t
  | .release h => ∃ c, s.behind h = some c ∧
    if s.liveHandles c.slot = 1 then s.Traded (s.slots.erase c.slot) (s.objectBehind h) t
    else s.Traded s.slots none t
  | _ => s.Traded s.slots none t

/-- What the call does to handles. -/
def NativeOp.Hands (s t : State) : NativeOp → Prop
  | .create key .. => s.Gives key (.handle s.next .locally) t
  | .retain h key => ∃ c, s.behind h = some c ∧ s.Gives key (.handle c.slot .free) t
  | .release h => ∃ key i, h = some key ∧ s.handleKeys.get? key = some i ∧
    t.handles = s.handles.erase i ∧ t.handleKeys = s.handleKeys.erase key
  | _ => t.handles = s.handles ∧ t.handleKeys = s.handleKeys

/-- What the call leaves when it is answered, or when it sends the signal `g`. -/
structure NativeOp.Leaves (op : NativeOp) (s : State) (g : Option Signal) (t : State) : Prop where
  message : t.thread.lastError = op.message s
  hands : op.Hands s t
  trades : op.Trades s t
  signal : g.isSome → op.Releases s

/-- Loading settings gives nothing up. -/
theorem State.loaded_givenUp (s : State) (p : ObjectId) :
    s.loaded.journal.givenUp p = s.journal.givenUp p := by
  rw [State.loaded]
  split <;> rfl

/-! ## Courses with one signal at most -/

/-- The course comes to the value `a` at once, or sends the signal `g` before that. What is done
last takes the state `t` to `f t`. -/
def Act.Answers (a : α) (f : State → State) (g : Option Signal) (t : State) (x : Act α) : Prop :=
  x = match g with
    | none => .done a (f t)
    | some g => .send g t fun u => .done a (f u)

/-- How the run of such a course ends. -/
theorem Act.Answers.settle {x : Act α} {a : α} {f : State → State} {g : Option Signal}
    (h : x.Answers a f g t) (react : Signal → State → Except (Halt × State) State) :
    x.settle react = .ended (.ok a) (f t) ∨
      ∃ g, x.Sends react g t ∧ x.settle react = match react g t with
        | .ok u => .ended (.ok a) (f u)
        | .error (p, u) => .halted p u := by
  cases g with
  | none =>
    obtain rfl : x = .done a (f t) := h
    exact .inl rfl
  | some g =>
    obtain rfl : x = .send g t fun u => .done a (f u) := h
    refine .inr ⟨g, .now _ _ _, ?_⟩
    rw [Act.settle]
    cases react g t <;> rfl

/-- The course is fatal, or comes to a value; at its end, or at the signal before it, the state is
as `P` says. When a counter is full it may be fatal for that. -/
structure Act.Goes (fatal full : Prop) (a : α) (f : State → State)
    (P : Option Signal → State → Prop) (x : Act α) : Prop where
  halts : fatal → ∃ p t, x = .halt (.fatal p) t
  answers : ¬ fatal → (∃ g t, x.Answers a f g t ∧ P g t) ∨
    full ∧ ∃ t, x = .halt (.fatal .overflow) t

namespace Act.Goes

variable {fatal full : Prop} {x : Act α} {a : α} {f f' : State → State}
  {P P' : Option Signal → State → Prop}

theorem now (h : x = .done a (f t)) (hf : ¬ fatal) (hP : P none t) : x.Goes fatal full a f P :=
  ⟨fun h => absurd h hf, fun _ => .inl ⟨none, t, h, hP⟩⟩

theorem fatally {q : Panic} (h : x = .halt (.fatal q) t) (hf : fatal) : x.Goes fatal full a f P :=
  ⟨fun _ => ⟨q, t, h⟩, fun h => absurd hf h⟩

theorem overflows (h : x = .halt (.fatal .overflow) t) (hf : full) : x.Goes fatal full a f P :=
  ⟨fun _ => ⟨_, t, h⟩, fun _ => .inr ⟨hf, t, h⟩⟩

/-- What comes after it may still take the state to `f'` of it. -/
theorem bind (h : x.Goes fatal full a f P) {k : α → State → Act β} (b : β) (f' : State → State)
    (hk : ∀ u, k a u = .done b (f' u)) : (x.bind k).Goes fatal full b (fun u => f' (f u)) P := by
  refine ⟨fun hf => ?_, fun hf => ?_⟩
  · obtain ⟨q, t, rfl⟩ := h.halts hf
    exact ⟨q, t, rfl⟩
  · obtain ⟨_ | g, t, rfl, hP⟩ | ⟨hfull, t, rfl⟩ := h.answers hf
    · exact .inl ⟨none, t, hk _, hP⟩
    · exact .inl ⟨some g, t, congrArg (Act.send g t) (funext fun u => hk (f u)), hP⟩
    · exact .inr ⟨hfull, t, rfl⟩

/-- What comes after it only makes another value of it. -/
theorem map (h : x.Goes fatal full a f P) {k : α → State → Act β} (b : β)
    (hk : ∀ u, k a u = .done b u) : (x.bind k).Goes fatal full b f P :=
  h.bind b (fun u => u) hk

theorem congr {fatal' : Prop} (h : x.Goes fatal full a f P) (hf : fatal' ↔ fatal) :
    x.Goes fatal' full a f P :=
  ⟨fun hf' => h.halts (hf.1 hf'), fun hf' => h.answers fun h => hf' (hf.2 h)⟩

theorem imp (h : x.Goes fatal full a f P) (hP : ∀ g t, P g t → P' g t) :
    x.Goes fatal full a f P' :=
  ⟨h.halts, fun hf => (h.answers hf).imp_left fun ⟨g, t, ht, hp⟩ => ⟨g, t, ht, hP g t hp⟩⟩

theorem attempt (h : x.Goes fatal full a f P) : x.attempt.Goes fatal full (.ok a) f P := by
  refine ⟨fun hf => ?_, fun hf => ?_⟩
  · obtain ⟨q, t, rfl⟩ := h.halts hf
    exact ⟨q, t, rfl⟩
  · obtain ⟨_ | g, t, rfl, hP⟩ | ⟨hfull, t, rfl⟩ := h.answers hf
    · exact .inl ⟨none, t, rfl, hP⟩
    · exact .inl ⟨some g, t, rfl, hP⟩
    · exact .inr ⟨hfull, t, rfl⟩

end Act.Goes

/-! ## Room for counting -/

namespace Profiler

variable {k k' : CellKind} {e e' : ClaimEvent}

theorem full_of_record (h : p.record k e = none) : p.Full :=
  ⟨k, e, h⟩

/-- When there is no room for a second event there is none for that alone. -/
theorem full_of_second (hp : p.record k e = some p₁) (he : e' ≠ e)
    (h : p₁.record k' e' = none) : p.Full := by
  obtain ⟨hon, hfull⟩ := record_none_iff.1 h
  have hon' : p.enabled = true := by rw [← Action.record_enabled hp]; exact hon
  have hcount := ((record_counts hp) hon').2 k' e'
  rw [List.count_singleton, if_neg (by simp [he.symm]), Nat.add_zero] at hcount
  exact ⟨k', e', record_none_iff.2 ⟨hon', hcount ▸ hfull⟩⟩

theorem full_of_recordMade {bound : Bool} (h : p.recordMade k bound = none) : p.Full := by
  cases h₁ : p.record k .constructed with
  | none => exact full_of_record h₁
  | some p₁ =>
    rw [recordMade, h₁, Option.bind_some] at h
    cases bound with
    | false => cases h
    | true => exact full_of_second h₁ (by decide) h

end Profiler

/-! ## What calls are made of -/

namespace Action

variable {id : SlotId} {v : Slot} {sh : Sharing} {a : Access} {o : ObjectId} {key : String}
  {f : Functions}

theorem lockForReading_free (hsh : s.sharing.get? id = some sh) (hfree : sh.readers = 0) :
    lockForReading id s = .done () s := by
  simp only [lockForReading, bind_apply, sharing_some hsh, done_bind, get_apply, ite_apply, hfree]
  rfl

theorem lockForChange_free (hsh : s.sharing.get? id = some sh) (hfree : sh.readers = 0) :
    lockForChange id s = .done () s := by
  simp only [lockForChange, bind_apply, sharing_some hsh, done_bind, ite_apply, hfree]
  rfl

theorem look_free (hsh : s.sharing.get? id = some sh) (hfree : sh.readers = 0)
    (hv : s.slots.get? id = some v) : look (.handle id a) s = .done v s := by
  rw [look, bind_apply, lockForReading_free hsh hfree, done_bind, slot_some hv]

theorem read_bound (hsh : s.sharing.get? id = some sh) (hfree : sh.readers = 0)
    (hv : s.slots.get? id = some v) (ho : v.value = some o) :
    read (.handle id a) s = .done o s := by
  simp only [read, bind_apply, look_free hsh hfree hv, done_bind, valueIn, ho, pure_apply]

theorem unboundError_apply (hv : s.slots.get? id = some v) :
    (unboundError (.handle id a) s : Act α) = .fail (.cell (.unbound a v.name)) s := by
  have h : slot (Cell.handle id a).slot s = .done v s := slot_some hv
  rw [unboundError, bind_apply, h]
  rfl

theorem read_unbound (hsh : s.sharing.get? id = some sh) (hfree : sh.readers = 0)
    (hv : s.slots.get? id = some v) (ho : v.value = none)
    (hp : s.profiler.record v.kind .unboundAccess = some p) :
    read (.handle id a) s = .fail (.cell (.unbound a v.name)) { s with profiler := p } := by
  simp only [read, bind_apply, look_free hsh hfree hv, done_bind, valueIn, ho, record_some hp]
  exact unboundError_apply hv

theorem clear_unbound (hsh : s.sharing.get? id = some sh) (hfree : sh.readers = 0)
    (hv : s.slots.get? id = some v) (ho : v.value = none)
    (hp : s.profiler.record v.kind .unboundAccess = some p) :
    clear (.handle id a) s = .fail (.cell (.unbound a v.name)) { s with profiler := p } := by
  simp only [clear, lockToChange, bind_apply, lockForChange_free hsh hfree, done_bind, unbind,
    Cell.slot, slot_some hv, ho, record_some hp, pure_apply]
  exact unboundError_apply hv

theorem orLastError_done {b : Action α} {x : α} (hb : b s = .done x t) :
    orLastError b s = .done (some x) t := by
  simp only [orLastError, bind_apply, attempt_apply, hb, done_attempt, done_bind, pure_apply]

theorem orLastError_fail {b : Action α} {e : CellError} (hb : b s = .fail (.cell e) t) :
    orLastError b s = .done none ((t.emit (.accessFailed e)).inThread
      ({ · with lastError := some (nativeText e.message) })) := by
  simp only [orLastError, bind_apply, attempt_apply, hb, fail_attempt, done_bind, setLastError,
    emit_apply, inThread_apply, pure_apply]

/-- The call in progress is the same, with the handles and the message of the thread. -/
structure Within (s t : State) : Prop where
  functions : t.functions = s.functions
  depth : t.thread.nativeDepth = s.thread.nativeDepth
  handles : t.handles = s.handles
  keys : t.handleKeys = s.handleKeys
  message : t.thread.lastError = s.thread.lastError

theorem Within.refl (s : State) : Within s s :=
  ⟨rfl, rfl, rfl, rfl, rfl⟩

theorem Within.trans {u : State} (h : Within s t) (h' : Within t u) : Within s u :=
  ⟨h'.functions.trans h.functions, h'.depth.trans h.depth, h'.handles.trans h.handles,
    h'.keys.trans h.keys, h'.message.trans h.message⟩

/-- Where a panic can be caught, it is a failure. -/
theorem raise_caught {p : Panic} (h : s.thread.nativeDepth = 0) :
    (raise p s : Act α) = .fail (.panic p) s := by
  simp only [raise, bind_apply, thread_apply, done_bind, ite_apply, fail_apply]
  exact if_pos h

theorem raise_calling {p : Panic} (h : s.thread.nativeDepth ≠ 0) :
    (raise p s : Act α) = .halt (.fatal p) s := by
  simp only [raise, bind_apply, thread_apply, done_bind, ite_apply, halt_apply]
  exact if_neg h

/-- A counter that is full is fatal. -/
theorem overflow_goes {fatal full : Prop} {x : α} {f : State → State} {P : Option Signal → State → Prop}
    (hd : s.thread.nativeDepth ≠ 0) (ht : Within s t) (hfull : full) :
    (raise .overflow t : Act α).Goes fatal full x f P :=
  .overflows (raise_calling (ht.depth ▸ hd)) hfull

/-- A claim on a native object is given up by a call of an installed function. -/
theorem release_goes {full : Prop} {vs : Table SlotId Slot} (hd : s.thread.nativeDepth ≠ 0)
    (ht : Within s t) (htr : s.Traded vs none t) (o : ObjectId) :
    (release ⟨.native, o⟩ t).Goes (s.functions = none) full () (fun u => u)
      (fun _ u => Within s u ∧ s.Traded vs (some o) u) := by
  have hgo : release ⟨.native, o⟩ t = ((functions (t.letGo ⟨.native, o⟩)).bind fun f =>
      note (.called f.release .released o) >>= fun _ => send ⟨.native, .released, o⟩) := rfl
  have hf : (t.letGo ⟨.native, o⟩).functions = s.functions := ht.functions
  cases hs : s.functions with
  | none =>
    have hd' : (t.letGo ⟨.native, o⟩).thread.nativeDepth ≠ 0 := by
      show t.thread.nativeDepth ≠ 0
      rw [ht.depth]
      exact hd
    have hhalt : release ⟨.native, o⟩ t = .halt (.fatal (.invariant .functionsMissing))
        ((t.letGo ⟨.native, o⟩).emit (.violated .functionsMissing)) := by
      rw [hgo, functions_none (hf.trans hs), violate_bind]
      exact violate_calling hd'
    exact .fatally hhalt rfl
  | some f =>
    have hsend : release ⟨.native, o⟩ t = .send ⟨.native, .released, o⟩
        ((t.letGo ⟨.native, o⟩).note (.called f.release .released o)) (.done ()) := by
      rw [hgo, functions_some (hf.trans hs)]
      rfl
    refine ⟨nofun, fun _ => .inl ⟨some _, _, hsend,
      ⟨ht.functions, ht.depth, ht.handles, ht.keys, ht.message⟩, htr.slots, htr.kept, fun p => ?_⟩⟩
    show t.journal.givenUp p + _ = _
    rw [htr.givenUp]
    simp

section Calm

variable (hd : s.thread.nativeDepth ≠ 0) (hsh : s.sharing.get? id = some sh)
  (hfree : sh.readers = 0) (hv : s.slots.get? id = some v) (hn : v.realm = .native)

include hd hsh hfree hv

theorem read_goes : (orLastError (read (.handle id a)) s).Goes False s.profiler.Full v.value
    (fun u => u) (fun g t => g = none ∧ t.handles = s.handles ∧ t.handleKeys = s.handleKeys ∧
      s.Traded s.slots none t ∧ t.thread.lastError = (if v.value.isNone then
        some (nativeText (CellError.unbound a v.name).message) else none).or s.thread.lastError) := by
  cases ho : v.value with
  | some o => exact .now (orLastError_done (read_bound hsh hfree hv ho)) not_false ⟨rfl, rfl, rfl, .refl s, rfl⟩
  | none =>
    cases hp : s.profiler.record v.kind .unboundAccess with
    | some p =>
      exact .now (orLastError_fail (read_unbound hsh hfree hv ho hp)) not_false
        ⟨rfl, rfl, rfl, ⟨rfl, rfl, fun _ => rfl⟩, rfl⟩
    | none =>
      have hread : orLastError (read (.handle id a)) s = .halt (.fatal .overflow) s := by
        simp only [orLastError, read, bind_apply, attempt_apply, look_free hsh hfree hv, done_bind,
          valueIn, ho, record_none hp, raise_calling hd]
        rfl
      exact .overflows hread (Profiler.full_of_record hp)

include hn

theorem clear_goes (ho : v.value = some o) : (clear (.handle id a) s).Goes (s.functions = none)
    s.profiler.Full true (fun u => u) (fun _ t => Within s t ∧
      s.Traded (s.slots.modify id ({ · with value := none })) (some o) t) := by
  cases hp : s.profiler.record v.kind .released with
  | none =>
    have hrecord : ∀ u : State, u.profiler = s.profiler →
        record v.kind .released u = raise .overflow u := fun u hu => record_none (hu ▸ hp)
    obtain ⟨t, ht, hclear⟩ : ∃ t, Within s t ∧ clear (.handle id a) s = raise .overflow t := by
      simp only [clear, lockToChange, bind_apply, lockForChange_free hsh hfree, done_bind, unbind,
        Cell.slot, slot_some hv, ho, hn, setValue_apply, hold_apply]
      rw [hrecord]
      · refine ⟨_, ?_, by rw [raise_bind, raise_bind]⟩
        exact ⟨rfl, rfl, rfl, rfl, rfl⟩
      · rfl
    rw [hclear]
    exact overflow_goes hd ht (Profiler.full_of_record hp)
  | some p =>
    have hrecord : ∀ u : State, u.profiler = s.profiler →
        record v.kind .released u = .done () { u with profiler := p } :=
      fun u hu => record_some (hu ▸ hp)
    obtain ⟨t, ht, htr, hclear⟩ : ∃ t, Within s t ∧
        s.Traded (s.slots.modify id ({ · with value := none })) none t ∧ clear (.handle id a) s =
        (release ⟨.native, o⟩ t).bind fun _ => (pure true : Action Bool) := by
      simp only [clear, lockToChange, bind_apply, lockForChange_free hsh hfree, done_bind, unbind,
        Cell.slot, slot_some hv, ho, hn, setValue_apply, hold_apply]
      rw [hrecord]
      · exact ⟨_, by exact ⟨rfl, rfl, rfl, rfl, rfl⟩, by exact ⟨rfl, rfl, fun _ => rfl⟩, rfl⟩
      · rfl
    rw [hclear]
    exact (release_goes hd ht htr o).map true fun _ => rfl

theorem assign_goes (o : ObjectId) : (assign (.handle id a) o s).Goes
    (s.functions = none ∧ v.value.isSome) s.profiler.Full () (fun u => u)
    (fun g t => (g.isSome → v.value.isSome) ∧ Within s t ∧
      s.Traded (s.slots.modify id ({ · with value := some o })) v.value t) := by
  cases h₁ : s.profiler.record v.kind .bound with
  | none =>
    have hassign : assign (.handle id a) o s = raise .overflow s := by
      simp only [assign, lockToChange, bind_apply, lockForChange_free hsh hfree, done_bind, replace,
        Cell.slot, slot_some hv, record_none h₁, raise_bind]
    rw [hassign]
    exact overflow_goes hd (.refl s) (Profiler.full_of_record h₁)
  | some p₁ =>
    cases ho : v.value with
    | none =>
      obtain ⟨t, ht, htr, hassign⟩ : ∃ t, Within s t ∧
          s.Traded (s.slots.modify id ({ · with value := some o })) none t ∧
          assign (.handle id a) o s = .done () t := by
        simp only [assign, lockToChange, bind_apply, lockForChange_free hsh hfree, done_bind,
          replace, Cell.slot, slot_some hv, ho, record_some h₁, letGo_apply, setValue_apply]
        exact ⟨_, by exact ⟨rfl, rfl, rfl, rfl, rfl⟩, by exact ⟨rfl, rfl, fun _ => rfl⟩, rfl⟩
      exact .now hassign (by simp) ⟨by simp, ht, htr⟩
    | some o' =>
      cases h₂ : p₁.record v.kind .released with
      | none =>
        have hrecord : ∀ u : State, u.profiler = p₁ →
            record v.kind .released u = raise .overflow u := fun u hu => record_none (hu ▸ h₂)
        obtain ⟨t, ht, hassign⟩ : ∃ t, Within s t ∧
            assign (.handle id a) o s = raise .overflow t := by
          simp only [assign, lockToChange, bind_apply, lockForChange_free hsh hfree, done_bind,
            replace, Cell.slot, slot_some hv, ho, record_some h₁, letGo_apply, setValue_apply,
            Option.map_some, hold_apply, hn]
          rw [hrecord]
          · refine ⟨_, ?_, by rw [raise_bind, raise_bind]⟩
            exact ⟨rfl, rfl, rfl, rfl, rfl⟩
          · rfl
        rw [hassign]
        exact overflow_goes hd ht (Profiler.full_of_second h₁ (by decide) h₂)
      | some p₂ =>
        have hrecord : ∀ u : State, u.profiler = p₁ →
            record v.kind .released u = .done () { u with profiler := p₂ } :=
          fun u hu => record_some (hu ▸ h₂)
        obtain ⟨t, ht, htr, hassign⟩ : ∃ t, Within s t ∧
            s.Traded (s.slots.modify id ({ · with value := some o })) none t ∧
            assign (.handle id a) o s = release ⟨.native, o'⟩ t := by
          simp only [assign, lockToChange, bind_apply, lockForChange_free hsh hfree, done_bind,
            replace, Cell.slot, slot_some hv, ho, record_some h₁, letGo_apply, setValue_apply,
            Option.map_some, hold_apply, hn]
          rw [hrecord]
          · exact ⟨_, by exact ⟨rfl, rfl, rfl, rfl, rfl⟩, by exact ⟨rfl, rfl, fun _ => rfl⟩, rfl⟩
          · rfl
        rw [hassign]
        exact ((release_goes hd ht htr o').congr ⟨And.left, fun h => ⟨h, rfl⟩⟩).imp
          fun _ _ h => ⟨fun _ => rfl, h⟩

omit hd hsh hfree hn in
theorem destroySlot_full (ho : v.value = some o)
    (hp : s.profiler.record v.kind .released = none) :
    ∃ t, Within s t ∧ destroySlot id s = raise .overflow t := by
  have hrecord : ∀ u : State, u.profiler = s.profiler →
      record v.kind .released u = raise .overflow u := fun u hu => record_none (hu ▸ hp)
  simp only [destroySlot, bind_apply, slot_some hv, done_bind, modify_apply, did_apply, ho,
    hold_apply]
  rw [hrecord]
  · refine ⟨_, ?_, by rw [raise_bind]⟩
    exact ⟨rfl, rfl, rfl, rfl, rfl⟩
  · rfl

omit hfree in
/-- Giving up a handle gives up a claim when it is the last one of a bound cell. -/
theorem releaseHandle_goes (hpos : sh.handles ≠ 0) : (releaseHandle id s).Goes
    (s.functions = none ∧ v.value.isSome ∧ sh.handles = 1) s.profiler.Full () (fun u => u)
    (fun g t => (g.isSome → v.value.isSome ∧ sh.handles = 1) ∧ Within s t ∧
      if sh.handles = 1 then s.Traded (s.slots.erase id) v.value t else s.Traded s.slots none t) := by
  rw [releaseHandle_eq (a := .free) hsh hv]
  generalize ht : s.emit (.released v.name (sh.handles - 1)) = t
  have hsh' : t.sharing.get? id = some sh := ht ▸ hsh
  have hv' : t.slots.get? id = some v := ht ▸ hv
  have hwithin : Within s t := ht ▸ ⟨rfl, rfl, rfl, rfl, rfl⟩
  have hprofiler : t.profiler = s.profiler := ht ▸ rfl
  have hslots : t.slots = s.slots := ht ▸ rfl
  have htraded : s.Traded s.slots none t := ht ▸ ⟨rfl, rfl, fun _ => rfl⟩
  by_cases hone : sh.handles = 1
  · cases hp : s.profiler.record .shared .cellFreed with
    | none =>
      have hdrop : destroy (.handle id .free) t =
          .halt (.fatal .overflow) (unshared t id) := by
        have hreport : reportFreed v (unshared t id) = .halt (.fatal .overflow) (unshared t id) := by
          have hp' : (unshared t id).profiler.record .shared .cellFreed = none := hprofiler ▸ hp
          have hd' : (unshared t id).thread.nativeDepth ≠ 0 := hwithin.depth ▸ hd
          rw [reportFreed, bind_apply, record_none hp', raise_bind, raise_calling hd']
        show dropHandle id t = _
        rw [dropHandle_last hsh' hone hv', bind_apply, attempt_apply, hreport]
        rfl
      exact .overflows hdrop (Profiler.full_of_record hp)
    | some p =>
      have hp' : t.profiler.record .shared .cellFreed = some p := hprofiler ▸ hp
      cases ho : v.value with
      | none =>
        have hwithin' : Within t (t.without id v p) := ⟨rfl, rfl, rfl, rfl, rfl⟩
        have hdestroy := destroy_last_unbound (a := .free) hsh' hone hv' ho hp'
        refine .now hdestroy (by simp) ⟨by simp, hwithin.trans hwithin', ?_⟩
        rw [if_pos hone]
        exact htraded.on (congrArg (·.erase id) hslots) rfl fun _ => rfl
      | some o =>
        cases h' : p.record v.kind .released with
        | none =>
          rw [destroy_last (a := .free) hsh' hone hv' hp']
          have hw : ({ unshared t id with profiler := p }.emit
              (.freed v.name v.value.isSome)).slots.get? id = some v := hv'
          obtain ⟨u, hu, hslot⟩ := destroySlot_full hw ho h'
          rw [hslot]
          have hwithin' : Within t ({ unshared t id with profiler := p }.emit
              (.freed v.name v.value.isSome)) := ⟨rfl, rfl, rfl, rfl, rfl⟩
          exact overflow_goes hd ((hwithin.trans hwithin').trans hu)
            (Profiler.full_of_second hp (by decide) h')
        | some p' =>
          rw [destroy_last_bound hsh' hone hv' ho hp' h', hn]
          generalize hu : State.emit _ _ = u
          have hwithin' : Within t u := hu ▸ ⟨rfl, rfl, rfl, rfl, rfl⟩
          have htraded' : s.Traded (s.slots.erase id) none u :=
            htraded.on (hu ▸ congrArg (·.erase id) hslots) (hu ▸ rfl) fun _ => hu ▸ rfl
          refine ((release_goes hd (hwithin.trans hwithin') htraded' o).congr
            ⟨And.left, fun h => ⟨h, rfl, hone⟩⟩).imp fun _ _ h => ⟨fun _ => ⟨rfl, hone⟩, h.1, ?_⟩
          rw [if_pos hone]
          exact h.2
  · have hwithin' : Within t (lessHandle t id) := ⟨rfl, rfl, rfl, rfl, rfl⟩
    refine .now (destroy_many hsh' (by omega)) (fun h => hone h.2.2)
      ⟨by simp, hwithin.trans hwithin', ?_⟩
    rw [if_neg hone]
    exact htraded.on hslots rfl fun _ => rfl

end Calm

/-- Giving out a handle always succeeds. -/
theorem giveHandle_apply (key : Option String) (c : Cell) (parent : Option HandleId) (s : State) :
    ∃ t, giveHandle key c parent s = .done () t ∧ s.Gives key c t ∧ t.thread = s.thread ∧
      t.slots = s.slots ∧ ∀ p, t.journal.givenUp p = s.journal.givenUp p := by
  cases key <;>
    exact ⟨_, rfl, ⟨s.next, Nat.le_refl _, Nat.lt_succ_self _, rfl, rfl⟩, rfl, rfl, fun _ => rfl⟩

/-- The slot, its first handle and nothing else. -/
theorem madeShared_rest (s : State) (v : Slot) (p : Profiler) :
    Within s ((s.made v p).shared s.next) ∧ ((s.made v p).shared s.next).next = s.next + 1 ∧
      s.Traded (s.slots.insert s.next v) none ((s.made v p).shared s.next) := by
  obtain ⟨realm, kind, name, value⟩ := v
  cases value <;> exact ⟨⟨rfl, rfl, rfl, rfl, rfl⟩, rfl, rfl, rfl, fun _ => rfl⟩

theorem createHandle_goes (hd : s.thread.nativeDepth ≠ 0) (key : Option String)
    (name : Option Text.Utf8.Bytes) (o : ObjectId) :
    (createHandle key name o s).Goes False s.profiler.Full () (fun u => u)
      ((NativeOp.create key name o).Leaves s) := by
  have hmake : ∀ value u, (if o = 0 then none else some o) = value → Within s u →
      s.Traded s.slots none u → u.profiler = s.profiler → u.next = s.next →
      ((makeShared .native (nativeName name) value >>= fun c => giveHandle key c) u).Goes False
        s.profiler.Full () (fun u => u) ((NativeOp.create key name o).Leaves s) := by
    intro value u hvalue hu htraded hprofiler hnext
    rw [bind_apply]
    cases hp : u.profiler.recordMade .shared value.isSome with
    | none =>
      obtain ⟨p, hshared⟩ : ∃ p, makeShared .native (nativeName name) value u =
          raise .overflow { u with profiler := p } := by
        obtain ⟨p, hfull⟩ := makeSlot_full hp
        exact ⟨p, by rw [makeShared, bind_apply, hfull, raise_bind]⟩
      have hw : Within u { u with profiler := p } := ⟨rfl, rfl, rfl, rfl, rfl⟩
      rw [hshared, raise_bind]
      exact overflow_goes hd (hu.trans hw) (Profiler.full_of_recordMade (hprofiler ▸ hp))
    | some p =>
      obtain ⟨hw, hwnext, hmade⟩ := madeShared_rest u ⟨.native, .shared, nativeName name, value⟩ p
      rw [makeShared_some hp, done_bind]
      generalize State.shared _ _ = w at hw hwnext hmade ⊢
      obtain ⟨t, ht, ⟨k, hle, hlt, hhandles, hkeys⟩, hthread, hslots, hgiven⟩ :=
        giveHandle_apply key (.handle u.next .locally) none w
      have hall := hu.trans hw
      have hgives : s.Gives key (.handle s.next .locally) t :=
        ⟨k, by omega, hlt, by rw [hhandles, hall.handles, hnext], by rw [hkeys, hall.keys]⟩
      have htrades : s.Traded (s.slots.insert s.next ⟨.native, .shared, nativeName name, value⟩)
          none t :=
        htraded.on (by rw [hslots, hmade.slots, hnext, htraded.slots])
          ((congrArg Thread.kept hthread).trans hmade.kept)
          fun p => (hgiven p).trans (hmade.givenUp p)
      refine .now ht not_false ⟨hthread ▸ hall.message, hgives, ?_, by simp⟩
      show s.Traded _ none t
      rwa [hvalue]
  by_cases ho : o = 0
  · simpa [createHandle, ho] using hmake none s (if_pos ho) (.refl s) (.refl s) rfl rfl
  · simpa [createHandle, ho] using hmake (some o)
      ((s.note (.adopted ⟨.native, o⟩)).hold ⟨.native, o⟩) (if_neg ho)
      ⟨rfl, rfl, rfl, rfl, rfl⟩ ⟨rfl, rfl, fun _ => rfl⟩ rfl rfl

theorem retain_apply (hsh : s.sharing.get? id = some sh) (hv : s.slots.get? id = some v) :
    ∃ t, retain id s = .done (.handle id .free) t ∧ Within s t ∧ t.next = s.next ∧
      s.Traded s.slots none t := by
  have hsh' : (s.sharing.modify id fun c => { c with handles := c.handles + 1 }).get? id =
      some { sh with handles := sh.handles + 1 } := by
    rw [Table.get?_modify_self, hsh, Option.map_some]
  rw [retain, bind_apply, setSharing_apply, done_bind, bind_apply, did_apply, done_bind, bind_apply]
  generalize ht : State.did _ _ = t
  have hslot : t.slots.get? id = some v := ht ▸ hv
  have hsharing : t.sharing.get? id = some { sh with handles := sh.handles + 1 } := ht ▸ hsh'
  rw [slot_some hslot, done_bind, bind_apply, sharing_some hsharing, done_bind, ← ht]
  exact ⟨_, rfl, ⟨rfl, rfl, rfl, rfl, rfl⟩, rfl, rfl, rfl, fun _ => rfl⟩

end Action

/-! ## Calls -/

/-- A live handle, and what it leads to while no lock is held. -/
structure State.Leads (s : State) (key : String) (i : HandleId) (id : SlotId) (a : Access) (v : Slot)
    (sh : Sharing) : Prop where
  reaches : s.Reaches key i (.handle id a)
  slot : s.slots.get? id = some v
  sharing : s.sharing.get? id = some sh
  native : v.realm = .native
  free : sh.readers = 0
  handles : s.liveHandles id = sh.handles
  pos : sh.handles ≠ 0

namespace State.Leads

variable {key : String} {i : HandleId} {id : SlotId} {a : Access} {v : Slot} {sh : Sharing}

theorem behind (h : s.Leads key i id a v sh) : s.behind (some key) = some (.handle id a) := by
  rw [State.behind, Option.bind_some, h.reaches.1, Option.bind_some, h.reaches.2]

theorem object (h : s.Leads key i id a v sh) : s.objectBehind (some key) = v.value := by
  have hv : s.slots.get? (Cell.handle id a).slot = some v := h.slot
  rw [objectBehind, slotBehind, h.behind, Option.bind_some, hv, Option.bind_some]

theorem complaint (h : s.Leads key i id a v sh) : s.complaint (some key) =
    if v.value.isNone then some (Action.nativeText (CellError.unbound a v.name).message)
    else none := by
  have hv : s.slots.get? (Cell.handle id a).slot = some v := h.slot
  simp only [State.complaint, h.behind, Option.bind_eq_bind, Option.bind_some, hv]
  rfl

end State.Leads

/-- A handle that is live or null. -/
theorem Sound.leads (hs : Sound [] s) (hu : s.Locked []) {h : Option String}
    (hlive : ∀ key, h = some key → ∃ i c, s.Reaches key i c) :
    h = none ∨ ∃ key i id a v sh, h = some key ∧ s.Leads key i id a v sh := by
  cases h with
  | none => exact .inl rfl
  | some key =>
    obtain ⟨i, c, hr⟩ := hlive key rfl
    obtain ⟨v, hlent⟩ := hs.lent hr.2
    obtain ⟨id, a, rfl⟩ := hlent.handle
    obtain ⟨sh, hsh⟩ := hlent.shared id a rfl
    obtain ⟨hcount, hpos⟩ := hs.refcount_pos hsh
    exact .inr ⟨key, i, id, a, v, sh, rfl, hr, hlent.slot, hsh, hlent.native, hu.count id sh hsh,
      (hs.liveHandles id).trans hcount, by omega⟩

namespace Action

variable {h : Option String} {key : String} {i : HandleId} {id : SlotId} {a : Access} {v : Slot}
  {sh : Sharing} {op : NativeOp} {α : Type}

theorem handleOrNull_leads (hl : s.Leads key i id a v sh) :
    handleOrNull (some key) s = .done (.handle id a) s :=
  handle_some hl.reaches

theorem violate_goes {fatal full : Prop} {x : α} {f : State → State} {P : Option Signal → State → Prop}
    (hd : s.thread.nativeDepth ≠ 0) (hf : fatal) (i : Invariant) :
    (violate i s : Act α).Goes fatal full x f P :=
  .fatally (violate_calling hd) hf

/-- How a call goes, as the state tells where it begins. -/
def AsTold (op : NativeOp) (s : State) : Prop :=
  (callNative op s).Goes (op.Fatal s) s.profiler.Full (op.answer s) (fun u => u) (op.Leaves s)

section Calls

variable (hd : s.thread.nativeDepth ≠ 0) (hs : Sound [] s) (hu : s.Locked [])

include hd hs hu

/-- A call through a handle, if null is fatal and it is as told of every live one. -/
theorem asTold_of_leads (hop : op.handle? = some h) (hlive : op.Live s)
    (hnull : h = none → ∃ i, callNative op s = violate i s)
    (hk : ∀ key i id a v sh, h = some key → s.Leads key i id a v sh → AsTold op s) :
    AsTold op s := by
  rcases hs.leads hu fun key hh => hlive key (hh ▸ hop) with rfl | ⟨key, i, id, a, v, sh, rfl, hl⟩
  · obtain ⟨i, hi⟩ := hnull rfl
    rw [AsTold, hi]
    exact violate_goes hd (.inl hop) i
  · exact hk key i id a v sh rfl hl

theorem isBound_asTold (hlive : (NativeOp.isBound h).Live s) : AsTold (.isBound h) s := by
  refine asTold_of_leads hd hs hu rfl hlive ?_ ?_
  · rintro rfl
    exact ⟨_, by rw [callNative, bind_apply, handleOrNull, violate_bind]⟩
  · rintro key i id a v sh rfl hl
    have hcall : callNative (.isBound (some key)) s = .done (.flag v.value.isSome) s := by
      rw [callNative, bind_apply, handleOrNull_leads hl, done_bind, bind_apply,
        look_free hl.sharing hl.free hl.slot]
      rfl
    have hfatal : ¬ (NativeOp.isBound (some key)).Fatal s := by
      simp [NativeOp.Fatal, NativeOp.handle?, NativeOp.Releases]
    rw [AsTold, NativeOp.answer, hl.object]
    exact .now hcall hfatal ⟨rfl, ⟨rfl, rfl⟩, .refl s, by simp⟩

theorem read_asTold (hlive : (NativeOp.read h).Live s) : AsTold (.read h) s := by
  refine asTold_of_leads hd hs hu rfl hlive ?_ ?_
  · rintro rfl
    exact ⟨_, by rw [callNative, bind_apply, handleOrNull, violate_bind]⟩
  · rintro key i id a v sh rfl hl
    have hcall : callNative (.read (some key)) s =
        (orLastError (read (.handle id a)) s).bind fun o =>
          (pure (.pointer o) : Action Answer) := by
      rw [callNative, bind_apply, handleOrNull_leads hl, done_bind, bind_apply]
    have hfatal : ¬ (NativeOp.read (some key)).Fatal s := by
      simp [NativeOp.Fatal, NativeOp.handle?, NativeOp.Releases]
    have hmessage : (NativeOp.read (some key)).message s =
        (s.complaint (some key)).or s.thread.lastError := rfl
    rw [hl.complaint] at hmessage
    rw [AsTold, hcall, NativeOp.answer, hl.object]
    refine (((read_goes hd hl.sharing hl.free hl.slot).map (Answer.pointer v.value)
      fun _ => rfl).congr ⟨fun h => absurd h hfatal, False.elim⟩).imp ?_
    rintro g t ⟨rfl, hh, hk, htr, hm⟩
    exact ⟨hm.trans hmessage.symm, ⟨hh, hk⟩, htr, by simp⟩

theorem clear_asTold (hlive : (NativeOp.clear h).Live s) : AsTold (.clear h) s := by
  refine asTold_of_leads hd hs hu rfl hlive ?_ ?_
  · rintro rfl
    exact ⟨_, by rw [callNative, bind_apply, handleOrNull, violate_bind]⟩
  · rintro key i id a v sh rfl hl
    have hcall : callNative (.clear (some key)) s =
        (orLastError (clear (.handle id a)) s).bind fun o =>
          (pure (.flag o.isSome) : Action Answer) := by
      rw [callNative, bind_apply, handleOrNull_leads hl, done_bind, bind_apply]
    have hfatal : (NativeOp.clear (some key)).Fatal s ↔ s.functions = none ∧ v.value.isSome := by
      simp [NativeOp.Fatal, NativeOp.handle?, NativeOp.Releases, hl.object]
    have hmessage : (NativeOp.clear (some key)).message s =
        (s.complaint (some key)).or s.thread.lastError := rfl
    rw [hl.complaint] at hmessage
    rw [AsTold, hcall, NativeOp.answer, hl.object]
    cases ho : v.value with
    | some o =>
      have hclear := (clear_goes (a := a) hd hl.sharing hl.free hl.slot hl.native ho).attempt
      refine (((hclear.map (some true) fun _ => rfl).map (Answer.flag true) fun _ => rfl).congr
        ?_).imp fun g t ht => ⟨?_, ⟨ht.1.handles, ht.1.keys⟩, ⟨_, hl.behind, ?_⟩, fun _ => ?_⟩
      · rw [hfatal, ho]
        simp
      · rw [hmessage, ho, ht.1.message]
        rfl
      · rw [hl.object, ho]
        exact ht.2
      · rw [NativeOp.Releases, hl.object, ho]
        rfl
    | none =>
      cases hp : s.profiler.record v.kind .unboundAccess with
      | some p =>
        rw [orLastError_fail (clear_unbound hl.sharing hl.free hl.slot ho hp)]
        refine .now rfl (by simp [hfatal, ho]) ⟨?_, ⟨rfl, rfl⟩, ⟨_, hl.behind, ?_⟩, by simp⟩
        · rw [hmessage, ho]
          rfl
        · rw [hl.object, ho]
          have hsame : s.slots.modify id ({ · with value := none }) = s.slots := by
            rw [Table.modify_congr (g := fun w => w) hl.slot (by rw [← ho])]
            exact Table.modify_id _ _
          exact ⟨hsame.symm, rfl, fun _ => rfl⟩
      | none =>
        have hclear : clear (.handle id a) s = .halt (.fatal .overflow) s := by
          simp only [clear, lockToChange, bind_apply, lockForChange_free hl.sharing hl.free,
            done_bind, unbind, Cell.slot, slot_some hl.slot, ho, record_none hp, raise_calling hd]
          rfl
        rw [orLastError, bind_apply, attempt_apply, hclear]
        exact .overflows rfl (Profiler.full_of_record hp)

theorem assign_asTold {o : ObjectId} (hlive : (NativeOp.assign h o).Live s) :
    AsTold (.assign h o) s := by
  refine asTold_of_leads hd hs hu rfl hlive ?_ ?_
  · rintro rfl
    by_cases ho : o = 0
    · exact ⟨.nullAssignment, by simp [callNative_assign, ho]⟩
    · exact ⟨.nullHandle, by simp [callNative_assign, ho, handleOrNull]⟩
  · rintro key i id a v sh rfl hl
    have hfound : discard (handle key) s = .done () s := by
      show (handle key s).bind _ = _
      rw [handle_some hl.reaches]
      rfl
    by_cases ho : o = 0
    · have hcall : callNative (.assign (some key) o) s = violate .nullAssignment s := by
        simp only [callNative_assign, bind_apply, hfound, done_bind, ho, if_true]
      rw [AsTold, hcall]
      exact violate_goes hd (.inr (.inl ⟨some key, congrArg _ ho⟩)) _
    · have hcall : callNative (.assign (some key) o) s = (assign (.handle id a) o
          ((s.note (.adopted ⟨.native, o⟩)).hold ⟨.native, o⟩)).bind fun _ =>
            (pure .nothing : Action Answer) := by
        simp only [callNative_assign, bind_apply, hfound, done_bind, ho, if_false,
          handleOrNull_leads hl, adopt_apply]
      have hassign := assign_goes (a := a) (s := (s.note (.adopted ⟨.native, o⟩)).hold ⟨.native, o⟩)
        hd hl.sharing hl.free hl.slot hl.native o
      have hfatal : (NativeOp.assign (some key) o).Fatal s ↔
          s.functions = none ∧ v.value.isSome := by
        simp [NativeOp.Fatal, NativeOp.handle?, NativeOp.Releases, hl.object, ho]
      rw [AsTold, hcall]
      refine ((hassign.map Answer.nothing fun _ => rfl).congr hfatal).imp ?_
      intro g t hreleased
      obtain ⟨hg, ht, htr⟩ := hreleased
      refine ⟨ht.message, ⟨ht.handles, ht.keys⟩, ⟨_, hl.behind, ?_⟩, fun h => ?_⟩
      · rw [hl.object]
        exact ⟨htr.slots, htr.kept, htr.givenUp⟩
      · rw [NativeOp.Releases, hl.object]
        exact hg h

theorem retain_asTold {kept : Option String} (hlive : (NativeOp.retain h kept).Live s) :
    AsTold (.retain h kept) s := by
  refine asTold_of_leads hd hs hu rfl hlive ?_ ?_
  · rintro rfl
    exact ⟨_, by rw [callNative, bind_apply, handleOrNull, violate_bind]⟩
  · rintro key i id a v sh rfl hl
    obtain ⟨t, ht, hwithin, hnext, htraded⟩ := retain_apply hl.sharing hl.slot
    have hid : ((some key).mapM handleId : Action (Option HandleId)) t = .done (some i) t := by
      show (handleId key >>= fun i => pure (some i)) t = _
      rw [bind_apply, handleId_some (hwithin.keys ▸ hl.reaches.1)]
      rfl
    obtain ⟨u, hgive, ⟨k, hle, hlt, hhandles, hkeys⟩, hthread, hslots, hgiven⟩ :=
      giveHandle_apply kept (.handle id .free) (some i) t
    have hcall : callNative (.retain (some key) kept) s = .done .nothing u := by
      rw [callNative, bind_apply, handleOrNull_leads hl, done_bind, bind_apply]
      change (retain id s).bind _ = _
      rw [ht, done_bind, bind_apply, hid, done_bind, bind_apply, hgive]
      rfl
    refine .now hcall ?_ ?_
    · simp [NativeOp.Fatal, NativeOp.handle?, NativeOp.Releases]
    · exact ⟨hthread ▸ hwithin.message, ⟨_, hl.behind, k, by omega, hlt,
        by rw [hhandles, hwithin.handles]; rfl, by rw [hkeys, hwithin.keys]⟩,
        htraded.on (hslots.trans htraded.slots) (congrArg Thread.kept hthread) hgiven, by simp⟩

theorem release_asTold (hlive : (NativeOp.release h).Live s) : AsTold (.release h) s := by
  refine asTold_of_leads hd hs hu rfl hlive ?_ ?_
  · rintro rfl
    exact ⟨_, rfl⟩
  · rintro key i id a v sh rfl hl
    have hcall : callNative (.release (some key)) s = (releaseHandle id
        { s with handles := s.handles.erase i, handleKeys := s.handleKeys.erase key }).bind fun _ =>
          (pure .nothing : Action Answer) := by
      have htake : takeHandle key s = .done (.handle id a)
          { s with handles := s.handles.erase i, handleKeys := s.handleKeys.erase key } := by
        simp only [takeHandle, bind_apply, handleId_some hl.reaches.1, done_bind, get_apply,
          hl.reaches.2, demand_some]
        rfl
      change (takeHandle key s).bind _ = _
      rw [htake]
      rfl
    have hrelease := releaseHandle_goes
      (s := { s with handles := s.handles.erase i, handleKeys := s.handleKeys.erase key })
      hd hl.sharing hl.slot hl.native hl.pos
    have hreleases : (NativeOp.release (some key)).Releases s ↔
        v.value.isSome ∧ sh.handles = 1 := by
      have hslot : s.liveHandles (Cell.handle id a).slot = sh.handles := hl.handles
      simp [NativeOp.Releases, hl.object, hl.behind, hslot]
    have hfatal : (NativeOp.release (some key)).Fatal s ↔
        s.functions = none ∧ v.value.isSome ∧ sh.handles = 1 := by
      simp [NativeOp.Fatal, NativeOp.handle?, hreleases]
    rw [AsTold, hcall]
    refine ((hrelease.map Answer.nothing fun _ => rfl).congr hfatal).imp ?_
    intro g t hreleased
    obtain ⟨hg, ht, htr⟩ := hreleased
    have hcount : s.liveHandles (Cell.handle id a).slot = sh.handles := hl.handles
    refine ⟨ht.message, ⟨key, i, rfl, hl.reaches.1, ht.handles, ht.keys⟩, ⟨_, hl.behind, ?_⟩,
      fun h => hreleases.2 (hg h)⟩
    rw [hl.object, hcount]
    split
    · next hone =>
      rw [if_pos hone] at htr
      exact ⟨htr.slots, htr.kept, htr.givenUp⟩
    · next hone =>
      rw [if_neg hone] at htr
      exact ⟨htr.slots, htr.kept, htr.givenUp⟩

omit hs hu in
theorem install_asTold (f g : Library) : AsTold (.install f g) s := by
  have hfatal : (NativeOp.install f g).Fatal s ↔ s.functions = none ∧
      (s.stored.overlay s.lookup).validate s.build ≠ .ok () := by
    simp [NativeOp.Fatal, NativeOp.handle?, NativeOp.Releases, State.startFails_iff]
  cases hf : s.functions with
  | some f₀ =>
    have hcall : callNative (.install f g) s = .done ((NativeOp.install f g).answer s) s := by
      simp only [callNative, install, bind_apply, get_apply, done_bind, hf, pure_apply,
        NativeOp.answer, Option.all_some]
    exact .now hcall (by simp [hfatal, hf]) ⟨rfl, ⟨rfl, rfl⟩, .refl s, by simp⟩
  | none =>
    have hcall := callNative_install (f := f) (g := g) hf
    cases hv : (s.stored.overlay s.lookup).validate s.build with
    | ok u =>
      rw [hv] at hcall
      have hanswer : (NativeOp.install f g).answer s = .flag true := by
        rw [NativeOp.answer, hf, Option.all_none]
      rw [AsTold, hanswer]
      obtain ⟨c, j, hload⟩ := s.loaded_rest
      refine .now hcall (by simp [hfatal, hv])
        ⟨congrArg Thread.lastError s.loaded_thread, ⟨?_, ?_⟩, ⟨?_, ?_, fun p => ?_⟩, by simp⟩
      · exact (congrArg State.handles hload :)
      · exact (congrArg State.handleKeys hload :)
      · exact (congrArg State.slots hload :)
      · exact congrArg Thread.kept s.loaded_thread
      · exact s.loaded_givenUp p
    | error e =>
      rw [hv] at hcall
      rw [AsTold, hcall]
      exact violate_goes (s.loaded_thread.symm ▸ hd) (hfatal.2 ⟨hf, by rw [hv]; simp⟩) _

/-- **Exported calls go as told.** -/
theorem callNative_asTold (hop : op.Exported) (hlive : op.Live s) : AsTold op s := by
  cases op with
  | install f g => exact install_asTold hd f g
  | create key name o =>
    have hcall : callNative (.create key name o) s = (createHandle key name o s).bind fun _ =>
        (pure .nothing : Action Answer) := rfl
    have hfatal : ¬ (NativeOp.create key name o).Fatal s := by
      simp [NativeOp.Fatal, NativeOp.handle?, NativeOp.Releases]
    rw [AsTold, hcall]
    exact ((createHandle_goes hd key name o).map Answer.nothing fun _ => rfl).congr
      ⟨fun h => absurd h hfatal, False.elim⟩
  | retain => exact retain_asTold hd hs hu hlive
  | release => exact release_asTold hd hs hu hlive
  | assign => exact assign_asTold hd hs hu hlive
  | read => exact read_asTold hd hs hu hlive
  | clear => exact clear_asTold hd hs hu hlive
  | isBound => exact isBound_asTold hd hs hu hlive
  | lastError =>
    have hcall : callNative .lastError s =
        .done (NativeOp.answer s .lastError) s := by
      simp only [callNative, bind_apply, thread_apply, done_bind, NativeOp.answer]
      cases s.thread.lastError <;> rfl
    exact .now hcall (by simp [NativeOp.Fatal, NativeOp.handle?, NativeOp.Releases])
      ⟨rfl, ⟨rfl, rfl⟩, ⟨rfl, rfl, fun _ => rfl⟩, by simp⟩
  | clearError =>
    have hcall : callNative .clearError s =
        .done .nothing (s.inThread ({ · with lastError := none })) := rfl
    exact .now hcall (by simp [NativeOp.Fatal, NativeOp.handle?, NativeOp.Releases])
      ⟨rfl, ⟨rfl, rfl⟩, ⟨rfl, rfl, fun _ => rfl⟩, by simp⟩
  | _ => cases hop

end Calls

theorem unwinding_goes {fatal full : Prop} {a : Action α} {x : α} {f : State → State}
    {P : Option Signal → State → Prop} (h : (a s).Goes fatal full x f P) :
    (unwinding a s).Goes fatal full x f P :=
  h.attempt.map x fun _ => rfl

end Action

/-- Being called from native code changes nothing about that. -/
theorem NativeOp.fatal_calling {op : NativeOp} : op.Fatal s.calling ↔ op.Fatal s := by
  have hstart : s.calling.StartFails ↔ s.StartFails := by
    rw [State.startFails_iff, State.startFails_iff]
    rfl
  have hreleases : op.Releases s.calling ↔ op.Releases s := by cases op <;> exact Iff.rfl
  rw [NativeOp.Fatal, NativeOp.Fatal, hreleases, hstart]
  exact Iff.rfl

/-- **How an exported call goes**, through a live handle and while no lock is held. -/
theorem course_exported {op : NativeOp} (hs : Sound [] s) (hu : s.Locked []) (hop : op.Exported)
    (hlive : op.Live s) : ((Op.native op).course s).Goes (op.Fatal s) s.profiler.Full (op.answer s)
      State.returned (op.Leaves s) := by
  have ha : Aside s s.calling := .silent rfl rfl
  have hsc : Sound [] s.calling := (Move.aside ha).sound hs
  have hcall : (Action.callNative op s.calling).Goes (op.Fatal s) s.profiler.Full (op.answer s)
      (fun u => u) (op.Leaves s) := by
    have hanswer : op.answer s.calling = op.answer s := by cases op <;> rfl
    have hmessage : op.message s.calling = op.message s := by cases op <;> rfl
    have hhands (t : State) : op.Hands s.calling t → op.Hands s t := by cases op <;> exact id
    have htrades (t : State) : op.Trades s.calling t → op.Trades s t := by
      have htraded {vs o} (h : s.calling.Traded vs o t) : s.Traded vs o t :=
        ⟨h.slots, h.kept, h.givenUp⟩
      cases op with
      | create => exact htraded
      | assign | clear =>
        rintro ⟨c, hc, h⟩
        exact ⟨c, hc, htraded h⟩
      | release =>
        rintro ⟨c, hc, h⟩
        refine ⟨c, hc, ?_⟩
        change ite (s.liveHandles c.slot = 1) _ _ at h
        split at h
        · next hone =>
          rw [if_pos hone]
          exact htraded h
        · next hone =>
          rw [if_neg hone]
          exact htraded h
      | _ => exact htraded
    have hreleases : op.Releases s.calling → op.Releases s := by cases op <;> exact id
    have h := Action.callNative_asTold (Nat.succ_ne_zero _) hsc (hu.same rfl) hop hlive
    rw [Action.AsTold, hanswer] at h
    exact (h.congr NativeOp.fatal_calling.symm).imp fun g t ht =>
      ⟨hmessage ▸ ht.message, hhands t ht.hands, htrades t ht.trades, fun hg => hreleases (ht.signal hg)⟩
  exact Action.unwinding_goes (hcall.attempt.bind (op.answer s) State.returned fun _ => rfl)

end ClaimCells
