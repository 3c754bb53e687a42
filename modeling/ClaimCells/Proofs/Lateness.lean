import ClaimCells.Proofs.Classes
import ClaimCells.Proofs.Flow
import ClaimCells.Proofs.Balance

/-!
# What comes late

An operation may find that a variable has no value to give, that an object could not be produced, or
that a claim is refused. It finds this at once or not at all (`Failure.Early`): most of what actions
do is late, so that it fails for other reasons only, and counts no access to a variable without
value.

Main results: the rules of `Action.Late`, up to `Late.withCell` and `Late.nativeCall`.
-/

namespace ClaimCells

variable {α β : Type} {s t : State}

/-! ## Early failures -/

/-- The ledger refuses to add a claim. -/
def Misuse.Acquires : Misuse → Prop
  | .acquireFreed _ | .acquireUnknown _ => True
  | _ => False

/-- There is no value to give or to take, it could not be produced, or a claim on it was refused. -/
def Failure.Early : Failure → Prop
  | .cell _ => True
  | .panic (.misuse m) => m.Acquires
  | .panic (.invariant i) => i = .temporaryTake
  | _ => False

/-- How often variables of a kind were found without value, as the profiler of the process counts. -/
def State.misses (s : State) (k : CellKind) : Nat :=
  s.profiler.counter k .unboundAccess

theorem State.misses_record {k : CellKind} {e : ClaimEvent} {p : Profiler} (he : e ≠ .unboundAccess)
    (hp : s.profiler.record k e = some p) : { s with profiler := p }.misses = s.misses := by
  funext k'
  by_cases hon : s.profiler.enabled = true
  · have hcount := (Profiler.record_counts hp hon).2 k' .unboundAccess
    rw [List.count_eq_zero_of_not_mem (by simp [Ne.symm he])] at hcount
    exact hcount
  · rw [Profiler.record, if_neg hon] at hp
    cases hp
    rfl

/-- The course never fails early, and finds no variable without value. -/
def Act.Late : State → Act α → Prop
  | s, done _ t => t.misses = s.misses
  | s, fail f t => ¬ f.Early ∧ t.misses = s.misses
  | _, halt .. => True
  | s, send _ t next => t.misses = s.misses ∧ ∀ t', Late t' (next t')

namespace Act.Late

variable {x : Act α}

theorem before (hs : t.misses = s.misses) (h : x.Late t) : x.Late s := by
  cases x with
  | done => exact Eq.trans h hs
  | fail => exact ⟨h.1, h.2.trans hs⟩
  | send => exact ⟨h.1.trans hs, h.2⟩
  | halt => trivial

theorem bind {k : α → State → Act β} (h : x.Late s) (hk : ∀ a t, (k a t).Late t) :
    (x.bind k).Late s := by
  induction x generalizing s with
  | done a t => exact before h (hk a t)
  | fail | halt => exact h
  | send g t next ih => exact ⟨h.1, fun t' => ih t' (h.2 t')⟩

/-- What is done about a failure that is not early. -/
theorem tried {k : Except Failure α → State → Act β} (h : x.Late s)
    (hk : ∀ r t, (∀ f, r = .error f → ¬ f.Early) → (k r t).Late t) : (x.attempt.bind k).Late s := by
  induction x generalizing s with
  | done a t => exact before h (hk (.ok a) t fun _ hf => by cases hf)
  | fail f t => exact before h.2 (hk (.error f) t fun f' hf' => by cases hf'; exact h.1)
  | halt => trivial
  | send g t next ih => exact ⟨h.1, fun t' => ih t' (h.2 t')⟩

end Act.Late

namespace Action

/-- The action never fails early, and finds no variable without value. -/
def Late (a : Action α) : Prop :=
  ∀ s, (a s).Late s

namespace Late

/-! ## Actions -/

theorem pure (x : α) : Late (pure x) :=
  fun _ => rfl

theorem halt (h : Halt) : Late (halt h : Action α) :=
  fun _ => trivial

theorem get {k : State → Action α} (hk : ∀ s, Late (k s)) : Late (get >>= k) :=
  fun s => hk s s

theorem thread {k : Thread → Action α} (hk : ∀ t, Late (k t)) : Late (thread >>= k) :=
  fun s => hk s.thread s

theorem ite {p : Prop} [Decidable p] {a b : Action α} (ha : Late a) (hb : Late b) :
    Late (if p then a else b) := by
  split
  · exact ha
  · exact hb

theorem send (g : Signal) : Late (send g) :=
  fun _ => ⟨rfl, fun _ => rfl⟩

theorem fail {f : Failure} (h : ¬ f.Early) : Late (fail f : Action α) :=
  fun _ => ⟨h, rfl⟩

/-- What changes the state, but no counter of the process. -/
theorem modify (f : State → State) (hf : ∀ s, (f s).profiler = s.profiler) :
    Late (modify f) :=
  fun s => by
    show (fun k => (f s).profiler.counter k .unboundAccess) = fun k => s.profiler.counter k .unboundAccess
    rw [hf]

theorem bind {a : Action α} {k : α → Action β} (ha : Late a) (hk : ∀ x, Late (k x)) :
    Late (a >>= k) :=
  fun s => (ha s).bind fun x t => hk x t

theorem tried {a : Action α} {k : Except Failure α → Action β} (ha : Late a)
    (hk : ∀ r, (∀ f, r = .error f → ¬ f.Early) → Late (k r)) : Late (attempt a >>= k) :=
  fun s => (ha s).tried fun r t hr => hk r hr t

theorem forM {f : α → Action Unit} (hf : ∀ x, Late (f x)) : ∀ l : List α, Late (l.forM f)
  | [] => pure ()
  | x :: l => bind (hf x) fun _ => forM hf l

theorem mapM {f : α → Action β} (hf : ∀ x, Late (f x)) : ∀ l : List α, Late (l.mapM f)
  | [] => by rw [List.mapM_nil]; exact pure []
  | x :: l => by
    rw [List.mapM_cons]
    exact bind (hf x) fun _ => bind (mapM hf l) fun _ => pure _

theorem ofExcept {r : Except Failure α} (hr : ∀ f, r = .error f → ¬ f.Early) : Late (ofExcept r) := by
  cases r with
  | ok x => exact pure x
  | error f => exact fail (hr f rfl)

theorem demand {f : Failure} (h : ¬ f.Early) : ∀ x : Option α, Late (demand f x)
  | some x => pure x
  | none => fail h

theorem raise {p : Panic} (h : ¬ (Failure.panic p).Early) : Late (raise p : Action α) :=
  thread fun _ => ite (fail h) (halt _)

theorem note (e : Entry) : Late (note e) :=
  modify _ fun _ => rfl

theorem emit (e : Event) : Late (emit e) :=
  get fun _ => note _

theorem violate {i : Invariant} (h : i ≠ .temporaryTake) : Late (violate i : Action α) :=
  bind (emit _) fun _ => raise h

theorem record {k : CellKind} {e : ClaimEvent} (h : e ≠ .unboundAccess) : Late (record k e) := by
  intro s
  cases hp : s.profiler.record k e with
  | some p =>
    rw [record_some hp]
    exact State.misses_record h hp
  | none =>
    rw [record_none hp]
    exact raise (p := .overflow) (fun h => h) s

theorem fresh : Late fresh :=
  fun _ => rfl

theorem slot (id : SlotId) : Late (slot id) :=
  get fun _ => demand (f := .noSuchCell) (fun h => h) _

theorem sharing (id : SlotId) : Late (sharing id) :=
  get fun _ => demand (f := .noSuchCell) (fun h => h) _

theorem kept (id : KeptId) : Late (kept id) :=
  thread fun _ => demand (f := .noSuchCell) (fun h => h) _

theorem functions : Late functions := by
  refine get fun s => ?_
  split
  · exact pure _
  · exact violate nofun

/-! ## Releasing -/

/-- The ledger may refuse to take a claim off an object, but that is not early. -/
theorem release (c : Claim) : Late (release c) := by
  obtain ⟨realm, o⟩ := c
  refine bind (modify _ fun _ => rfl) fun _ => ?_
  cases realm with
  | counted =>
    refine thread fun t => bind ?_ fun _ => bind (note _) fun _ => bind (send _) fun _ =>
      thread fun _ => ite (send _) (pure ())
    show Late (settleLedger (t.ledger.release o))
    cases hl : t.ledger.release o with
    | ok l => exact bind (modify _ fun _ => rfl) fun _ => pure l
    | error m =>
      refine bind (note _) fun _ => raise fun hm => ?_
      obtain rfl | rfl := Ledger.release_error hl <;> exact hm
  | native => exact bind functions fun _ => bind (note _) fun _ => send _

theorem releaseAny : ∀ c? : Option Claim, Late (releaseAny c?)
  | some c => release c
  | none => pure ()

theorem cleanUp {a : Action Unit} (ha : Late a) : Late (cleanUp a) := by
  refine tried ha fun r _ => ?_
  cases r with
  | ok => exact pure ()
  | error => exact halt _

theorem conclude {r : Except Failure α} {a : Action Unit} (ha : Late a)
    (hr : ∀ f, r = .error f → ¬ f.Early) : Late (conclude r a) := by
  unfold Action.conclude
  split
  · exact bind (cleanUp ha) fun _ => fail (hr _ rfl)
  · exact bind ha fun _ => ofExcept hr

theorem unwinding {a : Action α} (ha : Late a) : Late (unwinding a) := by
  refine thread fun _ => tried ha fun r hr => ?_
  cases r with
  | ok x => exact pure x
  | error f =>
    exact thread fun _ => bind (forM (fun _ => cleanUp (release _)) _) fun _ => fail (hr f rfl)

/-! ## Variables -/

theorem did (d : Deed) : Late (did d) :=
  note _

theorem hold (c : Claim) : Late (hold c) :=
  modify _ fun _ => rfl

theorem letGo (c : Claim) : Late (letGo c) :=
  modify _ fun _ => rfl

theorem makeSlot (realm : Realm) (kind : CellKind) (name : String) (value : Option ObjectId) :
    Late (makeSlot realm kind name value) := by
  refine bind (record nofun) fun _ => ?_
  cases value with
  | some o =>
    exact bind (record nofun) fun _ => bind (emit _) fun _ => bind fresh fun _ => bind (modify _ fun _ => rfl) fun _ =>
      bind (did _) fun _ => bind (letGo _) fun _ => pure _
  | none =>
    exact bind (emit _) fun _ => bind fresh fun _ => bind (modify _ fun _ => rfl) fun _ =>
      bind (did _) fun _ => pure _

theorem setValue (id : SlotId) (value : Option ObjectId) : Late (setValue id value) :=
  bind (modify _ fun _ => rfl) fun _ => did _

theorem replace (id : SlotId) (o : ObjectId) : Late (replace id o) := by
  refine bind (slot id) fun v => bind (record nofun) fun _ => bind (letGo _) fun _ =>
    bind (setValue _ _) fun _ => ?_
  cases v.value with
  | some o' => exact bind (hold _) fun _ => bind (record nofun) fun _ => bind (emit _) fun _ => pure _
  | none => exact bind (emit _) fun _ => pure _

theorem destroySlot (id : SlotId) : Late (destroySlot id) := by
  refine bind (slot id) fun v => bind (modify _ fun _ => rfl) fun _ => bind (did _) fun _ => ?_
  split
  · exact bind (hold _) fun _ => bind (record nofun) fun _ => bind (emit _) fun _ => release _
  · exact pure ()

theorem lockForReading (id : SlotId) : Late (lockForReading id) :=
  bind (sharing id) fun _ => get fun _ => ite (halt _) (pure ())

theorem lockForChange (id : SlotId) : Late (lockForChange id) := by
  refine bind (sharing id) fun _ => ite (get fun s => ?_) (pure ())
  split
  · exact raise fun h => h
  · exact halt _

theorem lockToChange : ∀ c : Cell, Late (lockToChange c)
  | .own .. => pure ()
  | .handle id _ => lockForChange id

theorem assign (c : Cell) (o : ObjectId) : Late (assign c o) :=
  bind (lockToChange c) fun _ => bind (replace _ _) fun _ => releaseAny _

theorem look : ∀ c : Cell, Late (look c)
  | .own _ id => slot id
  | .handle id _ => bind (lockForReading id) fun _ => slot id

theorem debugText (c : Cell) (bound : Bool) : Late (debugText c bound) := by
  refine bind (look c) fun v => ?_
  cases c with
  | own => exact pure _
  | handle id a => exact bind (sharing id) fun _ => pure _

/-! ## Cells -/

theorem makeOwn (form : Form) (name : String) (value : Option ObjectId) :
    Late (makeOwn form name value) :=
  bind (makeSlot _ _ _ _) fun _ => pure _

theorem makeShared (realm : Realm) (name : String) (value : Option ObjectId) :
    Late (makeShared realm name value) :=
  bind (makeSlot _ _ _ _) fun _ => bind (modify _ fun _ => rfl) fun _ => bind (did _) fun _ => pure _

theorem setSharing (id : SlotId) (f : Sharing → Sharing) : Late (setSharing id f) :=
  modify _ fun _ => rfl

theorem retain (id : SlotId) : Late (retain id) :=
  bind (setSharing _ _) fun _ => bind (did _) fun _ => bind (slot id) fun _ => bind (sharing id) fun _ =>
    bind (emit _) fun _ => pure _

theorem dropHandle (id : SlotId) : Late (dropHandle id) := by
  refine bind (modify _ fun _ => rfl) fun _ => bind (did _) fun _ => bind (sharing id) fun _ =>
    ite (bind (slot id) fun v => bind (modify _ fun _ => rfl) fun _ => ?_) (pure ())
  exact tried (bind (record nofun) fun _ => emit _) fun r hr => conclude (destroySlot id) hr

theorem releaseHandle (id : SlotId) : Late (releaseHandle id) :=
  bind (slot id) fun _ => bind (sharing id) fun _ => bind (emit _) fun _ => dropHandle id

theorem destroy : ∀ c : Cell, Late (destroy c)
  | .own _ id => destroySlot id
  | .handle id _ => dropHandle id

theorem setKept (id : KeptId) (f : Kept → Kept) : Late (setKept id f) :=
  modify _ fun _ => rfl

theorem abandon (id : KeptId) : Late (abandon id) :=
  bind (kept id) fun _ => ite (bind (modify _ fun _ => rfl) fun _ => destroy _) (pure ())

theorem leave (id : KeptId) : Late (leave id) :=
  bind (setKept _ _) fun _ => thread fun _ => ite (abandon id) (pure ())

theorem keepCell (key : String) (c : Cell) (parent : Option KeptId) : Late (keepCell key c parent) := by
  refine bind fresh fun id => thread fun t => bind (modify _ fun _ => rfl) fun _ => bind (note _) fun _ => ?_
  split
  · exact abandon _
  · exact pure ()

theorem keptId (key : String) : Late (keptId key) :=
  thread fun _ => demand id _

theorem cell (key : String) : Late (cell key) :=
  bind (keptId key) fun _ => bind (kept _) fun _ => pure _

theorem takeCell (key : String) : Late (takeCell key) :=
  bind (keptId key) fun _ => bind (kept _) fun _ => ite
    (bind (fail id) fun _ => bind (modify _ fun _ => rfl) fun _ => pure _) (bind (modify _ fun _ => rfl) fun _ => pure _)

theorem sharedSlot : ∀ c : Cell, Late (sharedSlot c)
  | .handle .. => pure _
  | .own .. => fail id

theorem innerCell (c : Cell) : Late (innerCell c) := by
  unfold Action.innerCell
  split
  · exact pure _
  · exact fail id

theorem viewCell (k : Kept) : Late (viewCell k) := by
  unfold Action.viewCell
  split
  · exact pure _
  · split
    · exact bind (slot _) fun _ => pure _
    · exact bind (look _) fun _ => bind (sharing _) fun _ => pure _

/-! ## Claims -/

theorem requireKnown (o : ObjectId) : Late (requireKnown o) :=
  thread fun _ => ite (fail id) (pure ())

theorem makeKnown (o : ObjectId) : Late (makeKnown o) :=
  modify _ fun _ => rfl

theorem claimed (key : String) : Late (claimed key) :=
  thread fun _ => demand id _

theorem takeClaim (key : String) : Late (takeClaim key) :=
  bind (claimed key) fun _ => bind (modify _ fun _ => rfl) fun _ => bind (hold _) fun _ => pure _

theorem takeInitial : ∀ key : Option String, Late (takeInitial key)
  | none => pure _
  | some key => bind (takeClaim key) fun _ => pure _

theorem keepClaim (key : String) (o : ObjectId) : Late (keepClaim key o) := by
  refine thread fun t => bind (letGo ⟨.counted, o⟩) fun _ =>
    bind (modify _ fun _ => rfl) fun _ => bind (did (.handed key o)) fun _ => ?_
  cases t.claims.get? key with
  | some old => exact bind (hold _) fun _ => release _
  | none => exact pure ()

theorem adopt (c : Claim) : Late (adopt c) :=
  bind (note _) fun _ => hold _

theorem disown (c : Claim) : Late (disown c) :=
  bind (note _) fun _ => letGo _

theorem allocate : Late allocate :=
  thread fun _ => bind (modify _ fun _ => rfl) fun _ => bind (note _) fun _ => bind (hold _) fun _ => pure _

/-! ## Uses -/

section Uses

variable {a : Action α} (ha : Late a)

include ha

/-- While something is noted of a kept cell. -/
theorem flagging (id : KeptId) (f g : Kept → Kept) : Late (do
    Action.setKept id f
    let result ← attempt (Action.unwinding a)
    Action.setKept id g
    Action.ofExcept result) :=
  bind (setKept _ _) fun _ => tried (unwinding ha) fun _ hr => bind (setKept _ _) fun _ => ofExcept hr

theorem looking (id : KeptId) : Late (looking id a) :=
  bind (kept id) fun _ => ite (bind (fail fun h => h) fun _ => flagging ha id _ _) (flagging ha id _ _)

theorem changing (id : KeptId) : Late (changing id a) := by
  refine bind (kept id) fun k => ?_
  split
  · exact looking ha id
  · exact ite (bind (fail fun h => h) fun _ => flagging ha id _ _) (flagging ha id _ _)

theorem nativeCall : Late (nativeCall a) :=
  bind (modify _ fun _ => rfl) fun _ => tried ha fun _ hr => bind (modify _ fun _ => rfl) fun _ => ofExcept hr

end Uses

theorem withCell (key : String) {a : KeptId → Cell → Action α} (ha : ∀ id c, Late (a id c)) :
    Late (withCell key a) :=
  bind (keptId key) fun _ => bind (kept _) fun _ => bind (setKept _ _) fun _ =>
    tried (unwinding (ha _ _)) fun _ hr => conclude (leave _) hr

/-! ## Native code -/

theorem giveHandle (key : Option String) (c : Cell) (parent : Option HandleId) :
    Late (giveHandle key c parent) := by
  refine bind fresh fun id => bind (modify _ fun _ => rfl) fun _ => bind (note _) fun _ => ?_
  cases key with
  | some key => exact modify _ fun _ => rfl
  | none => exact pure ()

theorem handleId (key : String) : Late (handleId key) :=
  get fun _ => demand (f := .noSuchHandle) (fun h => h) _

theorem handle (key : String) : Late (handle key) :=
  get fun _ => bind (handleId key) fun _ => demand (f := .noSuchHandle) (fun h => h) _

theorem handleOrNull : ∀ h : Option String, Late (handleOrNull h)
  | some key => handle key
  | none => violate nofun

theorem someHandle : ∀ h : Option String, Late (someHandle h)
  | some key => handle key
  | none => fail fun h => h

theorem handleSlot (h : Option String) : Late (handleSlot h) :=
  bind (someHandle h) fun _ => pure _

theorem takeHandle (key : String) : Late (takeHandle key) :=
  bind (handleId key) fun _ => get fun _ => bind (demand (f := .noSuchHandle) (fun h => h) _) fun _ =>
    bind (modify _ fun _ => rfl) fun _ => pure _

theorem createHandle (key : Option String) (name : Option Text.Utf8.Bytes) (o : ObjectId) :
    Late (createHandle key name o) := by
  have hmake : Late (Action.makeShared .native (nativeName name) (if o = 0 then none else some o) >>=
      fun c => Action.giveHandle key c) :=
    bind (makeShared _ _ _) fun _ => giveHandle _ _ _
  exact ite (bind (adopt _) fun _ => hmake) hmake

/-- Native functions refuse no claim. -/
theorem gainNative (o : ObjectId) : Late (gain ⟨.native, o⟩) :=
  bind functions fun _ => bind (hold _) fun _ => note _

theorem setLastError (e : CellError) : Late (setLastError e) :=
  bind (emit _) fun _ => modify _ fun _ => rfl

end Late

end Action

end ClaimCells
