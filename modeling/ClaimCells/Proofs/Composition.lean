import ClaimCells.Proofs.Cellular

/-!
# Operations are put together of cellular steps

What an operation needs of its scope is what it does besides: operations on kept cells look at keys,
those that acquire claims gain, calls from native code are noted, counters are changed, and settings
are put in place.

Main result: `perform_cellular`, all operations are cellular in a scope that is wide enough.
-/

namespace ClaimCells

variable {α : Type} {S : Scope}

/-- Nothing is forbidden, but around the cells only these changes are allowed. -/
def Scope.wide (outer : State → State → Prop) : Scope where
  keys := True
  gains := True
  reads := True
  looks _ := True
  changes _ := True
  writes _ := True
  refuses := True
  loose := False
  dumps := True
  setup := True
  outer := outer

/-! ## What operations do besides -/

namespace Verb

/-- Uses that look at the variable of the cell. -/
def Looks : Verb → Prop
  | .state | .isBound | .read | .debug => True
  | _ => False

/-- Uses that look at it, and acquire a claim on its object meanwhile. -/
def ReadsOwned : Verb → Prop
  | .readOwned _ => True
  | _ => False

/-- Uses that change it. -/
def Changes : Verb → Prop
  | .assign _ | .assignBorrowed _ | .clear | .take _ => True
  | _ => False

/-- Uses that acquire a claim on another object. -/
def Acquires : Verb → Prop
  | .assignBorrowed _ => True
  | _ => False

end Verb

namespace NativeOp

def Looks : NativeOp → Prop
  | .isBound _ | .read _ | .debug _ => True
  | _ => False

def ReadsOwned : NativeOp → Prop
  | .readOwned _ => True
  | _ => False

def Changes : NativeOp → Prop
  | .assign .. | .assignBorrowed .. | .clear _ | .take _ => True
  | _ => False

def Acquires : NativeOp → Prop
  | .acquire _ | .assignBorrowed .. => True
  | _ => False

/-- The handle that a call is made through, if it takes one. -/
def handle? : NativeOp → Option (Option String)
  | .retain h _ | .release h | .assign h _ | .read h | .clear h | .isBound h | .name h
  | .refcount h | .sameAs h _ | .debug h | .readOwned h | .take h | .assignBorrowed h _ => some h
  | .install .. | .create .. | .lastError | .clearError | .acquire _ | .drop _ => none

end NativeOp

/-- Operations on objects that acquire a claim. -/
def ObjectOp.Acquires : ObjectOp → Prop
  | .acquire _ | .claim _ true _ | .duplicate .. => True
  | _ => False

/-- Ways to make a cell with a claim that is acquired. -/
def Making.Acquires : Making → Prop
  | .parameterBorrowed .. => True
  | .parameterAdopt _ _ mode => OwnershipMode.decoder.decode (.value mode) = .ok .borrowed
  | _ => False

/-- Another state in which keys and handles stand for the same cells. -/
def State.KeyedAs (s u : State) : Prop :=
  (u.handleKeys, u.handles, u.thread.cells, u.thread.kept) =
    (s.handleKeys, s.handles, s.thread.cells, s.thread.kept)

/-- Another state in which handles in native code stand for the same cells. -/
def State.HandledAs (s u : State) : Prop :=
  (u.handleKeys, u.handles) = (s.handleKeys, s.handles)

theorem State.KeyedAs.handled {s u : State} (h : s.KeyedAs u) : s.HandledAs u :=
  (congrArg (fun p => (p.1, p.2.1)) h :)

/-- The cell that a handle leads to. -/
def State.behind (s : State) (h : Option String) : Option Cell :=
  h.bind fun key => (s.handleKeys.get? key).bind s.handles.get?

namespace Op

/-- Operations that look at the variable of one cell. -/
def Looks : Op → Prop
  | .cell (.use _ _ verb) => verb.Looks
  | .native op => op.Looks
  | _ => False

/-- Operations that change the variable of a cell. -/
def Changes : Op → Prop
  | .cell (.use _ _ verb) => verb.Changes
  | .native op => op.Changes
  | _ => False

/-- Operations that read a claim. -/
def ReadsOwned : Op → Prop
  | .cell (.use _ _ verb) => verb.ReadsOwned
  | .native op => op.ReadsOwned
  | _ => False

/-- Operations that may acquire another one. -/
def Acquires : Op → Prop
  | .object op => op.Acquires
  | .cell (.make _ how) => how.Acquires
  | .cell (.use _ _ verb) => verb.Acquires
  | .native op => op.Acquires
  | _ => False

/-- Operations that set the process up, or change its settings. -/
def SetsUp : Op → Prop
  | .settings _ | .manager .. | .process _ | .native (.install ..) => True
  | _ => False

/-- Operations on counters. -/
def Counts : Op → Prop
  | .stats _ | .profiler .. => True
  | _ => False

/-- Operations on cells that are kept under keys. -/
def OnKept : Op → Prop
  | .cell _ | .dump => True
  | _ => False

/-- The cell that is used. -/
def cell? (s : State) : Op → Option Cell
  | .cell (.use key ..) => s.cellOf key
  | .native op => op.handle?.bind s.behind
  | _ => none

end Op

namespace Action

/-! ## Objects -/

theorem makeKnown_cellular (o : ObjectId) : Cellular S (makeKnown o) := by
  have heq : makeKnown o = inThread fun t =>
      { t with known := if t.known.contains o then t.known else o :: t.known } := by
    funext s
    simp only [makeKnown, inThread_apply, State.inThread]
    split <;> rfl
  rw [heq]
  exact .inThread (fun _ => rfl) fun _ _ _ => rfl

theorem requireKnown_cellular (o : ObjectId) : Cellular S (requireKnown o) :=
  .lookThread (fun _ _ _ => rfl) fun _ => .ite (.fail _ nofun) (.pure _)

theorem claimed_cellular (key : String) : Cellular S (claimed key) :=
  .lookClaim (fun _ _ h => by rw [h]) fun _ => .demand .noSuchClaim nofun _

theorem takeClaim_cellular (key : String) : Cellular S (takeClaim key) :=
  .bind (claimed_cellular key) fun _ => .bind (.eraseClaim key) fun _ =>
    .bind (hold_cellular _) fun _ => .pure _

theorem keepClaim_cellular (key : String) (o : ObjectId) : Cellular S (keepClaim key o) := by
  refine .lookClaim (fun t t' (h : t.claims.get? key = t'.claims.get? key) => by rw [h]) fun _ => .bind (letGo_cellular _) fun _ =>
    .bind (.insertClaim key o) fun _ => .bind (.did (d := .handed key o) (.inr rfl)) fun _ => ?_
  split
  · exact .bind (hold_cellular _) fun _ => release_cellular _
  · exact .pure _

theorem produce_cellular (f : Cause → Failure) (hf : ∀ c, S.Admits (f c)) :
    ∀ fault : Option Cause, Cellular S (produce f fault)
  | some _ => .fail _ (hf _)
  | none => allocate_cellular

theorem keepNew_cellular (h : S.gains) (c : Claim) (key : String) : Cellular S (keepNew c key) :=
  .bind (acquire_cellular h c) fun _ => .bind (keepClaim_cellular _ _) fun _ => .pure _

theorem performObject_cellular {op : ObjectOp} (h : op.Acquires → S.gains) :
    Cellular S (performObject op) := by
  cases op with
  | allocate key =>
    refine .bind allocate_cellular fun c => ?_
    cases key with
    | none => exact .bind (disown_cellular c) fun _ => .pure _
    | some key => exact .bind (keepClaim_cellular _ _) fun _ => .pure _
  | tryAllocate =>
    exact .bind (produce_cellular .allocation (fun _ => nofun) _) fun _ => .bind (keepClaim_cellular _ _) fun _ => .pure _
  | «foreign» => exact .bind (makeKnown_cellular _) fun _ => .pure _
  | acquire =>
    exact .bind (requireKnown_cellular _) fun _ => .bind (acquireRaw_cellular (h trivial) _) fun _ => .pure _
  | release =>
    exact .bind (requireKnown_cellular _) fun _ => .bind (adopt_cellular _) fun _ =>
      .bind (release_cellular _) fun _ => .pure _
  | inspect =>
    exact .bind (requireKnown_cellular _) fun _ => .lookThread (fun _ _ _ => rfl) fun _ => .pure _
  | claim o new key =>
    refine .bind (requireKnown_cellular _) fun _ => ?_
    cases new with
    | true => exact keepNew_cellular (h trivial) _ _
    | false => exact .bind (adopt_cellular _) fun _ => .bind (keepClaim_cellular _ _) fun _ => .pure _
  | dropClaim => exact .bind (takeClaim_cellular _) fun _ => .bind (release_cellular _) fun _ => .pure _
  | intoOwned => exact .bind (takeClaim_cellular _) fun _ => .bind (disown_cellular _) fun _ => .pure _
  | duplicate =>
    exact .bind (takeClaim_cellular _) fun _ => .tried (acquire_cellular (h trivial) _) fun _ hr =>
      .bind (keepClaim_cellular _ _) fun _ => .bind (.ofExcept hr) fun _ =>
      .bind (keepClaim_cellular _ _) fun _ => .pure _
  | borrow | claimDebug => exact .bind (claimed_cellular _) fun _ => .pure _
  | borrowEq => exact .bind (claimed_cellular _) fun _ => .bind (claimed_cellular _) fun _ => .pure _

/-! ## Native code -/

theorem giveHandle_cellular (key : Option String) (c : Cell) (parent : Option HandleId) :
    Cellular S (giveHandle key c parent) := by
  refine .bind .fresh fun _ => .bind (.modify (fun _ => rfl) (fun _ _ _ => rfl) fun _ _ => rfl) fun _ =>
    .bind (.note trivial (.inr trivial)) fun _ => ?_
  cases key with
  | none => exact .pure _
  | some key => exact .modify (fun _ => rfl) (fun _ _ _ => rfl) fun _ _ => rfl

theorem handleId_cellular (key : String) : Cellular S (handleId key) :=
  .look (fun _ _ _ => rfl) (fun _ _ => rfl) fun _ => .demand .noSuchHandle nofun _

theorem handle_cellular (key : String) : Cellular S (handle key) :=
  .look (fun _ _ _ => rfl) (fun _ _ => rfl) fun _ => .bind (handleId_cellular key) fun _ =>
    .demand .noSuchHandle nofun _

theorem handleOrNull_cellular : ∀ h : Option String, Cellular S (handleOrNull h)
  | some key => handle_cellular key
  | none => .violate _

theorem someHandle_cellular : ∀ h : Option String, Cellular S (someHandle h)
  | some key => handle_cellular key
  | none => .fail _ nofun

theorem takeHandle_cellular (key : String) : Cellular S (takeHandle key) :=
  .bind (handleId_cellular key) fun _ => .look (fun _ _ _ => rfl) (fun _ _ => rfl) fun _ =>
    .bind (.demand .noSuchHandle nofun _) fun _ =>
    .bind (.modify (fun _ => rfl) (fun _ _ _ => rfl) fun _ _ => rfl) fun _ => .pure _

theorem setLastError_cellular (h : S.calls) (e : CellError) : Cellular S (setLastError e) :=
  .bind (.emit (fun _ => trivial) (.inr rfl)) fun _ =>
    .aside (fun _ => rfl) (fun s => h s s.thread.nativeDepth _) (fun _ => rfl) (fun _ _ _ => rfl)
      (.inr fun _ _ => rfl)

theorem orLastError_cellular (h : S.calls) {a : Action α} (ha : Cellular S a) :
    Cellular S (orLastError a) := by
  refine .tried ha fun r hr => ?_
  split
  · exact .pure _
  · exact .bind (setLastError_cellular h _) fun _ => .pure _
  · exact .fail _ (hr _ rfl)

theorem handOver_cellular {a : Action Claim} (ha : Cellular S a) : Cellular S (handOver a) :=
  .bind ha fun _ => .bind (disown_cellular _) fun _ => .pure _

theorem handleSlot_cellular (h : Option String) : Cellular S (handleSlot h) :=
  .bind (someHandle_cellular h) fun _ => .pure _

/-- Calls that look at no variable and change none, but that of a cell they make or end. -/
theorem callNative_cellular {op : NativeOp} (hg : op.Acquires → S.gains) (ho : S.calls)
    (hl : ¬ op.Looks) (hr : ¬ op.ReadsOwned) (hc : ¬ op.Changes)
    (hop : ∀ f g, op ≠ .install f g) : Cellular S (callNative op) := by
  cases op with
  | install f g => exact absurd rfl (hop f g)
  | create key name o =>
    have hmake : Cellular S (makeShared .native (nativeName name) (if o = 0 then none else some o) >>=
        fun c => giveHandle key c) := .bind (makeShared_cellular _ _ _) fun _ => giveHandle_cellular _ _ _
    refine .bind ?_ fun _ => .pure _
    by_cases ho : o = 0
    · simpa [createHandle, ho] using hmake
    · simpa [createHandle, ho] using Cellular.bind (adopt_cellular ⟨.native, o⟩) fun _ => hmake
  | retain h key =>
    refine .bind (handleOrNull_cellular h) fun _ => .bind (retain_cellular _) fun _ => ?_
    cases h with
    | none => exact .bind (.pure _) fun _ => .bind (giveHandle_cellular _ _ _) fun _ => .pure _
    | some h =>
      exact .bind (.bind (handleId_cellular h) fun _ => .pure _) fun _ =>
        .bind (giveHandle_cellular _ _ _) fun _ => .pure _
  | release h =>
    cases h with
    | none => exact .violate _
    | some h =>
      exact .bind (takeHandle_cellular _) fun _ => .bind (releaseHandle_cellular _) fun _ => .pure _
  | lastError =>
    refine .lookThread (fun _ _ _ => rfl) fun t => ?_
    split <;> exact .pure _
  | clearError =>
    exact .bind (.aside (fun _ => rfl) (fun s => ho s s.thread.nativeDepth none) (fun _ => rfl)
      (fun _ _ _ => rfl) (.inr fun _ _ => rfl)) fun _ => .pure _
  | acquire => exact .bind (acquireRaw_cellular (hg trivial) _) fun _ => .pure _
  | drop => exact .bind (adopt_cellular _) fun _ => .bind (release_cellular _) fun _ => .pure _
  | name => exact .bind (handleSlot_cellular _) fun _ => .bind (slot_cellular _) fun _ => .pure _
  | refcount => exact .bind (handleSlot_cellular _) fun _ => .bind (sharing_cellular _) fun _ => .pure _
  | sameAs => exact .bind (handleSlot_cellular _) fun _ => .bind (handleSlot_cellular _) fun _ => .pure _
  | read | isBound | debug => exact absurd trivial hl
  | readOwned => exact absurd trivial hr
  | assign | clear | take | assignBorrowed => exact absurd trivial hc

/-- A call is noted while it is in progress. -/
theorem nativeCall_cellular (h : S.calls) {a : Action α} (ha : Cellular S a) :
    Cellular S (nativeCall a) := by
  have hdepth : ∀ f : Nat → Nat,
      Cellular S (inThread fun t => { t with nativeDepth := f t.nativeDepth }) := fun f =>
    .aside (fun _ => rfl) (fun s => h s (f s.thread.nativeDepth) s.thread.lastError)
      (fun _ => rfl) (fun _ _ _ => rfl) (.inr fun _ _ => rfl)
  exact .bind (hdepth (· + 1)) fun _ => .tried ha fun _ hr =>
    .bind (hdepth (· - 1)) fun _ => .ofExcept hr

/-! ## Making cells -/

theorem takeInitial_cellular : ∀ claim : Option String, Cellular S (takeInitial claim)
  | some _ => .bind (takeClaim_cellular _) fun _ => .pure _
  | none => .pure _

theorem produceInitial_cellular (fault : Option Cause) : Cellular S (produceInitial fault) :=
  .bind (produce_cellular (fun c => .cell (.objectRuntime c)) (fun _ => nofun) _) fun _ => .pure _

theorem adoptBorrowed_cellular (hg : S.gains) (name : String) (o : ObjectId) :
    Cellular S (adoptBorrowed name o) :=
  .bind (acquire_cellular hg _) fun _ => makeOwn_cellular _ _ _

theorem make_cellular {how : Making} (hg : how.Acquires → S.gains) : Cellular S (make how) := by
  cases how with
  | plain | parameter => exact .bind (takeInitial_cellular _) fun _ => makeOwn_cellular _ _ _
  | plainTry => exact .bind (produceInitial_cellular _) fun _ => makeOwn_cellular _ _ _
  | parameterBorrowed =>
    exact .bind (requireKnown_cellular _) fun _ => adoptBorrowed_cellular (hg trivial) _ _
  | parameterAdopt name o mode =>
    have heq : make (.parameterAdopt name o mode) = decoded OwnershipMode.decoder (.value mode) >>=
        fun m => requireKnown o >>= fun _ => adoptArgument name o m := rfl
    rw [heq, decoded]
    cases hmode : OwnershipMode.decoder.decode (.value mode) with
    | error f => exact Cellular.fail (.document f) fun h => by cases h
    | ok mode =>
      refine .bind (a := requireKnown o) (requireKnown_cellular _) fun _ => ?_
      cases mode with
      | owned => exact .bind (adopt_cellular _) fun _ => makeOwn_cellular _ _ _
      | borrowed => exact adoptBorrowed_cellular (hg hmode) _ _
  | temporary => exact makeOwn_cellular _ _ _
  | shared => exact .bind (takeInitial_cellular _) fun _ => makeShared_cellular _ _ _
  | sharedTry => exact .bind (produceInitial_cellular _) fun _ => makeShared_cellular _ _ _

/-! ## Looking at cells -/

/-- What is done with a cell whose key was found. -/
def usePart (bound : Bool) (verb : Verb) (id : KeptId) (whole : Cell) : Action Answer := do
  let c := whole.via bound
  match verb with
  | .name => return .text (← looking id (slot c.slot)).name
  | .state => return .text (stateText (← looking id (look c)))
  | .isBound => return .flag (← looking id (look c)).value.isSome
  | .read => return .object (← looking id (read c))
  | .readOwned new => looking id do
    let claim ← readOwned c
    keepClaim new claim.object
    return .object claim.object
  | .assign claim => changing id do
    assign c (← takeClaim claim)
    return .nothing
  | .assignBorrowed o => changing id do
    requireKnown o
    assignBorrowed c o
    return .nothing
  | .clear => do
    let cleared ← changing id (clear c)
    return match c with
      | .own .temporary _ => .flag cleared
      | _ => .nothing
  | .take new => changing id do
    let claim ← take c
    keepClaim new claim.object
    return .object claim.object
  | .debug => return .text (← looking id (debugText c bound))
  | .refcount => do
    let handles := (← sharing (← sharedSlot c)).handles
    return if bound then .bound handles true else .count handles
  | .sameAs other => do
    return .flag ((← sharedSlot c) = (← sharedSlot (← cell other)))
  | .retain new => do
    keepCell new (← retain (← sharedSlot c)) (some id)
    return .nothing

theorem useCell_eq (key : String) (bound : Bool) (verb : Verb) :
    useCell key bound verb = withCell key (usePart bound verb) := rfl

theorem sharedSlot_cellular : ∀ c : Cell, Cellular S (sharedSlot c)
  | .handle .. => .pure _
  | .own .. => .fail _ nofun

theorem innerCell_cellular (c : Cell) : Cellular S (innerCell c) := by
  unfold innerCell
  split
  · exact .pure _
  · exact .fail _ nofun

theorem viewCell_cellular (hl : ∀ id, S.looks id) (k : Kept) : Cellular S (viewCell k) := by
  refine .ite (.pure _) ?_
  split
  · exact .bind (slot_cellular _) fun _ => .pure _
  · next id a hc =>
    rw [hc]
    exact .bind (look_cellular (hl id)) fun _ => .bind (sharing_cellular _) fun _ => .pure _

/-! ## Kept cells -/

theorem keptId_cellular (key : String) : Cellular S (keptId key) :=
  .lookThread (fun _ _ _ => rfl) fun _ => .demand .noSuchCell nofun _

section Keys

variable (h : S.keys)

include h

/-- Looking at kept cells. -/
theorem Cellular.lookKept {k : Thread → Action α}
    (hr : ∀ W s, k (State.disguise id W s).thread = k s.thread) (hk : ∀ t, Cellular S (k t)) :
    Cellular S (thread >>= k) :=
  .read (k := fun s => k s.thread) (.inr fun K W s hK => by rw [hK h]; exact hr W s) (.inr fun _ _ => rfl)
    fun s => hk s.thread

omit h in
/-- Looking at all that is kept. -/
theorem Cellular.lookAll (hd : S.dumps) {k : Thread → Action α} (hk : ∀ t, Cellular S (k t)) :
    Cellular S (thread >>= k) :=
  .read (k := fun s => k s.thread) (.inl hd) (.inr fun _ _ => rfl) fun s => hk s.thread

theorem kept_cellular (id : KeptId) : Cellular S (kept id) :=
  .lookKept h (fun _ _ => rfl) fun _ => .demand .noSuchCell nofun _

theorem setKept_cellular (id : KeptId) (f : Kept → Kept) : Cellular S (setKept id f) :=
  .keep h (fun _ => rfl) fun _ _ => rfl

theorem cell_cellular (key : String) : Cellular S (cell key) :=
  .bind (keptId_cellular key) fun _ => .bind (kept_cellular h _) fun _ => .pure _

theorem abandon_cellular (id : KeptId) : Cellular S (abandon id) :=
  .bind (kept_cellular h id) fun _ =>
    .ite (.bind (.keep h (fun _ => rfl) fun _ _ => rfl) fun _ => destroy_cellular _) (.pure _)

theorem keepCell_cellular (key : String) (c : Cell) (parent : Option KeptId) :
    Cellular S (keepCell key c parent) := by
  refine .bind .fresh fun id => .lookThread (fun _ _ _ => rfl) fun t =>
    .bind (.keep h (fun _ => rfl) fun _ _ => rfl) fun _ =>
    .bind (.note trivial (.inr trivial)) fun _ => ?_
  split
  · exact abandon_cellular h _
  · exact .pure _

theorem takeCell_cellular (key : String) : Cellular S (takeCell key) :=
  .bind (keptId_cellular key) fun _ => .bind (kept_cellular h _) fun _ =>
    .ite (.bind (.fail _ nofun) fun _ => .bind (.keep h (fun _ => rfl) fun _ _ => rfl) fun _ => .pure _)
      (.bind (.keep h (fun _ => rfl) fun _ _ => rfl) fun _ => .pure _)

theorem leave_cellular (id : KeptId) : Cellular S (leave id) :=
  .bind (setKept_cellular h id _) fun _ => .lookThread (fun _ _ _ => rfl) fun _ =>
    .ite (abandon_cellular h id) (.pure _)

/-- An action while a kept cell is in use. -/
theorem using_cellular {a : Action α} (id : KeptId) (ha : Cellular S a) : Cellular S (do
    setKept id fun k => { k with users := k.users + 1 }
    conclude (← attempt (unwinding a)) (leave id)) :=
  .bind (setKept_cellular h _ _) fun _ => .tried (unwinding_cellular ha) fun _ hr =>
    conclude_cellular hr (leave_cellular h _)

/-- An action while something is noted of a kept cell. -/
theorem flagging_cellular {a : Action α} (id : KeptId) (f g : Kept → Kept) (ha : Cellular S a) :
    Cellular S (do
      setKept id f
      let result ← attempt (unwinding a)
      setKept id g
      ofExcept result) :=
  .bind (setKept_cellular h id f) fun _ => .tried (unwinding_cellular ha) fun _ hr =>
    .bind (setKept_cellular h id g) fun _ => .ofExcept hr

theorem looking_cellular {a : Action α} (id : KeptId) (ha : Cellular S a) :
    Cellular S (looking id a) :=
  .bind (kept_cellular h id) fun _ => .ite (.bind (.fail _ nofun) fun _ => flagging_cellular h id _ _ ha)
    (flagging_cellular h id _ _ ha)

theorem changing_cellular {a : Action α} (id : KeptId) (ha : Cellular S a) :
    Cellular S (changing id a) := by
  refine .bind (kept_cellular h id) fun k => ?_
  split
  · exact looking_cellular h id ha
  · exact .ite (.bind (.fail _ nofun) fun _ => flagging_cellular h id _ _ ha)
      (flagging_cellular h id _ _ ha)

/-! ## Operations on cells -/

theorem dump_cellular (hd : S.dumps) (hl : ∀ id, S.looks id) : Cellular S dump :=
  .lookAll hd fun _ => .bind (.mapM (fun _ => .bind (kept_cellular h _) fun _ =>
    .bind (viewCell_cellular hl _) fun _ => .pure _) _) fun _ => .pure _

/-- The use of a kept cell. -/
theorem usePart_cellular (bound : Bool) {verb : Verb} (id : KeptId) {whole : Cell}
    (hg : verb.Acquires → S.gains) (hr : verb.ReadsOwned → S.Reads whole)
    (hl : verb.Looks → S.LooksAt whole) (hc : verb.Changes → S.Changes whole) :
    Cellular S (usePart bound verb id whole) := by
  have hr' : verb.ReadsOwned → S.Reads (whole.via bound) := fun h => S.reads_via.2 (hr h)
  have hl' : verb.Looks → S.LooksAt (whole.via bound) := fun h => S.looksAt_via.2 (hl h)
  have hc' : verb.Changes → S.Changes (whole.via bound) := fun h => S.changes_via.2 (hc h)
  unfold usePart
  cases verb with
  | name => exact .bind (looking_cellular h id (slot_cellular _)) fun _ => .pure _
  | state | isBound =>
    exact .bind (looking_cellular h id (look_cellular (hl' trivial))) fun _ => .pure _
  | read => exact .bind (looking_cellular h id (read_cellular (hl' trivial))) fun _ => .pure _
  | readOwned new =>
    exact looking_cellular h id <| .bind (readOwned_cellular (hr' trivial)) fun _ =>
      .bind (keepClaim_cellular _ _) fun _ => .pure _
  | assign claim =>
    exact changing_cellular h id <| .bind (takeClaim_cellular _) fun _ =>
      .bind (assign_cellular (hc' trivial) _) fun _ => .pure _
  | assignBorrowed o =>
    exact changing_cellular h id <| .bind (requireKnown_cellular _) fun _ =>
      .bind (assignBorrowed_cellular (hc' trivial) (hg trivial) _) fun _ => .pure _
  | clear =>
    exact .bind (changing_cellular h id (clear_cellular (hc' trivial))) fun _ => .pure _
  | take new =>
    exact changing_cellular h id <| .bind (take_cellular (hc' trivial)) fun _ =>
      .bind (keepClaim_cellular _ _) fun _ => .pure _
  | debug =>
    exact .bind (looking_cellular h id (debugText_cellular (hl' trivial) bound)) fun _ => .pure _
  | refcount =>
    exact .bind (sharedSlot_cellular _) fun _ => .bind (sharing_cellular _) fun _ => .pure _
  | sameAs other =>
    exact .bind (sharedSlot_cellular _) fun _ => .bind (cell_cellular h _) fun _ =>
      .bind (sharedSlot_cellular _) fun _ => .pure _
  | retain new =>
    exact .bind (sharedSlot_cellular _) fun _ => .bind (retain_cellular _) fun _ =>
      .bind (keepCell_cellular h _ _ _) fun _ => .pure _

/-- Operations on cells that are no uses. -/
theorem performCell_cellular {op : CellOp} (hg : (Op.cell op).Acquires → S.gains)
    (hop : ∀ key bound verb, op ≠ .use key bound verb) : Cellular S (performCell op) := by
  cases op with
  | make key how =>
    exact .bind (make_cellular hg) fun _ => .bind (keepCell_cellular h _ _ _)
      fun _ => .pure _
  | use key bound verb => exact absurd rfl (hop key bound verb)
  | drop key =>
    exact .bind (takeCell_cellular h key) fun _ => .bind (destroy_cellular _) fun _ => .pure _
  | release key =>
    exact .bind (cell_cellular h key) fun _ => .bind (sharedSlot_cellular _) fun _ =>
      .bind (takeCell_cellular h key) fun _ => .bind (releaseHandle_cellular _) fun _ => .pure _
  | intoInner key new =>
    exact .bind (cell_cellular h key) fun _ => .bind (innerCell_cellular _) fun _ =>
      .bind (takeCell_cellular h key) fun _ => .bind (keepCell_cellular h _ _ _) fun _ => .pure _

end Keys

/-! ## Counters and hooks -/

theorem performStats_cellular (h : S.counts) (op : StatsOp) : Cellular S (performStats op) := by
  have hset : ∀ c, Cellular S (inThread ({ · with stats := c })) := fun c =>
    .aside (fun _ => rfl) (fun s => h.1 s c s.thread.profiler) (fun _ => rfl) (fun _ _ _ => rfl)
      (.inr fun _ _ => rfl)
  refine .lookThread (fun _ _ _ => rfl) fun t => ?_
  cases op with
  | decode => exact .bind (.decoded _ _) fun _ => .bind (hset _) fun _ => .pure _
  | record => exact .bind (.checked _) fun _ => .bind (hset _) fun _ => .pure _
  | outstanding => exact .bind (.checked _) fun _ => .bind (.checked _) fun _ => .pure _
  | debug => exact .pure _

theorem tune_cellular (h : S.counts) (p : Profiler) : Cellular S (tune p) :=
  .outside (x := ()) (f := (·.tune p)) (fun _ => rfl) (fun s => h.2 s p) (fun _ => rfl)
    (fun _ => ⟨[.tuned p], rfl, by simp [Entry.Calm]⟩) (fun _ _ _ => rfl) (.inr fun _ _ => rfl)

theorem setProfiler_cellular (h : S.counts) (own : Bool) (p : Profiler) :
    Cellular S (setProfiler own p) := by
  cases own with
  | true =>
    exact .aside (fun _ => rfl) (fun s => h.1 s s.thread.stats p) (fun _ => rfl)
      (fun _ _ _ => rfl) (.inr fun _ _ => rfl)
  | false => exact tune_cellular h p

theorem report_cellular (p : Profiler) : Cellular S (report p) :=
  .forM (fun _ => .bind (.checked _) fun _ => .emit (e := .summary _ _ _) (fun _ => trivial) (.inr rfl)) _

theorem performProfiler_cellular (h : S.counts) (own : Bool) (op : ProfilerOp) :
    Cellular S (performProfiler own op) := by
  have hprofiler : Cellular S (profiler own) := by
    unfold profiler
    split
    · exact .lookThread (fun _ _ _ => rfl) fun _ => .pure _
    · exact .look (fun _ _ _ => rfl) (fun _ _ => rfl) fun _ => .pure _
  refine .bind hprofiler fun p => ?_
  cases op with
  | make | enable | disable | reset =>
    exact .bind (setProfiler_cellular h _ _) fun _ => .pure _
  | record => exact .bind (setProfiler_cellular h _ _) fun _ => .ite (.pure _) (.raise nofun)
  | report => exact .bind (report_cellular _) fun _ => .pure _
  | kind => exact .pure _
  | stats => exact .bind (.checked _) fun _ => .pure _

theorem hook_cellular {g : Signal} {body : Script} (h : ∀ s, S.outer s (s.setHook g body)) :
    Cellular S (perform (.hook g body)) := by
  refine .bind (.aside (x := ()) (f := (·.setHook g body)) (fun _ => rfl) h (fun s => ?_)
    (fun K W s => ?_) (.inr fun b s => ?_)) fun _ => .pure _ <;> unfold State.setHook <;> split <;> rfl

/-! ## Setting up -/

section Setup

variable (h : S.SetsUp)

include h

/-- Looking at the build. -/
theorem Cellular.lookBuild {k : State → Action α} (hr : ∀ K W s, k (s.disguise K W) = k s)
    (hk : ∀ s, Cellular S (k s)) : Cellular S (get >>= k) :=
  .read (.inr fun K W s _ => hr K W s) (.inl h.setup) hk

/-- A change of settings. -/
theorem Cellular.settle {a : Action α} {x : α} {f : State → State} (ha : ∀ s, a s = .done x (f s))
    (hf : ∀ s, ((f s).unsettled, (f s).keeping) = (s.unsettled, s.keeping))
    (hj : ∀ s, ∃ es, (f s).journal = es ++ s.journal ∧ ∀ e ∈ es, e.Calm S.gains)
    (hr : ∀ K W s, f (s.disguise K W) = (f s).disguise K W) : Cellular S a :=
  .outside ha (fun s => h.outer s (f s) (congrArg Prod.fst (hf s)))
    (fun s => Prod.ext (congrArg (fun u => u.1.slots) (hf s) :) (congrArg (fun u => u.2) (hf s) :))
    hj hr (.inl h.setup)

/-- A change of settings of which the journal does not tell. -/
theorem Cellular.put {a : Action α} {x : α} {f : State → State} (ha : ∀ s, a s = .done x (f s))
    (hf : ∀ s, ((f s).unsettled, (f s).keeping, (f s).journal) = (s.unsettled, s.keeping, s.journal))
    (hr : ∀ K W s, f (s.disguise K W) = (f s).disguise K W) : Cellular S a :=
  .settle h ha (fun s => congrArg (fun u => (u.1, u.2.1)) (hf s))
    (fun s => ⟨[], congrArg (fun u => u.2.2) (hf s), by simp⟩) hr

theorem processSettings_cellular : Cellular S processSettings := by
  have hload : Cellular S loadSettings := by
    refine .lookBuild h (fun _ _ _ => rfl) fun s => ?_
    dsimp only
    split
    · exact .pure _
    · exact .bind (.emit (fun _ => trivial) (.inr rfl)) fun _ => .pure _
  refine .look (fun _ _ _ => rfl) (fun _ _ => rfl) fun s => ?_
  split
  · exact .pure _
  · exact .bind hload fun c => .bind (.put h (fun _ => rfl) (fun _ => rfl) fun _ _ _ => rfl)
      fun _ => .pure _

theorem setProcessSettings_cellular (c : Settings) : Cellular S (setProcessSettings c) :=
  .bind (processSettings_cellular h) fun _ =>
    .put h (fun _ => rfl) (fun _ => rfl) fun _ _ _ => rfl

omit h in
theorem environment_cellular : Cellular S environment :=
  .look (fun _ _ _ => rfl) (fun _ _ => rfl) fun _ => .pure _

omit h in
theorem ofSettings_cellular : ∀ r : Except SettingsError α, Cellular S (ofSettings r)
  | .ok a => .pure a
  | .error _ => .fail _ nofun

theorem applySettings_cellular (c : Settings) : Cellular S (applySettings c) :=
  .settle h (x := ()) (f := (·.configure c)) (fun _ => rfl) (fun _ => rfl)
    (fun _ => ⟨[_, _], rfl, by simp [Entry.Calm, Event.givesUp]⟩) fun _ _ _ => rfl

theorem initSettings_cellular (c : Settings) : Cellular S (initSettings c) :=
  .lookBuild h (fun _ _ _ => rfl) fun _ => .bind (ofSettings_cellular _) fun _ =>
    .bind (setProcessSettings_cellular h c) fun _ => applySettings_cellular h c

theorem initFromEnvironment_cellular : Cellular S initFromEnvironment :=
  .bind (processSettings_cellular h) fun _ => .bind environment_cellular fun _ =>
    initSettings_cellular h _

theorem initLogging_cellular (fallback : String) : Cellular S (initLogging fallback) := by
  refine .put h (x := ()) (f := fun s => { s with
      filter := some (s.filter.getD (Filter.choose (s.lookup "RUST_LOG") fallback)) })
    (fun s => ?_) (fun _ => rfl) fun _ _ _ => rfl
  simp only [initLogging, bind_apply, get_apply, done_bind, ite_apply]
  cases hf : s.filter with
  | none => rfl
  | some f =>
    show Act.done () s = .done () { s with filter := some f }
    rw [← hf]

theorem startUp_cellular : Cellular S startUp :=
  .bind (initLogging_cellular h _) fun _ => .bind (initFromEnvironment_cellular h) fun _ =>
    .lookBuild h (fun _ _ _ => rfl) fun _ => .emit (fun _ => trivial) (.inr rfl)

theorem startWith_cellular (c : Settings) : Cellular S (startWith c) :=
  .bind (initLogging_cellular h _) fun _ => initSettings_cellular h c

theorem shutDown_cellular : Cellular S shutDown := by
  refine .bind (processSettings_cellular h) fun c => ?_
  dsimp only
  split
  · exact .look (fun _ _ _ => rfl) (fun _ _ => rfl) fun s => .bind (report_cellular _) fun _ =>
      .bind (.checked _) fun _ => .forM (fun _ => .emit (e := .leaking _ _) (fun _ => trivial) (.inr rfl)) _
  · exact .pure _

theorem performSettings_cellular (op : SettingsOp) : Cellular S (performSettings op) := by
  have hset : ∀ c, Cellular S (setSettings c) := fun c =>
    .bind (.put h (fun _ => rfl) (fun _ => rfl) fun _ _ _ => rfl) fun _ => .pure _
  refine .lookThread (fun _ _ _ => rfl) fun t => .lookBuild h (fun _ _ _ => rfl) fun s => ?_
  cases op with
  | default | lookup | merge => exact hset _
  | fromEnvironment | mergeEnvironment => exact .bind environment_cellular fun _ => hset _
  | decode => exact .bind (.decoded _ _) fun _ => hset _
  | load => exact .bind (ofSettings_cellular _) fun _ => hset _
  | json | debug => exact .pure _
  | eq => exact .bind (.decoded _ _) fun _ => .pure _
  | validate => exact .bind (ofSettings_cellular _) fun _ => .pure _
  | apply =>
    exact .bind (applySettings_cellular h _) fun _ =>
      .look (fun _ _ _ => rfl) (fun _ _ => rfl) fun _ => .pure _
  | init => exact .bind (initSettings_cellular h _) fun _ => .pure _
  | initWith => exact .bind (startWith_cellular h _) fun _ => .pure _
  | save => exact .bind (ofSettings_cellular _) fun _ => .pure _

theorem performManager_cellular (ofProcess : Bool) (op : ManagerOp) :
    Cellular S (performManager ofProcess op) := by
  have hget : Cellular S (managed ofProcess) :=
    .ite (processSettings_cellular h) (.lookThread (fun _ _ _ => rfl) fun _ => .pure _)
  have hset : ∀ b c, Cellular S (setManaged b c) := fun b c =>
    .ite (setProcessSettings_cellular h c)
      (.put h (fun _ => rfl) (fun _ => rfl) fun _ _ _ => rfl)
  cases op with
  | new => exact .bind (hset _ _) fun _ => .pure _
  | init =>
    exact .bind hget fun _ => .lookBuild h (fun _ _ _ => rfl) fun _ =>
      .bind (ofSettings_cellular _) fun _ => .bind (hset _ _) fun _ => .pure _
  | get | profiling => exact .bind hget fun _ => .pure _
  | update =>
    exact .bind hget fun _ => .bind (.decoded _ _) fun _ => .bind (hset _ _) fun _ => .pure _

theorem performProcess_cellular (op : ProcessOp) : Cellular S (performProcess op) := by
  cases op with
  | init => exact .bind (startUp_cellular h) fun _ => .pure _
  | initFromEnvironment => exact .bind (initFromEnvironment_cellular h) fun _ => .pure _
  | initLogging => exact .bind (initLogging_cellular h _) fun _ => .pure _
  | shutdown => exact .bind (shutDown_cellular h) fun _ => .pure _
  | setEnvironment =>
    exact .bind (.put h (fun _ => rfl) (fun _ => rfl) fun _ _ _ => rfl) fun _ => .pure _
  | parseMode =>
    unfold performProcess
    dsimp only
    split
    · exact .pure _
    · exact .fail _ nofun
  | activeMode => exact .lookBuild h (fun _ _ _ => rfl) fun _ => .pure _
  | decode type source => cases type <;> exact .bind (.decoded _ _) fun _ => .pure _

theorem install_cellular (f : Functions) : Cellular S (install f) := by
  refine .look (fun _ _ _ => rfl) (fun _ _ => rfl) fun s => ?_
  split
  · exact .pure _
  · refine .tried (initFromEnvironment_cellular h) fun r hr => ?_
    split
    · exact .bind (.put h (fun _ => rfl) (fun _ => rfl) fun _ _ _ => rfl) fun _ => .pure _
    · exact .violate _
    · exact .fail _ (hr _ rfl)

theorem performInstall_cellular (hcalls : S.calls) (f g : Library) :
    Cellular S (performNative (.install f g)) :=
  nativeCall_cellular hcalls (.bind (install_cellular h _) fun _ => .pure _)

end Setup

/-! ## All operations -/

/-- In these states the action is a cellular one. -/
def Cellular.In (S : Scope) (a : Action α) (P : State → Prop) : Prop :=
  ∃ b, (∀ u, P u → a u = b u) ∧ Cellular S b

/-- In this state, and wherever keys stand for the same cells, the action is a cellular one. -/
abbrev Cellular.At (S : Scope) (a : Action α) (s : State) : Prop :=
  Cellular.In S a s.KeyedAs

namespace Cellular.In

variable {β : Type} {s : State} {a : Action α} {P Q : State → Prop}

theorem of (h : Cellular S a) : Cellular.In S a P :=
  ⟨a, fun _ _ => rfl, h⟩

theorem mono (h : Cellular.In S a P) (hPQ : ∀ u, Q u → P u) : Cellular.In S a Q := by
  obtain ⟨b, hb, hcell⟩ := h
  exact ⟨b, fun u hu => hb u (hPQ u hu), hcell⟩

theorem bind {x : α} {k : α → Action β} (ha : ∀ u, P u → a u = .done x u)
    (hk : Cellular.In S (k x) P) : Cellular.In S (a >>= k) P := by
  obtain ⟨b, hb, hcell⟩ := hk
  exact ⟨b, fun u hu => by rw [bind_apply, ha u hu, done_bind, hb u hu], hcell⟩

/-- What comes after a failure is not done. -/
theorem fail {f : Failure} (hf : S.Admits f) {k : α → Action β}
    (ha : ∀ u, P u → a u = .fail f u) : Cellular.In S (a >>= k) P :=
  ⟨Action.fail f, fun u hu => by rw [bind_apply, ha u hu]; rfl, .fail f hf⟩

theorem handle {key : String} {k : Cell → Action β}
    (hk : ∀ c, s.behind (some key) = some c → Cellular.In S (k c) s.HandledAs) :
    Cellular.In S (Action.handle key >>= k) s.HandledAs := by
  have hkeyed : ∀ u, s.HandledAs u → u.handleKeys = s.handleKeys ∧ u.handles = s.handles :=
    fun u hu => Prod.mk.inj hu
  cases hi : s.handleKeys.get? key with
  | none =>
    refine fail (f := .noSuchHandle) nofun fun u hu => ?_
    rw [← (hkeyed u hu).1] at hi
    simp [Action.handle, handleId_none hi]
  | some i =>
    cases hc : s.handles.get? i with
    | none =>
      refine fail (f := .noSuchHandle) nofun fun u hu => ?_
      rw [← (hkeyed u hu).1] at hi
      rw [← (hkeyed u hu).2] at hc
      simp [Action.handle, handleId_some hi, hc]
    | some c =>
      refine bind (fun u hu => ?_)
        (hk c (by rw [State.behind, Option.bind_some, hi, Option.bind_some, hc]))
      rw [← (hkeyed u hu).1] at hi
      rw [← (hkeyed u hu).2] at hc
      simp [Action.handle, handleId_some hi, hc]

theorem handleOrNull {h : Option String} {k : Cell → Action β}
    (hk : ∀ c, s.behind h = some c → Cellular.In S (k c) s.HandledAs) :
    Cellular.In S (Action.handleOrNull h >>= k) s.HandledAs := by
  cases h with
  | none => exact ⟨Action.violate .nullHandle, fun _ _ => violate_bind _ _ _, .violate _⟩
  | some key => exact handle hk

theorem someHandle {h : Option String} {k : Cell → Action β}
    (hk : ∀ c, s.behind h = some c → Cellular.In S (k c) s.HandledAs) :
    Cellular.In S (Action.someHandle h >>= k) s.HandledAs := by
  cases h with
  | none => exact fail (f := .noSuchHandle) nofun fun _ _ => rfl
  | some key => exact handle hk

end Cellular.In

/-- A call looks at, and changes, the variable behind its own handle alone. -/
theorem callNative_at {s : State} {op : NativeOp} (hg : op.Acquires → S.gains) (ho : S.calls)
    (hr : op.ReadsOwned → ∀ c, op.handle?.bind s.behind = some c → S.Reads c)
    (hl : op.Looks → ∀ c, op.handle?.bind s.behind = some c → S.LooksAt c)
    (hc : op.Changes → ∀ c, op.handle?.bind s.behind = some c → S.Changes c)
    (hop : ∀ f g, op ≠ .install f g) : Cellular.In S (callNative op) s.HandledAs := by
  cases op with
  | isBound h =>
    exact .handleOrNull fun c hb => .of (.bind (look_cellular (hl trivial c hb)) fun _ => .pure _)
  | read h =>
    exact .handleOrNull fun c hb => .of (.bind (orLastError_cellular ho
      (read_cellular (hl trivial c hb))) fun _ => .pure _)
  | debug h =>
    exact .someHandle fun c hb => .of (.bind (debugText_cellular (hl trivial c hb) _)
      fun _ => .pure _)
  | readOwned h =>
    exact .someHandle fun c hb => .of (handOver_cellular (readOwned_cellular (hr trivial c hb)))
  | clear h =>
    exact .handleOrNull fun c hb => .of (.bind (orLastError_cellular ho
      (clear_cellular (hc trivial c hb))) fun _ => .pure _)
  | take h =>
    exact .someHandle fun c hb => .of (handOver_cellular (take_cellular (hc trivial c hb)))
  | assignBorrowed h o =>
    exact .someHandle fun c hb => .of (.bind (assignBorrowed_cellular (hc trivial c hb)
      (hg trivial) o) fun _ => .pure _)
  | assign h o =>
    have hrest : Cellular.In S (if o = 0 then violate .nullAssignment else
        Action.handleOrNull h >>= fun c => adopt ⟨.native, o⟩ >>= fun _ => assign c o >>= fun _ =>
          pure Answer.nothing) s.HandledAs := by
      split
      · exact .of (.violate _)
      · exact .handleOrNull fun c hb => .of (.bind (adopt_cellular _) fun _ =>
          .bind (assign_cellular (hc trivial c hb) o) fun _ => .pure _)
    rw [callNative_assign]
    cases h with
    | none => exact .bind (fun _ _ => rfl) hrest
    | some key =>
      have hd : discard (Action.handle key) = Action.handle key >>= fun _ => pure () := rfl
      simp only [hd, bind_assoc, pure_bind]
      exact .handle fun _ _ => hrest
  | _ => exact .of (callNative_cellular hg ho id id id hop)

/-- Other operations than those on kept cells look at no kept cell. -/
theorem perform_apart {s : State} {op : Op} (hop : ¬ op.OnKept) (hcalls : S.calls)
    (hcounts : op.Counts → S.counts) (hsetup : op.SetsUp → S.SetsUp)
    (hhooks : ∀ g body, op = .hook g body → ∀ s, S.outer s (s.setHook g body))
    (hg : op.Acquires → S.gains)
    (hr : op.ReadsOwned → ∀ c, op.cell? s = some c → S.Reads c)
    (hl : op.Looks → ∀ c, op.cell? s = some c → S.LooksAt c)
    (hc : op.Changes → ∀ c, op.cell? s = some c → S.Changes c) :
    Cellular.In S (perform op) s.HandledAs := by
  cases op with
  | object op => exact .of (performObject_cellular hg)
  | cell | dump => exact absurd trivial hop
  | settings op => exact .of (performSettings_cellular (hsetup trivial) op)
  | manager ofProcess op => exact .of (performManager_cellular (hsetup trivial) ofProcess op)
  | process op => exact .of (performProcess_cellular (hsetup trivial) op)
  | stats op => exact .of (performStats_cellular (hcounts trivial) op)
  | profiler own op => exact .of (performProfiler_cellular (hcounts trivial) own op)
  | native op =>
    by_cases hop : ∃ f g, op = .install f g
    · obtain ⟨f, g, rfl⟩ := hop
      exact .of (performInstall_cellular (hsetup trivial) hcalls f g)
    · obtain ⟨b, hb, hcell⟩ := callNative_at (s := s.calling) hg hcalls hr hl hc
        fun f g h => hop ⟨f, g, h⟩
      exact ⟨nativeCall b, fun u hu => by
          simp only [perform, performNative, nativeCall_apply, hb u.calling hu],
        nativeCall_cellular hcalls hcell⟩
  | hook g body => exact .of (hook_cellular (hhooks g body rfl))
  | thread => exact .of (.pure _)

section Operations

variable {s : State} {op : Op} (hkeys : S.keys)

include hkeys

/-- A use looks at, and changes, the variable of its own cell alone. -/
theorem useCell_at {key : String} {bound : Bool} {verb : Verb} (hg : verb.Acquires → S.gains)
    (hr : verb.ReadsOwned → ∀ c, s.cellOf key = some c → S.Reads c)
    (hl : verb.Looks → ∀ c, s.cellOf key = some c → S.LooksAt c)
    (hc : verb.Changes → ∀ c, s.cellOf key = some c → S.Changes c) :
    Cellular.At S (useCell key bound verb) s := by
  have hkeyed : ∀ u, s.KeyedAs u → u.thread.cells = s.thread.cells ∧ u.thread.kept = s.thread.kept :=
    fun u hu => ⟨(Prod.mk.inj (Prod.mk.inj (Prod.mk.inj hu).2).2).1,
      (Prod.mk.inj (Prod.mk.inj (Prod.mk.inj hu).2).2).2⟩
  rw [useCell_eq, withCell]
  cases hk : s.thread.cells.get? key with
  | none =>
    refine .fail (f := .noSuchCell) (by simp) fun u hu => ?_
    rw [← (hkeyed u hu).1] at hk
    exact keptId_none hk
  | some id =>
    refine .bind (fun u hu => by rw [← (hkeyed u hu).1] at hk; exact keptId_some hk) ?_
    cases he : s.thread.kept.get? id with
    | none =>
      refine .fail (f := .noSuchCell) (by simp) fun u hu => ?_
      rw [← (hkeyed u hu).2] at he
      simp [kept, he]
    | some e =>
      have hcell : s.cellOf key = some e.cell := by
        rw [State.cellOf, hk, Option.bind_some, he, Option.map_some]
      exact .bind (fun u hu => kept_some (by rwa [(hkeyed u hu).2])) (.of (using_cellular hkeys id (usePart_cellular hkeys bound id hg
        (fun h => hr h _ hcell) (fun h => hl h _ hcell) fun h => hc h _ hcell)))

/-- **All operations are cellular**, in a scope that is wide enough. An operation looks at the
variable of the cell that it is about, and changes that one alone. -/
theorem perform_at (hcalls : S.calls) (hcounts : op.Counts → S.counts)
    (hsetup : op.SetsUp → S.SetsUp)
    (hhooks : ∀ g body, op = .hook g body → ∀ s, S.outer s (s.setHook g body))
    (hg : op.Acquires → S.gains)
    (hr : op.ReadsOwned → ∀ c, op.cell? s = some c → S.Reads c)
    (hl : op.Looks → ∀ c, op.cell? s = some c → S.LooksAt c)
    (hc : op.Changes → ∀ c, op.cell? s = some c → S.Changes c)
    (hd : op = .dump → S.dumps ∧ ∀ id, S.looks id) : Cellular.At S (perform op) s := by
  cases op with
  | cell op =>
    by_cases hop : ∃ key bound verb, op = .use key bound verb
    · obtain ⟨key, bound, verb, rfl⟩ := hop
      exact useCell_at hkeys hg hr hl hc
    · exact .of (performCell_cellular hkeys hg fun key bound verb h =>
        hop ⟨key, bound, verb, h⟩)
  | dump => exact .of (dump_cellular hkeys (hd rfl).1 (hd rfl).2)
  | _ => exact (perform_apart id hcalls hcounts hsetup hhooks hg hr hl hc).mono fun _ h => h.handled

end Operations

section Wide

variable {outer : State → State → Prop}

theorem Scope.wide_looksAt (c : Cell) : (Scope.wide outer).LooksAt c := by
  cases c <;> trivial

theorem Scope.wide_reads (c : Cell) : (Scope.wide outer).Reads c := by
  cases c with
  | own => trivial
  | handle => exact ⟨trivial, trivial⟩

theorem Scope.wide_changes (c : Cell) : (Scope.wide outer).Changes c := by
  cases c <;> trivial

/-- All operations are cellular in a scope that says nothing but what may change around the cells. -/
theorem perform_wide {op : Op} (s : State) (hcalls : (Scope.wide outer).calls)
    (hcounts : (Scope.wide outer).counts) (hsetup : op.SetsUp → (Scope.wide outer).SetsUp)
    (hhooks : ∀ g body, op = .hook g body → ∀ s, outer s (s.setHook g body)) :
    Cellular.At (Scope.wide outer) (perform op) s :=
  perform_at trivial hcalls (fun _ => hcounts) hsetup hhooks (fun _ => trivial)
    (fun _ c _ => Scope.wide_reads c) (fun _ c _ => Scope.wide_looksAt c)
    (fun _ c _ => Scope.wide_changes c) fun _ => ⟨trivial, fun _ => trivial⟩

end Wide

/-- An operation that is broken off gives up what it has in its hands, and is cellular still. -/
theorem unwinding_in {a : Action α} {P : State → Prop} (h : Cellular.In S a P) :
    Cellular.In S (unwinding a) P := by
  obtain ⟨b, hb, hcell⟩ := h
  exact ⟨unwinding b, fun u hu => by
    simp only [unwinding, bind_apply, thread_apply, done_bind, attempt_apply, hb u hu],
    unwinding_cellular hcell⟩

theorem unwinding_at {a : Action α} {s : State} (h : Cellular.At S a s) :
    Cellular.At S (unwinding a) s :=
  unwinding_in h

end Action

end ClaimCells
