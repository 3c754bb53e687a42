import ClaimCells.Proofs.Settings

/-!
# Actions on cells and claims

An action is cellular when it is put together of small steps that concern cells, claims, handles and
counters. What such actions have in common is said once of the steps: they leave what is around the
cells as it is (`State.surroundings`), they do not look at the build, but to learn what a lock does,
and they do not look at what is noted of kept cells, at other threads, or at what happened before
(`State.disguise`). A variable changes in whole pieces (`Piece`): the change, the word about it and
the release of the claim that it gives up belong together.

`Scope` says which exceptions are made: actions that look at kept cells, actions that acquire claims,
actions that ask for locks, and actions that change what is around the cells after all.

Main results: the rules of `Cellular`, and `release_cellular`, `assign_cellular`, `clear_cellular`,
`take_cellular` and `destroy_cellular`.
-/

namespace ClaimCells

variable {α β : Type} {s s' t : State}

/-! ## Around the cells -/

/-- A state without its cells, claims, handles and counters, and without its journal. -/
def State.surroundings (s : State) : State :=
  { s with
    thread := { s.thread with
      ledger := {}, known := [], hands := [], claims := {}, cells := {}, kept := {} }
    slots := {}, sharing := {}, next := 0, handles := {}, handleKeys := {}
    profiler := { enabled := s.profiler.enabled }
    journal := [] }

/-- The kept cells, the kept claims and the locks. -/
def State.keeping (s : State) :=
  (s.thread.kept, s.thread.cells, s.next, s.sharing, s.thread.claims)

/-- What most actions do not look at, as something else. -/
structure Disguise where
  claims : Table String ObjectId → Table String ObjectId
  began : Nat → Nat
  waiting : List Thread → List Thread
  ended : List Thread → List Thread
  /-- What happened before all that the journal tells of. -/
  past : Journal

/-- Another state that looks the same to actions that do not look at kept cells and claims, at other
threads and at the journal. -/
def State.disguise (K : Table KeptId Kept → Table KeptId Kept) (W : Disguise) (s : State) : State :=
  { s with
    thread := { s.thread with
      kept := K s.thread.kept
      claims := W.claims s.thread.claims
      began := W.began s.thread.began }
    waiting := W.waiting s.waiting
    ended := W.ended s.ended
    journal := s.journal ++ W.past }

/-- The entry as another build would write it. -/
def Entry.onBuild (b : Build) : Entry → Entry
  | .event (.configured _ p) w => .event (.configured b.mode p) w
  | e => e

/-- The state of another build. -/
def State.onBuild (b : Build) (s : State) : State :=
  { s with build := b, journal := s.journal.map (·.onBuild b) }

/-- An installed function was called that is in effect; whether it may have been the one that
acquires. -/
def Entry.Backed (gains : Prop) (f : Option Functions) : Entry → Prop
  | .called lib .acquired _ => gains ∧ ∃ g, f = some g ∧ lib = g.acquire
  | .called lib .released _ => ∃ g, f = some g ∧ lib = g.release
  | .called _ .freed _ => False
  | _ => True

/-- And no counters are put in place. -/
structure Entry.Passes (gains : Prop) (f : Option Functions) (e : Entry) : Prop where
  backed : e.Backed gains f
  untuned : ∀ p, e ≠ .tuned p

/-- Entries that tell of no call and no counters, and nothing of the build. -/
def Entry.Inert : Entry → Prop
  | .called .. | .tuned _ | .event (.configured ..) _ => False
  | _ => True

theorem Entry.Inert.passes {e : Entry} {gains : Prop} (h : e.Inert) (f : Option Functions) :
    e.Passes gains f := by
  cases e with
  | called | tuned => exact h.elim
  | _ => exact ⟨trivial, nofun⟩

theorem Entry.Inert.onBuild {e : Entry} {b : Build} (h : e.Inert) : e.onBuild b = e := by
  cases e with
  | event e w =>
    cases e with
    | configured => exact h.elim
    | _ => rfl
  | _ => rfl

/-- Nothing changes around the cells. -/
structure Beside (gains : Prop) (s s' : State) : Prop where
  surroundings : s'.surroundings = s.surroundings
  journal : ∃ es, s'.journal = es ++ s.journal ∧ ∀ e ∈ es, e.Passes gains s.functions

namespace Beside

variable {gains : Prop}

theorem refl (s : State) : Beside gains s s :=
  ⟨rfl, [], rfl, List.forall_mem_nil _⟩

theorem functions (h : Beside gains s s') : s'.functions = s.functions :=
  (congrArg State.functions h.surroundings :)

theorem trans (h : Beside gains s s') (h' : Beside gains s' t) : Beside gains s t := by
  obtain ⟨es, hj, hes⟩ := h.journal
  obtain ⟨es', hj', hes'⟩ := h'.journal
  refine ⟨h'.surroundings.trans h.surroundings, es' ++ es, ?_, fun e he => ?_⟩
  · rw [hj', hj, List.append_assoc]
  · rw [h.functions] at hes'
    exact (List.mem_append.1 he).elim (hes' e) (hes e)

theorem silent (h : s'.surroundings = s.surroundings) (hj : s'.journal = s.journal) :
    Beside gains s s' :=
  ⟨h, [], hj, List.forall_mem_nil _⟩

theorem noting {e : Entry} (h : s'.surroundings = s.surroundings) (hj : s'.journal = e :: s.journal)
    (he : e.Passes gains s.functions) : Beside gains s s' :=
  ⟨h, [e], hj, fun _ h => List.mem_singleton.1 h ▸ he⟩

theorem note (s : State) {e : Entry} (he : e.Inert) : Beside gains s (s.note e) :=
  .noting rfl rfl (he.passes _)

end Beside

/-! ## What concerns no variable -/

/-- The event tells that a variable gives up its claim. -/
def Event.givesUp : Event → Bool
  | .assigned _ _ rebound => rebound
  | .unbound _ _ reason => reason = .release
  | .destroyedBound .. => true
  | _ => false

/-- Deeds that concern no slot. -/
def Deed.apart : Deed → Bool
  | .made .. | .set .. | .ended _ => false
  | _ => true

/-- Entries that tell neither of a variable nor, unless that is allowed, of a claim that is
acquired. -/
def Entry.Calm (gains : Prop) : Entry → Prop
  | .acquired _ | .called _ .acquired _ => gains
  | .did d => d.apart = true
  | .event e _ => e.givesUp = false
  | _ => True

/-- Nothing is done to a variable. -/
structure Calm (gains : Prop) (s s' : State) : Prop where
  slots : s'.slots = s.slots
  journal : ∃ es, s'.journal = es ++ s.journal ∧ ∀ e ∈ es, e.Calm gains

theorem Calm.silent {gains : Prop} (h : s'.slots = s.slots) (hj : s'.journal = s.journal) :
    Calm gains s s' :=
  ⟨h, [], hj, by simp⟩

theorem Calm.noting {gains : Prop} {e : Entry} (h : s'.slots = s.slots)
    (hj : s'.journal = e :: s.journal) (he : e.Calm gains) : Calm gains s s' :=
  ⟨h, [e], hj, fun _ h => List.mem_singleton.1 h ▸ he⟩

/-! ## Cellular actions -/

/-- What actions may do besides. -/
structure Scope where
  /-- Look at kept cells, and change what is noted of them. -/
  keys : Prop
  /-- Acquire claims. -/
  gains : Prop
  /-- Hold the lock of a cell for a time. -/
  reads : Prop
  /-- Ask for the lock of a cell to look at it. -/
  looks : SlotId → Prop
  /-- Ask for the lock of a cell to change it. -/
  changes : SlotId → Prop
  /-- Change a variable without asking. -/
  writes : SlotId → Prop
  /-- Break off because a lock is held. -/
  refuses : Prop
  /-- Change a variable in less than a whole piece. -/
  loose : Prop
  /-- Look at all that is kept at once. -/
  dumps : Prop
  /-- Look at the build, to learn what settings it serves. -/
  setup : Prop
  /-- Change what is around the cells, from one state to the other. -/
  outer : State → State → Prop

/-- The failure does not come from a lock, unless that is allowed. -/
abbrev Scope.Admits (S : Scope) (f : Failure) : Prop :=
  f = .panic .relocked → S.refuses

/-- The same, of a panic. -/
abbrev Scope.AdmitsPanic (S : Scope) (p : Panic) : Prop :=
  p = .relocked → S.refuses

/-- And of a result. -/
abbrev Scope.AdmitsResult (S : Scope) (r : Except Failure α) : Prop :=
  ∀ f, r = .error f → S.Admits f

/-- The scope with other variables that may be changed without asking. -/
def Scope.writing (S : Scope) (w : SlotId → Prop) : Scope :=
  { S with writes := w }

/-- The scope with claims that may be acquired. -/
def Scope.gaining (S : Scope) : Scope :=
  { S with gains := True }

/-- The scope in which a piece is put together. -/
def Scope.loosened (S : Scope) : Scope :=
  { S with loose := True }

/-- The variable of the cell may be looked at. -/
def Scope.LooksAt (S : Scope) : Cell → Prop
  | .own .. => True
  | .handle id _ => S.looks id

/-- A claim on the object in the cell may be acquired. -/
def Scope.Reads (S : Scope) : Cell → Prop
  | .own .. => S.gains
  | .handle id _ => S.reads ∧ S.looks id

/-- The variable of the cell may be changed. -/
def Scope.Changes (S : Scope) : Cell → Prop
  | .own _ id => S.writes id
  | .handle id _ => S.changes id

theorem Scope.looksAt_via {S : Scope} {c : Cell} {bound : Bool} :
    S.LooksAt (c.via bound) ↔ S.LooksAt c := by
  cases bound <;> cases c <;> exact Iff.rfl

theorem Scope.reads_via {S : Scope} {c : Cell} {bound : Bool} :
    S.Reads (c.via bound) ↔ S.Reads c := by
  cases bound <;> cases c <;> exact Iff.rfl

theorem Scope.changes_via {S : Scope} {c : Cell} {bound : Bool} :
    S.Changes (c.via bound) ↔ S.Changes c := by
  cases bound <;> cases c <;> exact Iff.rfl

/-- Calls from native code may be noted. -/
def Scope.calls (S : Scope) : Prop :=
  ∀ (s : State) n e, S.outer s (s.inThread ({ · with nativeDepth := n, lastError := e }))

/-- Counters may be changed. -/
def Scope.counts (S : Scope) : Prop :=
  (∀ (s : State) c p, S.outer s (s.inThread ({ · with stats := c, profiler := p }))) ∧
    ∀ s p, S.outer s (s.tune p)

/-- A state without its settings, functions and counters, and without its journal. -/
def State.unsettled (s : State) : State :=
  { s with
    thread := { s.thread with settings := {}, managed := {} }
    settings := none, environment := {}, filter := none, functions := none
    profiler := .disabled, journal := [] }

/-- The process may be set up, and its settings may be changed. -/
structure Scope.SetsUp (S : Scope) : Prop where
  setup : S.setup
  outer : ∀ s t, t.unsettled = s.unsettled → S.outer s t

/-- A step that leaves locks alone, and all variables but these. -/
structure Change (W : SlotId → Prop) (f : State → State) : Prop where
  next : ∀ s, s.next ≤ (f s).next
  slots : ∀ s id v, (f s).slots.get? id = some v → s.slots.get? id = some v ∨ W id
  readers : ∀ s id sh', (f s).sharing.get? id = some sh' →
    ∃ sh, s.sharing.get? id = some sh ∧ sh'.readers = sh.readers

/-- A step that concerns neither variables nor locks. -/
theorem Change.same {W : SlotId → Prop} {f : State → State}
    (hf : ∀ s, ((f s).slots, (f s).sharing, (f s).next) = (s.slots, s.sharing, s.next)) :
    Change W f := by
  simp only [Prod.mk.injEq] at hf
  refine ⟨fun s => (hf s).2.2.ge, fun s id v h => .inl ((hf s).1 ▸ h), fun s id sh h => ?_⟩
  rw [(hf s).2.1] at h
  exact ⟨sh, h, rfl⟩

namespace Action

/-- Changes of a variable that are one thing, together with the word about it and the release of the
claim that it gives up. -/
inductive Piece : {α : Type} → Action α → Prop
  | rebinding (id : SlotId) (o : ObjectId) : Piece (replace id o >>= releaseAny)
  | clearing (id : SlotId) :
      Piece (unbind id .release >>= fun c => releaseAny c >>= fun _ => Pure.pure c)
  | taking (id : SlotId) : Piece (unbind id .transfer)
  | ending (id : SlotId) : Piece (destroySlot id)

/-- Actions that are put together of steps on cells and claims. -/
inductive Cellular : Scope → {α : Type} → Action α → Prop
  | pure {S : Scope} {α : Type} (a : α) : Cellular S (pure a)
  | fail {S : Scope} {α : Type} (f : Failure) (hf : S.Admits f) : Cellular S (fail f : Action α)
  /-- Only a lock is waited for. -/
  | halt {S : Scope} {α : Type} (h : Halt) (hh : ∀ p, h = .fatal p → S.AdmitsPanic p)
      (hb : h ≠ .blocked) : Cellular S (halt h : Action α)
  | send {S : Scope} (g : Signal) (hg : g.moment = .acquired → S.gains) : Cellular S (send g)
  | read {S : Scope} {α : Type} {k : State → Action α}
      (hr : S.dumps ∨ ∀ K W s, (S.keys → K = id) → k (s.disguise K W) = k s)
      (hb : S.setup ∨ ∀ b s, k (s.onBuild b) = k s) (hk : ∀ s, Cellular S (k s)) :
      Cellular S (get >>= k)
  | moved {S : Scope} {α : Type} {a : Action α} {x : α} {f : State → State}
      (ha : ∀ s, a s = .done x (f s)) (hf : Change S.writes f) (hq : S.loose ∨ ∀ s, Calm S.gains s (f s))
      (hn : ∀ K W s, (S.keys → K = id) → f (s.disguise K W) = (f s).disguise K W)
      (hb : S.setup ∨ ∀ b s, f (s.onBuild b) = (f s).onBuild b)
      (ho : (∀ s, S.outer s (f s)) ∨ ∀ s, Beside S.gains s (f s))
      (hc : S.keys ∨ ∀ s, (f s).thread.cells = s.thread.cells) : Cellular S a
  | lookClaim {S : Scope} {α : Type} {key : String} {k : Thread → Action α}
      (hr : ∀ t t', t.claims.get? key = t'.claims.get? key → k t = k t')
      (hk : ∀ t, Cellular S (k t)) : Cellular S (thread >>= k)
  | eraseClaim {S : Scope} (key : String) :
      Cellular S (inThread fun t => { t with claims := t.claims.erase key })
  | insertClaim {S : Scope} (key : String) (o : ObjectId) :
      Cellular S (inThread fun t => { t with claims := t.claims.insert key o })
  | piece {S : Scope} {α : Type} {a : Action α} (hp : Piece a) (ha : Cellular S.loosened a) :
      Cellular S a
  | lockForReading {S : Scope} (id : SlotId) (h : S.looks id) : Cellular S (lockForReading id)
  /-- With the lock of its cell a variable may be changed. -/
  | lockForChange {S : Scope} {α : Type} {a : Action α} (id : SlotId) (h : S.changes id)
      (ha : Cellular (S.writing fun i => S.writes i ∨ i = id) a) :
      Cellular S (lockForChange id >>= fun _ => a)
  | readOwned {S : Scope} (id : SlotId) (access : Access) (hr : S.reads) (hl : S.looks id)
      (ha : Cellular S.gaining (acquireValue (.handle id access))) :
      Cellular S (reading id (acquireValue (.handle id access)))
  /-- A new variable is in nobody's way. -/
  | makeSlot {S : Scope} {realm : Realm} {kind : CellKind} {name : String}
      {value : Option ObjectId}
      (ha : Cellular (S.writing fun _ => True).loosened (makeSlot realm kind name value)) :
      Cellular S (makeSlot realm kind name value)
  /-- And its lock is free. -/
  | makeShared {S : Scope} {realm : Realm} {name : String} {value : Option ObjectId}
      (ha : Cellular S (makeSlot realm .shared name value)) :
      Cellular S (makeShared realm name value)
  | bind {S : Scope} {α β : Type} {a : Action α} {k : α → Action β} (ha : Cellular S a)
      (hk : ∀ x, Cellular S (k x)) : Cellular S (a >>= k)
  | tried {S : Scope} {α β : Type} {a : Action α} {k : Except Failure α → Action β}
      (ha : Cellular S a) (hk : ∀ r, S.AdmitsResult r → Cellular S (k r)) :
      Cellular S (attempt a >>= k)

variable {S : Scope}

namespace Cellular

/-! ### Steps -/

/-- A change of variables. -/
theorem written {f : State → State} (hl : S.loose)
    (hf : ∀ s, ((f s).keeping, (f s).surroundings, (f s).journal) =
      (s.keeping, s.surroundings, s.journal))
    (hw : ∀ s id v, (f s).slots.get? id = some v → s.slots.get? id = some v ∨ S.writes id)
    (hr : ∀ K W s, f (s.disguise K W) = (f s).disguise K W)
    (hb : ∀ b s, f (s.onBuild b) = (f s).onBuild b) :
    Cellular S (modify f) := by
  simp only [State.keeping, Prod.mk.injEq] at hf
  refine .moved (fun _ => rfl) ⟨fun s => (hf s).1.2.2.1.ge, hw, fun s id sh h => ?_⟩ (.inl hl)
    (fun K W s _ => hr K W s) (.inr hb) (.inr fun s => .silent (hf s).2.1 (hf s).2.2)
    (.inr fun s => (hf s).1.2.1)
  rw [(hf s).1.2.2.2.1] at h
  exact ⟨sh, h, rfl⟩

/-- A change of anything but variables, locks and kept cells. -/
theorem modify {f : State → State}
    (hf : ∀ s, ((f s).slots, (f s).keeping, (f s).surroundings, (f s).journal) =
      (s.slots, s.keeping, s.surroundings, s.journal))
    (hr : ∀ K W s, f (s.disguise K W) = (f s).disguise K W)
    (hb : ∀ b s, f (s.onBuild b) = (f s).onBuild b) :
    Cellular S (modify f) := by
  simp only [State.keeping, Prod.mk.injEq] at hf
  exact .moved (fun _ => rfl) (.same fun s => by rw [(hf s).1, (hf s).2.1.2.2.1, (hf s).2.1.2.2.2.1])
    (.inr fun s => .silent (hf s).1 (hf s).2.2.2) (fun K W s _ => hr K W s) (.inr hb)
    (.inr fun s => .silent (hf s).2.2.1 (hf s).2.2.2) (.inr fun s => (hf s).2.1.2.1)

theorem inThread {f : Thread → Thread}
    (hf : ∀ s : State, ((s.inThread f).keeping, (s.inThread f).surroundings) =
      (s.keeping, s.surroundings))
    (hr : ∀ K W (s : State), (s.disguise K W).inThread f = (s.inThread f).disguise K W) :
    Cellular S (inThread f) :=
  modify (fun s => by
    have h := hf s
    simp only [Prod.mk.injEq] at h ⊢
    exact ⟨rfl, h.1, h.2, rfl⟩) hr fun _ _ => rfl

theorem note {e : Entry} (he : e.Inert) (hc : S.loose ∨ e.Calm S.gains) : Cellular S (note e) := by
  refine .moved (fun _ => rfl) (.same fun _ => rfl) (hc.imp_right fun hc s => .noting rfl rfl hc)
    (fun _ _ _ _ => rfl) (.inr fun b s => ?_) (.inr fun s => .noting rfl rfl (he.passes _))
    (.inr fun _ => rfl)
  show { s with build := b, journal := e :: s.journal.map (Entry.onBuild b) } =
    { s with build := b, journal := e.onBuild b :: s.journal.map (Entry.onBuild b) }
  rw [he.onBuild]

theorem did {d : Deed} (hd : S.loose ∨ d.apart = true) : Cellular S (did d) :=
  note trivial hd

theorem emit {e : Event} (he : ∀ w, (Entry.event e w).Inert)
    (hg : S.loose ∨ e.givesUp = false) : Cellular S (emit e) :=
  .read (.inr fun _ _ _ _ => rfl) (.inr fun _ _ => rfl) fun _ => note (he _) hg

/-- A change around the cells. -/
theorem outside {a : Action α} {x : α} {f : State → State} (ha : ∀ s, a s = .done x (f s))
    (ho : ∀ s, S.outer s (f s)) (hf : ∀ s, ((f s).slots, (f s).keeping) = (s.slots, s.keeping))
    (hj : ∀ s, ∃ es, (f s).journal = es ++ s.journal ∧ ∀ e ∈ es, e.Calm S.gains)
    (hr : ∀ K W s, f (s.disguise K W) = (f s).disguise K W)
    (hb : S.setup ∨ ∀ b s, f (s.onBuild b) = (f s).onBuild b) : Cellular S a := by
  simp only [State.keeping, Prod.mk.injEq] at hf
  exact .moved ha (.same fun s => by rw [(hf s).1, (hf s).2.2.2.1, (hf s).2.2.2.2.1])
    (.inr fun s => ⟨(hf s).1, hj s⟩) (fun K W s _ => hr K W s) hb (.inl ho)
    (.inr fun s => (hf s).2.2.1)

/-- A change around the cells of which the journal does not tell. -/
theorem aside {a : Action α} {x : α} {f : State → State} (ha : ∀ s, a s = .done x (f s))
    (ho : ∀ s, S.outer s (f s))
    (hf : ∀ s, ((f s).slots, (f s).keeping, (f s).journal) = (s.slots, s.keeping, s.journal))
    (hr : ∀ K W s, f (s.disguise K W) = (f s).disguise K W)
    (hb : S.setup ∨ ∀ b s, f (s.onBuild b) = (f s).onBuild b) : Cellular S a := by
  simp only [Prod.mk.injEq] at hf
  exact outside ha ho (fun s => by rw [(hf s).1, (hf s).2.1])
    (fun s => ⟨[], (hf s).2.2, by simp⟩) hr hb

/-- A change of kept cells. -/
theorem keep {f : Thread → Thread} (hk : S.keys)
    (hf : ∀ s : State, (s.inThread f).surroundings = s.surroundings)
    (hr : ∀ W (s : State), (s.disguise id W).inThread f = (s.inThread f).disguise id W) :
    Cellular S (Action.inThread f) := by
  refine .moved (fun _ => rfl) (.same fun _ => rfl) (.inr fun _ => .silent rfl rfl)
    (fun K W s hK => ?_) (.inr fun _ _ => rfl) (.inr fun s => .silent (hf s) rfl) (.inl hk)
  rw [hK hk]
  exact hr W s

/-- Looking at anything but the build and kept cells. -/
theorem look {k : State → Action α} (hr : ∀ K W s, k (s.disguise K W) = k s)
    (hb : ∀ b s, k (s.onBuild b) = k s) (hk : ∀ s, Cellular S (k s)) : Cellular S (get >>= k) :=
  .read (.inr fun K W s _ => hr K W s) (.inr hb) hk

theorem lookThread {k : Thread → Action α}
    (hr : ∀ K W s, k (State.disguise K W s).thread = k s.thread) (hk : ∀ t, Cellular S (k t)) :
    Cellular S (thread >>= k) :=
  look (k := fun s => k s.thread) hr (fun _ _ => rfl) fun s => hk s.thread

/-! ### Control -/

theorem raise {p : Panic} (hp : S.AdmitsPanic p) : Cellular S (raise p : Action α) := by
  refine lookThread (fun _ _ _ => rfl) fun t => ?_
  split
  · exact fail _ fun h => hp (Failure.panic.inj h)
  · exact halt _ (fun q h => Halt.fatal.inj h ▸ hp) fun h => by cases h

theorem violate (i : Invariant) : Cellular S (violate i : Action α) :=
  bind (emit (fun _ => trivial) (.inr rfl)) fun _ => raise nofun

theorem checked : ∀ a : Option α, Cellular S (checked a)
  | some a => pure a
  | none => raise nofun

theorem demand (f : Failure) (hf : S.Admits f) : ∀ a : Option α, Cellular S (demand f a)
  | some a => pure a
  | none => fail f hf

theorem ofExcept : ∀ {r : Except Failure α}, S.AdmitsResult r → Cellular S (ofExcept r)
  | .ok a, _ => pure a
  | .error f, hr => fail f (hr f rfl)

theorem decoded (d : Json.Decoder α) (source : Json.Source) : Cellular S (decoded d source) := by
  unfold Action.decoded
  split
  · exact pure _
  · exact fail _ nofun

theorem ite {p : Prop} [Decidable p] {a c : Action α} (ha : Cellular S a) (hc : Cellular S c) :
    Cellular S (if p then a else c) := by
  split
  · exact ha
  · exact hc

theorem forM {γ : Type} {a : γ → Action Unit} (ha : ∀ x, Cellular S (a x)) :
    ∀ xs : List γ, Cellular S (xs.forM a)
  | [] => pure ()
  | x :: xs => bind (ha x) fun _ => forM ha xs

theorem mapM {γ : Type} {a : γ → Action β} (ha : ∀ x, Cellular S (a x)) (xs : List γ) :
    Cellular S (xs.mapM a) := by
  induction xs with
  | nil => rw [List.mapM_nil]; exact pure _
  | cons x xs ih =>
    rw [List.mapM_cons]
    exact bind (ha x) fun _ => bind ih fun _ => pure _

theorem fresh : Cellular S fresh := by
  have h : Action.fresh = get >>= fun s =>
      (MonadStateOf.modifyGet (fun t : State => ((), { t with next := t.next + 1 })) >>= fun _ =>
        Pure.pure s.next : Action Nat) := rfl
  rw [h]
  refine look (fun _ _ _ => rfl) (fun _ _ => rfl) fun s => bind (moved (fun _ => rfl)
    ⟨fun _ => Nat.le_succ _, fun _ _ _ h => .inl h, fun _ _ sh h => ⟨sh, h, rfl⟩⟩
    (.inr fun _ => .silent rfl rfl) (fun _ _ _ _ => rfl) (.inr fun _ _ => rfl)
    (.inr fun s => .silent rfl rfl) (.inr fun _ => rfl)) fun _ => pure _

end Cellular

/-! ## Claims -/

theorem hold_cellular (c : Claim) : Cellular S (hold c) :=
  .inThread (fun _ => rfl) fun _ _ _ => rfl

theorem letGo_cellular (c : Claim) : Cellular S (letGo c) :=
  .inThread (fun _ => rfl) fun _ _ _ => rfl

theorem adopt_cellular (c : Claim) : Cellular S (adopt c) :=
  .bind (.note trivial (.inr trivial)) fun _ => hold_cellular c

theorem disown_cellular (c : Claim) : Cellular S (disown c) :=
  .bind (.note trivial (.inr trivial)) fun _ => letGo_cellular c

theorem settleLedger_cellular (l : Except Misuse Ledger) : Cellular S (settleLedger l) := by
  cases l with
  | ok l => exact .bind (.inThread (fun _ => rfl) fun _ _ _ => rfl) fun _ => .pure _
  | error m => exact .bind (.note trivial (.inr trivial)) fun _ => .raise nofun

theorem allocate_cellular : Cellular S allocate :=
  .lookThread (fun _ _ _ => rfl) fun _ => .bind (.inThread (fun _ => rfl) fun _ _ _ => rfl) fun _ =>
    .bind (.note trivial (.inr trivial)) fun _ => .bind (hold_cellular _) fun _ => .pure _

/-- Notes that one of the functions in effect is called, if there are some, after a change of the
hands. -/
def noteCall (h : List Claim → List Claim) (e : Functions → Entry) (s : State) : State :=
  match s.functions with
  | some f => (s.inThread fun t => { t with hands := h t.hands }).note (e f)
  | none => s

section Calling

variable {h : List Claim → List Claim} {e : Functions → Entry}

theorem modifyNoteCall_cellular (he : ∀ f, (e f).Passes S.gains (some f))
    (hc : ∀ f, (e f).Calm S.gains) (hb : ∀ f b, (e f).onBuild b = e f) :
    Cellular S (modify (noteCall h e)) := by
  refine .moved (x := ()) (f := noteCall h e) (fun _ => rfl) (.same fun s => ?_)
    (.inr fun s => ?_) (fun K W s _ => ?_) (.inr fun b s => ?_) (.inr fun s => ?_) (.inr fun s => ?_)
  · unfold noteCall
    split <;> rfl
  · unfold noteCall
    split
    · next f _ => exact .noting rfl rfl (hc f)
    · exact .silent rfl rfl
  · show noteCall h e (s.disguise K W) = (noteCall h e s).disguise K W
    unfold noteCall
    show (match s.functions with | some f => _ | none => _ : State) = _
    split <;> rfl
  · show noteCall h e (s.onBuild b) = (noteCall h e s).onBuild b
    unfold noteCall
    show (match s.functions with | some f => _ | none => _ : State) = _
    split
    · next f hf => simp only [State.onBuild, State.note, State.inThread, List.map_cons, hb]
    · rfl
  · unfold noteCall
    split
    · next f hf => exact .noting rfl rfl (hf ▸ he f)
    · exact .refl s
  · unfold noteCall
    split <;> rfl

/-- Something is noted of the functions in effect. -/
theorem noteCall_cellular (he : ∀ f, (e f).Passes S.gains (some f))
    (hc : ∀ f, (e f).Calm S.gains) (hb : ∀ f b, (e f).onBuild b = e f) :
    Cellular S (functions >>= fun f => modify fun s =>
      (s.inThread fun t => { t with hands := h t.hands }).note (e f)) := by
  have heq : (functions >>= fun f => modify fun s =>
      (s.inThread fun t => { t with hands := h t.hands }).note (e f)) = (do
      match (← get).functions with
      | none => violate .functionsMissing
      | some _ => modify (noteCall h e) : Action Unit) := by
    funext s
    cases hf : s.functions with
    | none => simp [functions_none, hf, violate_bind]
    | some f => simp [functions_some, hf, noteCall]
  rw [heq]
  refine .look (fun _ _ _ => rfl) (fun _ _ => rfl) fun s => ?_
  split
  · exact .violate _
  · exact modifyNoteCall_cellular he hc hb

end Calling

theorem gain_cellular (h : S.gains) (c : Claim) : Cellular S (gain c) := by
  obtain ⟨realm, o⟩ := c
  cases realm with
  | counted =>
    exact .lookThread (fun _ _ _ => rfl) fun _ => .bind (settleLedger_cellular _) fun _ =>
      .bind (hold_cellular _) fun _ => .note trivial (.inr h)
  | native =>
    exact noteCall_cellular (h := (⟨.native, o⟩ :: ·)) (e := fun f => .called f.acquire .acquired o)
      (fun f => ⟨⟨h, f, rfl, rfl⟩, nofun⟩) (fun _ => h) fun _ _ => rfl

theorem acquire_cellular (h : S.gains) (c : Claim) : Cellular S (acquire c) :=
  .bind (gain_cellular h c) fun _ => .send _ fun _ => h

theorem acquireRaw_cellular (h : S.gains) (c : Claim) : Cellular S (acquireRaw c) :=
  .bind (gain_cellular h c) fun _ => .bind (disown_cellular c) fun _ => .send _ fun _ => h

theorem release_cellular (c : Claim) : Cellular S (release c) := by
  obtain ⟨realm, o⟩ := c
  refine .bind (letGo_cellular _) fun _ => ?_
  cases realm with
  | counted =>
    exact .lookThread (fun _ _ _ => rfl) fun _ => .bind (settleLedger_cellular _) fun _ =>
      .bind (.note trivial (.inr trivial)) fun _ => .bind (.send _ nofun) fun _ =>
      .lookThread (fun _ _ _ => rfl) fun _ => .ite (.send _ nofun) (.pure _)
  | native =>
    have hcall := noteCall_cellular (S := S) (h := fun H => H)
      (e := fun f => .called f.release .released o) (fun f => ⟨⟨f, rfl, rfl⟩, nofun⟩) (fun _ => trivial)
      fun _ _ => rfl
    have hsent := Cellular.bind hcall fun _ => .send ⟨.native, .released, o⟩ nofun
    rwa [bind_assoc] at hsent

theorem releaseAny_cellular : ∀ c : Option Claim, Cellular S (releaseAny c)
  | some c => release_cellular c
  | none => .pure _

theorem cleanUp_cellular {a : Action Unit} (ha : Cellular S a) : Cellular S (cleanUp a) := by
  refine .tried ha fun r _ => ?_
  cases r with
  | ok => exact .pure _
  | error => exact .halt _ nofun fun h => by cases h

theorem conclude_cellular {a : Action Unit} {r : Except Failure α} (hr : S.AdmitsResult r)
    (ha : Cellular S a) : Cellular S (conclude r a) := by
  have hplain : Cellular S (a >>= fun _ => ofExcept r) := .bind ha fun _ => .ofExcept hr
  cases r with
  | ok x => exact hplain
  | error f =>
    cases f with
    | panic p => exact .bind (cleanUp_cellular ha) fun _ => .fail _ (hr _ rfl)
    | _ => exact hplain

theorem unwinding_cellular {a : Action α} (ha : Cellular S a) : Cellular S (unwinding a) := by
  refine .lookThread (fun _ _ _ => rfl) fun _ => .tried ha fun r hr => ?_
  cases r with
  | ok x => exact .pure _
  | error f =>
    exact .lookThread (fun _ _ _ => rfl) fun _ =>
      .bind (.forM (fun c => cleanUp_cellular (release_cellular c)) _) fun _ => .fail f (hr f rfl)

/-! ## Variables -/

/-- Counting does not switch a profiler. -/
theorem record_enabled {p p' : Profiler} {k : CellKind} {e : ClaimEvent}
    (h : p.record k e = some p') : p'.enabled = p.enabled := by
  rw [Profiler.record] at h
  split at h
  · obtain ⟨c, -, rfl⟩ := Option.map_eq_some_iff.1 h
    rfl
  · cases h
    rfl

theorem record_cellular (k : CellKind) (e : ClaimEvent) : Cellular S (record k e) := by
  let count (s : State) : State := { s with profiler := (s.profiler.record k e).getD s.profiler }
  have hcount : Cellular S (modify count) := by
    refine .modify (fun s => ?_) (fun _ _ _ => rfl) fun _ _ => rfl
    have hon : (count s).profiler.enabled = s.profiler.enabled := by
      cases h : s.profiler.record k e with
      | none => simp [count, h]
      | some p => simp [count, h, record_enabled h]
    show (s.slots, s.keeping, { s.surroundings with profiler := ⟨(count s).profiler.enabled, {}⟩ },
      _) = _
    rw [hon]
    rfl
  have heq : record k e = (do
      if ((← get).profiler.record k e).isNone then raise .overflow else modify count) := by
    funext s
    cases h : s.profiler.record k e <;> simp [record, checked, h, count]
  rw [heq]
  exact .look (fun _ _ _ => rfl) (fun _ _ => rfl) fun s => .ite (.raise (by simp)) hcount

theorem slot_cellular (id : SlotId) : Cellular S (slot id) :=
  .look (fun _ _ _ => rfl) (fun _ _ => rfl) fun _ => .demand .noSuchCell nofun _

theorem setValue_cellular (hl : S.loose) (id : SlotId) (hw : S.writes id)
    (value : Option ObjectId) : Cellular S (setValue id value) := by
  refine .bind (.written hl (fun _ => rfl) (fun s i v h => ?_) (fun _ _ _ => rfl) fun _ _ => rfl)
    fun _ => .did (.inl hl)
  by_cases hi : i = id
  · exact .inr (hi ▸ hw)
  · change (s.slots.modify id _).get? i = _ at h
    rw [Table.get?_modify, if_neg hi] at h
    exact .inl h

theorem makeSlot_cellular (realm : Realm) (kind : CellKind) (name : String)
    (value : Option ObjectId) : Cellular S (makeSlot realm kind name value) := by
  refine .makeSlot (.bind (record_cellular _ _) fun _ => ?_)
  cases value with
  | none =>
    exact .bind (.emit (fun _ => trivial) (.inl trivial)) fun _ => .bind .fresh fun _ =>
      .bind (.written trivial (fun _ => rfl) (fun _ _ _ _ => .inr trivial) (fun _ _ _ => rfl)
        fun _ _ => rfl) fun _ => .bind (.did (.inl trivial)) fun _ => .pure _
  | some o =>
    exact .bind (record_cellular _ _) fun _ => .bind (.emit (fun _ => trivial) (.inl trivial)) fun _ =>
      .bind .fresh fun _ =>
      .bind (.written trivial (fun _ => rfl) (fun _ _ _ _ => .inr trivial) (fun _ _ _ => rfl)
        fun _ _ => rfl) fun _ => .bind (.did (.inl trivial)) fun _ => .bind (letGo_cellular _) fun _ => .pure _

theorem replace_cellular (hl : S.loose) (id : SlotId) (hw : S.writes id) (o : ObjectId) :
    Cellular S (replace id o) := by
  refine .bind (slot_cellular id) fun v => .bind (record_cellular _ _) fun _ =>
    .bind (letGo_cellular _) fun _ => .bind (setValue_cellular hl _ hw _) fun _ => ?_
  cases v.value with
  | none => exact .bind (.emit (fun _ => trivial) (.inl hl)) fun _ => .pure _
  | some o' =>
    exact .bind (hold_cellular _) fun _ => .bind (record_cellular _ _) fun _ =>
      .bind (.emit (fun _ => trivial) (.inl hl)) fun _ => .pure _

theorem unbind_cellular (hl : S.loose) (id : SlotId) (hw : S.writes id) (r : UnbindReason) :
    Cellular S (unbind id r) := by
  refine .bind (slot_cellular id) fun v => ?_
  cases v.value with
  | none => exact .bind (record_cellular _ _) fun _ => .pure _
  | some o =>
    exact .bind (setValue_cellular hl _ hw _) fun _ => .bind (hold_cellular _) fun _ =>
      .bind (record_cellular _ _) fun _ => .bind (.emit (fun _ => trivial) (.inl hl)) fun _ => .pure _

/-- A variable that goes away is not changed. -/
theorem eraseSlot_cellular (hl : S.loose) (id : SlotId) :
    Cellular S (modify fun s => { s with slots := s.slots.erase id }) := by
  refine .written hl (fun _ => rfl) (fun s i v h => ?_) (fun _ _ _ => rfl) fun _ _ => rfl
  change (s.slots.erase id).get? i = _ at h
  rw [Table.get?_erase] at h
  split at h
  · cases h
  · exact .inl h

theorem destroySlot_cellular (id : SlotId) : Cellular S (destroySlot id) := by
  refine .piece (.ending id) <| .bind (slot_cellular id) fun v =>
    .bind (eraseSlot_cellular trivial id) fun _ => .bind (.did (.inl trivial)) fun _ => ?_
  cases v.value with
  | none => exact .pure _
  | some o =>
    exact .bind (hold_cellular _) fun _ => .bind (record_cellular _ _) fun _ =>
      .bind (.emit (fun _ => trivial) (.inl trivial)) fun _ => release_cellular _

/-! ## Locks -/

theorem sharing_cellular (id : SlotId) : Cellular S (sharing id) :=
  .look (fun _ _ _ => rfl) (fun _ _ => rfl) fun _ => .demand .noSuchCell nofun _

/-- Handles are counted without touching the lock. -/
theorem setSharing_cellular (id : SlotId) {f : Sharing → Sharing}
    (hf : ∀ sh, (f sh).readers = sh.readers) : Cellular S (setSharing id f) := by
  refine .moved (fun _ => rfl) ⟨fun _ => Nat.le_refl _, fun _ _ _ h => .inl h, fun s i sh' h => ?_⟩
    (.inr fun _ => .silent rfl rfl) (fun _ _ _ _ => rfl) (.inr fun _ _ => rfl)
    (.inr fun s => .silent rfl rfl) (.inr fun _ => rfl)
  change (s.sharing.modify id f).get? i = _ at h
  rw [Table.get?_modify] at h
  split at h
  · next hi =>
    obtain ⟨sh, hsh, rfl⟩ := Option.map_eq_some_iff.1 h
    exact ⟨sh, hi ▸ hsh, hf sh⟩
  · exact ⟨sh', h, rfl⟩

/-- The last handle takes the lock with it. -/
theorem eraseSharing_cellular (id : SlotId) :
    Cellular S (modify fun s => { s with sharing := s.sharing.erase id }) := by
  refine .moved (fun _ => rfl) ⟨fun _ => Nat.le_refl _, fun _ _ _ h => .inl h, fun s i sh' h => ?_⟩
    (.inr fun _ => .silent rfl rfl) (fun _ _ _ _ => rfl) (.inr fun _ _ => rfl)
    (.inr fun s => .silent rfl rfl) (.inr fun _ => rfl)
  change (s.sharing.erase id).get? i = _ at h
  rw [Table.get?_erase] at h
  split at h
  · cases h
  · exact ⟨sh', h, rfl⟩

/-! ## Cells -/

theorem makeOwn_cellular (form : Form) (name : String) (value : Option ObjectId) :
    Cellular S (makeOwn form name value) :=
  .bind (makeSlot_cellular _ _ _ _) fun _ => .pure _

theorem makeShared_cellular (realm : Realm) (name : String) (value : Option ObjectId) :
    Cellular S (makeShared realm name value) :=
  .makeShared (makeSlot_cellular _ _ _ _)

theorem unboundError_cellular (c : Cell) : Cellular S (unboundError c : Action α) :=
  .bind (slot_cellular _) fun _ => .fail _ nofun

theorem valueIn_cellular (c : Cell) (v : Slot) : Cellular S (valueIn c v) := by
  have hlacks : Cellular S (record v.kind .unboundAccess >>= fun _ =>
      (unboundError c : Action ObjectId)) :=
    .bind (record_cellular _ _) fun _ => unboundError_cellular c
  unfold valueIn
  split
  · exact .pure _
  · exact .violate _
  · exact hlacks

theorem acquireValue_cellular (h : S.gains) (c : Cell) : Cellular S (acquireValue c) :=
  .bind (slot_cellular _) fun _ => .bind (valueIn_cellular _ _) fun _ =>
    .bind (acquire_cellular h _) fun _ => .pure _

theorem retain_cellular (id : SlotId) : Cellular S (retain id) :=
  .bind (setSharing_cellular id fun _ => rfl) fun _ => .bind (.did (.inr rfl)) fun _ =>
    .bind (slot_cellular _) fun _ => .bind (sharing_cellular _) fun _ =>
    .bind (.emit (fun _ => trivial) (.inr rfl)) fun _ => .pure _

theorem reportFreed_cellular (v : Slot) : Cellular S (reportFreed v) :=
  .bind (record_cellular _ _) fun _ => .emit (fun _ => trivial) (.inr rfl)

theorem dropHandle_cellular (id : SlotId) : Cellular S (dropHandle id) :=
  .bind (setSharing_cellular id fun _ => rfl) fun _ => .bind (.did (.inr rfl)) fun _ =>
    .bind (sharing_cellular _) fun _ =>
    .ite (.bind (slot_cellular _) fun _ => .bind (eraseSharing_cellular id) fun _ =>
      .tried (reportFreed_cellular _) fun _ hr =>
        conclude_cellular hr (destroySlot_cellular _)) (.pure _)

theorem releaseHandle_cellular (id : SlotId) : Cellular S (releaseHandle id) :=
  .bind (slot_cellular _) fun _ => .bind (sharing_cellular _) fun _ =>
    .bind (.emit (fun _ => trivial) (.inr rfl)) fun _ => dropHandle_cellular id

theorem destroy_cellular : ∀ c : Cell, Cellular S (destroy c)
  | .own _ id => destroySlot_cellular id
  | .handle id _ => dropHandle_cellular id

/-! ### Looking -/

section Looking

variable {c : Cell} (h : S.LooksAt c)

include h

theorem look_cellular : Cellular S (look c) := by
  cases c with
  | own f id => exact slot_cellular id
  | handle id a => exact .bind (.lockForReading id h) fun _ => slot_cellular id

theorem read_cellular : Cellular S (read c) :=
  .bind (look_cellular h) fun _ => valueIn_cellular c _

theorem debugText_cellular (bound : Bool) : Cellular S (debugText c bound) := by
  refine .bind (look_cellular h) fun v => ?_
  cases c with
  | own => exact .pure _
  | handle => exact .bind (sharing_cellular _) fun _ => .pure _

end Looking

theorem readOwned_cellular : ∀ {c : Cell}, S.Reads c → Cellular S (readOwned c)
  | .own .., h => acquireValue_cellular h _
  | .handle id a, h => .readOwned id a h.1 h.2 (acquireValue_cellular trivial _)

/-! ### Changing -/

theorem clearing_cellular {id : SlotId} (hw : S.writes id) :
    Cellular S (unbind id .release >>= fun c => releaseAny c >>= fun _ => pure c) :=
  .piece (.clearing id) <| .bind (unbind_cellular (S := S.loosened) trivial id hw _) fun _ =>
    .bind (releaseAny_cellular _) fun _ => .pure _

/-- The claim that a variable gives up is released before anything else is done. -/
theorem unbind_release_eq (id : SlotId) {f g : Option Claim → Action α}
    (hsome : ∀ c, f (some c) = release c >>= fun _ => g (some c)) (hnone : f none = g none) :
    unbind id .release >>= f =
      (unbind id .release >>= fun c => releaseAny c >>= fun _ => pure c) >>= g := by
  rw [bind_assoc]
  congr 1
  funext c
  cases c with
  | none => exact hnone
  | some c =>
    rw [hsome, bind_assoc]
    rfl

section Changing

variable {c : Cell} (h : S.Changes c)

include h

/-- What is done with the lock of the cell. -/
theorem lockToChange_cellular {a : Action α}
    (ha : ∀ S : Scope, S.writes c.slot → Cellular S a) :
    Cellular S (lockToChange c >>= fun _ => a) := by
  cases c with
  | own f id => exact .bind (.pure _) fun _ => ha S h
  | handle id a => exact .lockForChange id h (ha _ (.inr rfl))

theorem assign_cellular (o : ObjectId) : Cellular S (assign c o) :=
  lockToChange_cellular h fun S hw => .piece (.rebinding _ o) <|
    .bind (replace_cellular (S := S.loosened) trivial _ hw _) fun _ => releaseAny_cellular _

theorem assignBorrowed_cellular (hg : S.gains) (o : ObjectId) :
    Cellular S (assignBorrowed c o) :=
  .bind (slot_cellular _) fun _ => .bind (acquire_cellular hg _) fun _ => assign_cellular h o

theorem clear_cellular : Cellular S (clear c) := by
  unfold clear
  split
  · refine .bind (slot_cellular _) fun v => .ite (.pure _) ?_
    have hcleared := Cellular.bind (clearing_cellular h) fun _ => .pure true
    simpa only [bind_assoc, pure_bind] using hcleared
  · refine lockToChange_cellular h fun S hw => ?_
    rw [unbind_release_eq (g := fun r => if r.isSome then pure true else unboundError c) _
      (fun _ => rfl) rfl]
    exact .bind (clearing_cellular hw) fun r => .ite (.pure _) (unboundError_cellular _)

theorem take_cellular : Cellular S (take c) := by
  refine lockToChange_cellular h fun S hw =>
    .bind (.piece (.taking _) (unbind_cellular (S := S.loosened) trivial _ hw _)) fun r => ?_
  split
  · exact .pure _
  · exact .violate _
  · exact unboundError_cellular c

end Changing

end Action

end ClaimCells
