import ClaimCells.Proofs.Composition
import ClaimCells.Proofs.Runs

/-!
# Courses that go the same way

Two courses mirror each other when they send the same signals and come to the same end, in states
that are alike. What alike means is a parameter (`Likeness`): it is said of the states at a signal,
at an end and at a halt. What a signal sets off may change both states, as long as they stay alike
and something is left as it was.

A likeness fits a scope when all that a cellular action may do in that scope is the same in states
that are alike. It is veiled when states that are alike differ in nothing that locks depend on.

Main results: `Cellular.mirrors`, that cellular actions go the same way in a scope that fits,
`Likeness.Veiled.fits`, and `Act.Mirrors.settle`, that mirrored courses run to mirrored ends.
-/

namespace ClaimCells

open Act (Outcome)

/-- When the states of two courses count as alike. -/
structure Likeness where
  sent : Signal → State → State → Prop
  /-- What scripts leave as it was, in the first of the two. -/
  left : State → State → Prop := fun _ _ => True
  ended : State → State → Prop
  halted : State → State → Prop

variable {α β : Type} {R : Likeness} {V : α → α → Prop} {W : β → β → Prop} {s t : State}

namespace Act

/-- The courses send the same signals and come to the same end, with values that `V` relates. -/
inductive Mirrors (R : Likeness) (V : α → α → Prop) : Act α → Act α → Prop
  | done {a b : α} {s t : State} (hv : V a b) (h : R.ended s t) : Mirrors R V (.done a s) (.done b t)
  | fail {f : Failure} {s t : State} (h : R.ended s t) : Mirrors R V (.fail f s) (.fail f t)
  | halt {x : Halt} {s t : State} (h : R.halted s t) : Mirrors R V (.halt x s) (.halt x t)
  | send {g : Signal} {s t : State} {next next' : State → Act α} (h : R.sent g s t)
      (hn : ∀ s' t', R.sent g s' t' → R.left s s' → Mirrors R V (next s') (next' t')) :
      Mirrors R V (.send g s next) (.send g t next')

/-- Two ends are the same, in states that are alike. -/
inductive Outcome.Mirrors (R : Likeness) (V : α → α → Prop) : Outcome α → Outcome α → Prop
  | done {a b : α} {s t : State} (hv : V a b) (h : R.ended s t) :
      Mirrors R V (.ended (.ok a) s) (.ended (.ok b) t)
  | fail {f : Failure} {s t : State} (h : R.ended s t) :
      Mirrors R V (.ended (.error f) s) (.ended (.error f) t)
  | halt {x : Halt} {s t : State} (h : R.halted s t) : Mirrors R V (.halted x s) (.halted x t)

namespace Mirrors

variable {x y : Act α}

theorem bind {k k' : α → State → Act β} (h : x.Mirrors R V y)
    (hk : ∀ a b s t, V a b → R.ended s t → (k a s).Mirrors R W (k' b t)) :
    (x.bind k).Mirrors R W (y.bind k') := by
  induction h with
  | done hv h => exact hk _ _ _ _ hv h
  | fail h => exact .fail h
  | halt h => exact .halt h
  | send h _ ih => exact .send h fun s' t' h' hl => ih s' t' h' hl

/-- What is done first may end in states that are alike in another way. -/
theorem inside {E : State → State → Prop} {k k' : Except Failure α → State → Act β}
    (h : x.Mirrors { R with ended := E } V y)
    (hk : ∀ a b s t, V a b → E s t → (k (.ok a) s).Mirrors R W (k' (.ok b) t))
    (hf : ∀ f s t, E s t → (k (.error f) s).Mirrors R W (k' (.error f) t)) :
    (x.attempt.bind k).Mirrors R W (y.attempt.bind k') := by
  induction h with
  | done hv h => exact hk _ _ _ _ hv h
  | fail h => exact hf _ _ _ h
  | halt h => exact .halt h
  | send h _ ih => exact .send h fun s' t' h' hl => ih s' t' h' hl

theorem tried {k k' : Except Failure α → State → Act β} (h : x.Mirrors R V y)
    (hk : ∀ a b s t, V a b → R.ended s t → (k (.ok a) s).Mirrors R W (k' (.ok b) t))
    (hf : ∀ f s t, R.ended s t → (k (.error f) s).Mirrors R W (k' (.error f) t)) :
    (x.attempt.bind k).Mirrors R W (y.attempt.bind k') :=
  inside (E := R.ended) h hk hf

theorem mono {V' : α → α → Prop} (h : x.Mirrors R V y) (hV : ∀ a b, V a b → V' a b) :
    x.Mirrors R V' y := by
  induction h with
  | done hv h => exact .done (hV _ _ hv) h
  | fail h => exact .fail h
  | halt h => exact .halt h
  | send h _ ih => exact .send h ih

end Mirrors

end Act

/-- Scripts came to an end in states that are alike, or to the same halt. -/
inductive SameEnd (E H : State → State → Prop) :
    Except (Halt × State) State → Except (Halt × State) State → Prop
  | ok {s t : State} (h : E s t) : SameEnd E H (.ok s) (.ok t)
  | error {x : Halt} {s t : State} (h : H s t) : SameEnd E H (.error (x, s)) (.error (x, t))

namespace SameEnd

variable {E E' H : State → State → Prop} {x y : Except (Halt × State) State}

theorem also (h : SameEnd E H x y) (hE : ∀ s t, x = .ok s → y = .ok t → E s t → E' s t) :
    SameEnd E' H x y := by
  cases h with
  | ok h => exact .ok (hE _ _ rfl rfl h)
  | error h => exact .error h

theorem mono (h : SameEnd E H x y) (hE : ∀ s t, E s t → E' s t) : SameEnd E' H x y :=
  h.also fun s t _ _ => hE s t

theorem of_ok (h : SameEnd E H x (.ok t)) : ∃ s, x = .ok s ∧ E s t := by
  generalize hy : Except.ok t = y at h
  cases h with
  | ok h =>
    cases hy
    exact ⟨_, rfl, h⟩
  | error => cases hy

theorem of_error {p : Halt × State} (h : SameEnd E H x (.error p)) :
    ∃ s, x = .error (p.1, s) ∧ H s p.2 := by
  generalize hy : Except.error p = y at h
  cases h with
  | ok => cases hy
  | error h =>
    cases hy
    exact ⟨_, rfl, h⟩

end SameEnd

/-- **Mirrored courses run to mirrored ends**, when what their signals set off keeps states alike. -/
theorem Act.Mirrors.settle {x y : Act α} (h : x.Mirrors R V y)
    {react react' : Signal → State → Except (Halt × State) State}
    (hr : ∀ g s t, x.Sends react g s → y.Sends react' g t → R.sent g s t →
      SameEnd (fun s' t' => R.sent g s' t' ∧ R.left s s') R.halted (react g s) (react' g t)) :
    Outcome.Mirrors R V (x.settle react) (y.settle react') := by
  induction h with
  | done hv h => exact .done hv h
  | fail h => exact .fail h
  | halt h => exact .halt h
  | @send g s t next next' h _ ih =>
    have hg := hr g s t (.now g s next) (.now g t next') h
    rw [Act.settle, Act.settle]
    generalize hs : react g s = e, ht : react' g t = e' at hg
    cases hg with
    | error h' => exact .halt h'
    | ok h' => exact ih _ _ h'.1 h'.2 fun g' u v hu hv => hr g' u v (.later hs hu) (.later ht hv)

/-! ## Cellular actions -/

namespace Action

variable {S : Scope}

/-- The action goes the same way from states that are alike. -/
def Mirrored (R : Likeness) (a : Action α) : Prop :=
  ∀ s t, R.ended s t → (a s).Mirrors R Eq (a t)

namespace Mirrored

theorem pure (a : α) : Mirrored R (pure a) := fun _ _ h => .done rfl h

theorem fail (f : Failure) : Mirrored R (fail f : Action α) := fun _ _ h => .fail h

theorem bind {a : Action α} {k : α → Action β} (ha : Mirrored R a) (hk : ∀ x, Mirrored R (k x)) :
    Mirrored R (a >>= k) :=
  fun s t h => (ha s t h).bind fun x _ s t he => he ▸ hk x s t

theorem tried {a : Action α} {k : Except Failure α → Action β} (ha : Mirrored R a)
    (hk : ∀ r, Mirrored R (k r)) : Mirrored R (attempt a >>= k) :=
  fun s t h => (ha s t h).tried (fun x _ s t he => he ▸ hk (.ok x) s t) fun f => hk (.error f)

theorem demand (f : Failure) : ∀ a : Option α, Mirrored R (demand f a)
  | some a => pure a
  | none => fail f

theorem mapM {f : α → Action β} (hf : ∀ x, Mirrored R (f x)) : ∀ l : List α, Mirrored R (l.mapM f)
  | [] => by
    rw [List.mapM_nil]
    exact pure []
  | x :: l => by
    rw [List.mapM_cons]
    exact bind (hf x) fun _ => bind (mapM hf l) fun _ => pure _

theorem ofExcept : ∀ r : Except Failure α, Mirrored R (ofExcept r)
  | .ok a => pure a
  | .error f => fail f

theorem forM {f : α → Action Unit} (hf : ∀ x, Mirrored R (f x)) :
    ∀ l : List α, Mirrored R (l.forM f)
  | [] => pure ()
  | x :: l => bind (hf x) fun _ => forM hf l

theorem ite {p : Prop} [Decidable p] {a c : Action α} (ha : Mirrored R a) (hc : Mirrored R c) :
    Mirrored R (if p then a else c) := by
  split
  · exact ha
  · exact hc

/-- What is looked at is the same. -/
theorem read {k : State → Action α} (hr : ∀ s t, R.ended s t → k s = k t)
    (hk : ∀ s, Mirrored R (k s)) : Mirrored R (get >>= k) := fun s t h => by
  show (k s s).Mirrors R Eq (k t t)
  rw [← hr s t h]
  exact hk s s t h

end Mirrored

end Action

/-- All that a cellular action may do in the scope is the same in states that are alike. -/
structure Likeness.Fits (R : Likeness) (S : Scope) : Prop where
  refuses : S.refuses
  halted : ∀ s t, R.ended s t → R.halted s t
  sent : ∀ g, (g.moment = .acquired → S.gains) → ∀ s t, R.ended s t →
    R.sent g s t ∧ ∀ s' t', R.sent g s' t' → R.left s s' → R.ended s' t'
  read : ∀ {α : Type} (k : State → Action α),
    (S.dumps ∨ ∀ K W s, (S.keys → K = id) → k (s.disguise K W) = k s) →
    (S.setup ∨ ∀ b s, k (s.onBuild b) = k s) → ∀ s t, R.ended s t → k s = k t
  moved : ∀ (w : SlotId → Prop) f, Change w f →
    (∀ K W s, (S.keys → K = id) → f (s.disguise K W) = (f s).disguise K W) →
    (S.setup ∨ ∀ b s, f (s.onBuild b) = (f s).onBuild b) →
    (S.keys ∨ ∀ s, (f s).thread.cells = s.thread.cells) → ∀ s t, R.ended s t → R.ended (f s) (f t)
  claims : ∀ s t key, R.ended s t → s.thread.claims.get? key = t.thread.claims.get? key
  erased : ∀ key s t, R.ended s t →
    R.ended (s.inThread fun t => { t with claims := t.claims.erase key })
      (t.inThread fun t => { t with claims := t.claims.erase key })
  inserted : ∀ key o s t, R.ended s t →
    R.ended (s.inThread fun t => { t with claims := t.claims.insert key o })
      (t.inThread fun t => { t with claims := t.claims.insert key o })
  looking : ∀ id, S.looks id → Action.Mirrored R (Action.lockForReading id)
  changing : ∀ id, S.changes id → Action.Mirrored R (Action.lockForChange id)
  owning : ∀ id access, S.reads → S.looks id → Action.Mirrored R (Action.readOwned (.handle id access))
  sharing : ∀ realm name value, Action.Mirrored R (Action.makeSlot realm .shared name value) →
    Action.Mirrored R (Action.makeShared realm name value)

namespace Likeness.Fits

variable {S : Scope}

theorem writing (h : R.Fits S) (w : SlotId → Prop) : R.Fits (S.writing w) :=
  ⟨h.refuses, h.halted, h.sent, h.read, h.moved, h.claims, h.erased, h.inserted, h.looking,
    h.changing, h.owning, h.sharing⟩

theorem loosened (h : R.Fits S) : R.Fits S.loosened :=
  ⟨h.refuses, h.halted, h.sent, h.read, h.moved, h.claims, h.erased, h.inserted, h.looking,
    h.changing, h.owning, h.sharing⟩

end Likeness.Fits

namespace Action

variable {S : Scope}

/-- **Cellular actions go the same way from states that are alike.** -/
theorem Cellular.mirrors {a : Action α} (h : Cellular S a) (hS : R.Fits S) : Mirrored R a := by
  induction h with
  | pure a => exact .pure a
  | fail f => exact .fail f
  | halt x => exact fun s t h => .halt (hS.halted s t h)
  | send g hg =>
    intro s t h
    obtain ⟨hsent, hback⟩ := hS.sent g hg s t h
    exact .send hsent fun s' t' h' hl => .done rfl (hback s' t' h' hl)
  | read hr hb _ ih => exact .read (hS.read _ hr hb) fun s => ih s hS
  | moved ha hf _ hn hb _ hc =>
    intro s t h
    rw [ha, ha]
    exact .done rfl (hS.moved _ _ hf hn hb hc s t h)
  | lookClaim hr _ ih =>
    exact .read (fun s t h => hr s.thread t.thread (hS.claims s t _ h)) fun s => ih s.thread hS
  | eraseClaim key => exact fun s t h => .done rfl (hS.erased key s t h)
  | insertClaim key o => exact fun s t h => .done rfl (hS.inserted key o s t h)
  | piece _ _ ih => exact ih hS.loosened
  | lockForReading id hid => exact hS.looking id hid
  | lockForChange id hid _ ih => exact .bind (hS.changing id hid) fun _ => ih (hS.writing _)
  | readOwned id access hr hl => exact hS.owning id access hr hl
  | makeSlot _ ih => exact ih (hS.writing _).loosened
  | makeShared _ ih => exact hS.sharing _ _ _ (ih hS)
  | bind _ _ ih ihk => exact .bind (ih hS) fun x => ihk x hS
  | tried _ _ ih ihk => exact .tried (ih hS) fun r => ihk r (fun _ _ _ => hS.refuses) hS

namespace Mirrored

variable {a : Action Unit}

theorem cleanUp (hS : R.Fits S) (ha : Mirrored R a) : Mirrored R (cleanUp a) := by
  refine .tried ha fun r => ?_
  cases r with
  | ok => exact .pure _
  | error => exact fun s t h => .halt (hS.halted s t h)

theorem conclude (hS : R.Fits S) (ha : Mirrored R a) (r : Except Failure α) :
    Mirrored R (conclude r a) := by
  have hplain : Mirrored R (a >>= fun _ => Action.ofExcept r) := .bind ha fun _ => .ofExcept r
  cases r with
  | ok x => exact hplain
  | error f =>
    cases f with
    | panic p => exact .bind (.cleanUp hS ha) fun _ => .fail _
    | _ => exact hplain

end Mirrored

/-- What is given up when an operation is broken off is the same. -/
theorem unwinding_mirrors (hS : R.Fits S) {a : Action α} (h : R.ended s t)
    (ha : (a s).Mirrors R V (a t)) : (unwinding a s).Mirrors R V (unwinding a t) := by
  have hhands (s t : State) (h : R.ended s t) : s.thread.hands = t.thread.hands := by
    have hread := hS.read (fun s => (pure s.thread.hands : Action (List Claim)))
      (.inr fun _ _ _ _ => rfl) (.inr fun _ _ => rfl) s t h
    injection congrFun hread s
  show ((a s).attempt.bind _).Mirrors _ _ ((a t).attempt.bind _)
  rw [← hhands s t h]
  refine ha.tried (fun x y s' t' hv h' => .done hv h') fun f s' t' h' => ?_
  have hgive : Mirrored R (thread >>= fun u => (u.hands.take
      (u.hands.length - s.thread.hands.length)).forM fun c => cleanUp (release c)) :=
    .read (k := fun v => (v.thread.hands.take
        (v.thread.hands.length - s.thread.hands.length)).forM fun c => cleanUp (release c))
      (fun u v h => by rw [hhands u v h]) fun _ =>
        .forM (fun c => .cleanUp hS ((release_cellular c).mirrors hS)) _
  exact (hgive s' t' h').bind fun _ _ _ _ _ h'' => .fail h''

theorem Mirrored.unwinding (hS : R.Fits S) {a : Action α} (ha : Mirrored R a) :
    Mirrored R (unwinding a) :=
  fun s t h => unwinding_mirrors hS h (ha s t h)

end Action

/-! ## Locks -/

/-- States that are alike differ in nothing that locks depend on. -/
structure Likeness.Veiled (R : Likeness) : Prop where
  halted : ∀ s t, R.ended s t → R.halted s t
  seen : ∀ s t, R.ended s t → (s.sharing, s.build, s.thread.nativeDepth) =
    (t.sharing, t.build, t.thread.nativeDepth)
  locked : ∀ (f : Table SlotId Sharing → Table SlotId Sharing) s t, R.ended s t →
    R.ended { s with sharing := f s.sharing } { t with sharing := f t.sharing }
  noted : ∀ e s t, R.ended s t → R.ended (s.note e) (t.note e)

namespace Likeness.Veiled

open Action Action.Mirrored

variable {S : Scope} (hR : R.Veiled)

include hR

theorem halt (x : Halt) : Mirrored R (halt x : Action α) :=
  fun s t h => .halt (hR.halted s t h)

theorem raise (p : Panic) : Mirrored R (raise p : Action α) :=
  .read (k := fun s => if s.thread.nativeDepth = 0 then fail (.panic p) else Action.halt (.fatal p))
    (fun s t h => by rw [(Prod.mk.inj (Prod.mk.inj (hR.seen s t h)).2).2])
    fun _ => .ite (.fail _) (hR.halt _)

theorem sharing (id : SlotId) : Mirrored R (sharing id) :=
  .read (k := fun s => Action.demand .noSuchCell (s.sharing.get? id))
    (fun s t h => by rw [(Prod.mk.inj (hR.seen s t h)).1]) fun _ => .demand _ _

theorem setSharing (id : SlotId) (f : Sharing → Sharing) : Mirrored R (setSharing id f) :=
  fun s t h => .done rfl (hR.locked (·.modify id f) s t h)

/-- What depends on the build. -/
theorem lookBuild {k : Build → Action α} (hk : ∀ b, Mirrored R (k b)) :
    Mirrored R (get >>= fun s => k s.build) :=
  .read (fun s t h => by rw [(Prod.mk.inj (Prod.mk.inj (hR.seen s t h)).2).1]) fun s => hk s.build

theorem lockForReading (id : SlotId) : Mirrored R (lockForReading id) := by
  refine .bind (hR.sharing id) fun sh => hR.lookBuild (k := fun b =>
    if sh.readers ≠ 0 ∧ b.mode = .atomic then Action.halt .blocked else Pure.pure ()) fun b => ?_
  exact .ite (hR.halt _) (.pure _)

theorem lockForChange (id : SlotId) : Mirrored R (lockForChange id) := by
  refine .bind (hR.sharing id) fun sh => .ite (.read (fun s t h => ?_) fun s => ?_) (.pure _)
  · rw [(Prod.mk.inj (Prod.mk.inj (hR.seen s t h)).2).1]
  cases s.build.mode with
  | plain => exact hR.raise _
  | atomic => exact hR.halt _

theorem reading {a : Action α} (ha : Mirrored R a) (id : SlotId) : Mirrored R (reading id a) :=
  .bind (hR.lockForReading id) fun _ => .bind (hR.setSharing id _) fun _ =>
    .tried ha fun r => .bind (hR.setSharing id _) fun _ => .ofExcept r

theorem makeShared {realm : Realm} {name : String} {value : Option ObjectId}
    (h : Mirrored R (makeSlot realm .shared name value)) :
    Mirrored R (makeShared realm name value) :=
  .bind h fun id => .bind (fun s t h => .done rfl (hR.locked (·.insert id { handles := 1 }) s t h))
    fun _ => .bind (fun s t h => .done rfl (hR.noted _ s t h)) fun _ => .pure _

/-- **Locks are the same to states that are alike**, so nothing has to be said of them. -/
theorem fits (hS : S.refuses)
    (hsent : ∀ g s t, R.ended s t →
      R.sent g s t ∧ ∀ s' t', R.sent g s' t' → R.left s s' → R.ended s' t')
    (hread : ∀ {α : Type} (k : State → Action α),
      (S.dumps ∨ ∀ K W s, (S.keys → K = id) → k (s.disguise K W) = k s) →
      (S.setup ∨ ∀ b s, k (s.onBuild b) = k s) → ∀ s t, R.ended s t → k s = k t)
    (hmoved : ∀ (w : SlotId → Prop) f, Change w f →
      (∀ K W s, (S.keys → K = id) → f (s.disguise K W) = (f s).disguise K W) →
      (S.setup ∨ ∀ b s, f (s.onBuild b) = (f s).onBuild b) →
      (S.keys ∨ ∀ s, (f s).thread.cells = s.thread.cells) →
      ∀ s t, R.ended s t → R.ended (f s) (f t))
    (hclaims : ∀ s t key, R.ended s t → s.thread.claims.get? key = t.thread.claims.get? key)
    (herased : ∀ key s t, R.ended s t →
      R.ended (s.inThread fun t => { t with claims := t.claims.erase key })
        (t.inThread fun t => { t with claims := t.claims.erase key }))
    (hinserted : ∀ key o s t, R.ended s t →
      R.ended (s.inThread fun t => { t with claims := t.claims.insert key o })
        (t.inThread fun t => { t with claims := t.claims.insert key o })) : R.Fits S := by
  have hfits (S' : Scope) (hk : S'.keys = S.keys) (hd : S'.dumps = S.dumps)
      (hs : S'.setup = S.setup) (hr : S'.refuses)
      (ho : S'.reads → ∀ id access, Mirrored R (readOwned (.handle id access))) : R.Fits S' :=
    { refuses := hr
      halted := hR.halted
      sent := fun g _ => hsent g
      read := by rw [hk, hd, hs]; exact hread
      moved := by rw [hk, hs]; exact hmoved
      claims := hclaims
      erased := herased
      inserted := hinserted
      looking := fun id _ => hR.lockForReading id
      changing := fun id _ => hR.lockForChange id
      owning := fun id access h _ => ho h id access
      sharing := fun _ _ _ h => hR.makeShared h }
  have hgain : R.Fits { S with reads := False, gains := True } :=
    hfits _ rfl rfl rfl hS False.elim
  exact hfits S rfl rfl rfl hS fun _ id _ =>
    hR.reading ((acquireValue_cellular trivial _).mirrors hgain) id

end Likeness.Veiled

end ClaimCells
