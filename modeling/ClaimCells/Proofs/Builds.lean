import ClaimCells.Proofs.Configured
import ClaimCells.Proofs.Echoes
import ClaimCells.Proofs.Exclusion
import ClaimCells.Proofs.Functions

/-!
# Operations on another build

A process with atomic counters does what one with plain counters does, as long as nothing asks for a
lock that is held: settings apart, nothing but locks looks at the build. The first installation of
native functions needs settings, and gets the same on any build where there is nothing to go by but
the environment (`State.Unset`).

`State.onBuild` is the same state in a process of another build. Which locks an operation asks for
is told by `Op.Asks`.

Main result: `course_onBuild`.
-/

namespace ClaimCells

open Act (Outcome)

variable {α β : Type} {s t u : State} {b : Build} {L : List SlotId} {W : Signal → List SlotId}
  {S : Scope} {id : SlotId} {op : Op} {n : Nat}

/-! ## The same states on another build -/

/-- States of processes of two builds that are the same otherwise. The locks that are held are those
in the list, and at a signal those that `W` tells besides. -/
def Likeness.rebuilt (b : Build) (L : List SlotId) (W : Signal → List SlotId) : Likeness where
  sent g s t := t = s.onBuild b ∧ s.Locked (W g ++ L)
  ended s t := t = s.onBuild b ∧ s.Locked L
  halted s t := t = s.onBuild b

namespace Action

theorem free_of_not_mem {sh : Sharing} (hl : s.Locked L) (hid : id ∉ L)
    (hsh : s.sharing.get? id = some sh) : sh.readers = 0 := by
  rw [hl.count id sh hsh, List.count_eq_zero_of_not_mem hid]

/-- A free lock can be had on any build. -/
theorem lockForReading_mirrors {R : Likeness} (hR : R.ended s (s.onBuild b))
    (hfree : ∀ sh, s.sharing.get? id = some sh → sh.readers = 0) :
    (lockForReading id s).Mirrors R Eq (lockForReading id (s.onBuild b)) := by
  cases hsh : s.sharing.get? id with
  | none =>
    rw [lockForReading, bind_apply, bind_apply, sharing_none hsh,
      sharing_none (s := s.onBuild b) hsh]
    exact .fail hR
  | some sh =>
    rw [lockForReading_free hsh (hfree sh hsh),
      lockForReading_free (s := s.onBuild b) hsh (hfree sh hsh)]
    exact .done rfl hR

theorem lockForReading_rebuilt (hid : id ∉ L) :
    Mirrored (.rebuilt b L W) (lockForReading id) := by
  rintro s t ⟨rfl, hl⟩
  exact lockForReading_mirrors ⟨rfl, hl⟩ fun sh hsh => free_of_not_mem hl hid hsh

theorem lockForChange_rebuilt (hid : id ∉ L) :
    Mirrored (.rebuilt b L W) (lockForChange id) := by
  rintro s t ⟨rfl, hl⟩
  cases hsh : s.sharing.get? id with
  | none =>
    rw [lockForChange, bind_apply, bind_apply, sharing_none hsh,
      sharing_none (s := s.onBuild b) hsh]
    exact .fail ⟨rfl, hl⟩
  | some sh =>
    have hfree := free_of_not_mem hl hid hsh
    rw [lockForChange_free hsh hfree, lockForChange_free (s := s.onBuild b) hsh hfree]
    exact .done rfl ⟨rfl, hl⟩

theorem makeShared_rebuilt {realm : Realm} {name : String} {value : Option ObjectId}
    (h : Mirrored (.rebuilt b L W) (makeSlot realm .shared name value)) :
    Mirrored (.rebuilt b L W) (makeShared realm name value) := by
  rintro s t ⟨rfl, hl⟩
  cases hp : s.profiler.recordMade .shared value.isSome with
  | some p =>
    have hlocked : (makeShared realm name value s).Holds True (fun _ => []) L s :=
      makeShared_holds hl
    rw [makeShared_some hp] at hlocked ⊢
    rw [makeShared_some (s := s.onBuild b) hp]
    exact .done rfl ⟨rfl, hlocked.1⟩
  | none =>
    obtain ⟨p, hfull⟩ : ∃ p, makeSlot realm .shared name value s =
        raise .overflow { s with profiler := p } := makeSlot_full hp
    have hm := h s (s.onBuild b) ⟨rfl, hl⟩
    rw [makeShared, bind_apply, bind_apply]
    rw [hfull] at hm ⊢
    generalize makeSlot realm .shared name value (s.onBuild b) = y at hm
    obtain hx | ⟨x, hx⟩ := raise_eq SlotId .overflow { s with profiler := p }
    · rw [hx] at hm ⊢
      cases hm with
      | fail h' => exact .fail h'
    · rw [hx] at hm ⊢
      cases hm with
      | halt h' => exact .halt h'

/-- What is allowed is the same on any build, if the locks that may be asked for are free. -/
theorem fits_rebuilt (hr : S.refuses) (hset : ¬ S.setup)
    (hW : ∀ g, (g.moment = .acquired → S.gains) → W g = []) (hl : ∀ id, S.looks id → id ∉ L)
    (hc : ∀ id, S.changes id → id ∉ L)
    (ho : S.reads → ∀ id access, S.looks id →
      Mirrored (.rebuilt b L W) (Action.readOwned (.handle id access))) :
    (Likeness.rebuilt b L W).Fits S where
  refuses := hr
  halted _ _ h := h.1
  sent g hg s t h := by
    show (t = s.onBuild b ∧ s.Locked (W g ++ L)) ∧ ∀ s' t' : State,
      t' = s'.onBuild b ∧ s'.Locked (W g ++ L) → True → t' = s'.onBuild b ∧ s'.Locked L
    rw [hW g hg]
    exact ⟨h, fun _ _ h' _ => h'⟩
  read k _ hb s t h := by
    rw [h.1]
    exact ((hb.resolve_left hset) b s).symm
  moved w f hf _ hb _ s t h := ⟨by rw [h.1]; exact (hb.resolve_left hset) b s, hf.locked h.2⟩
  claims s t key h := by
    rw [h.1]
    rfl
  erased key s t h := ⟨by rw [h.1]; rfl, h.2.same rfl⟩
  inserted key o s t h := ⟨by rw [h.1]; rfl, h.2.same rfl⟩
  looking id hid := lockForReading_rebuilt (hl id hid)
  changing id hid := lockForChange_rebuilt (hc id hid)
  owning id access hreads hlooks := ho hreads id access hlooks
  sharing realm name value h := makeShared_rebuilt h

/-- A free lock can be had for reading. -/
theorem reading_free {sh : Sharing} (hsh : s.sharing.get? id = some sh) (hfree : sh.readers = 0)
    (a : Action α) : reading id a s = (attempt a >>= fun r =>
      setSharing id (fun c => { c with readers := c.readers - 1 }) >>= fun _ => ofExcept r)
        { s with sharing := s.sharing.modify id fun c => { c with readers := c.readers + 1 } } := by
  rw [reading, bind_apply, lockForReading_free hsh hfree, done_bind]
  rfl

/-- What is done while the lock is held, and how it is given back. -/
def holding (id : SlotId) (access : Access) : Action Claim :=
  attempt (acquireValue (.handle id access)) >>= fun r =>
    setSharing id (fun c => { c with readers := c.readers - 1 }) >>= fun _ => ofExcept r

theorem holding_rebuilt (access : Access) (hl : s.Locked (id :: L))
    (hW : ∀ g, g.moment = .acquired → W g = [id]) :
    (holding id access s).Mirrors (.rebuilt b L W) Eq (holding id access (s.onBuild b)) := by
  have hback (r : Except Failure Claim) (v : State) (hv : v.Locked (id :: L)) :
      ((setSharing id (fun c => { c with readers := c.readers - 1 }) >>= fun _ =>
        ofExcept r) v).Mirrors (.rebuilt b L W) Eq
      ((setSharing id (fun c => { c with readers := c.readers - 1 }) >>= fun _ =>
        ofExcept r) (v.onBuild b)) := by
    cases r with
    | ok claim => exact .done rfl ⟨rfl, lock_given hv⟩
    | error f => exact .fail ⟨rfl, lock_given hv⟩
  -- nothing but the signal depends on the lock that is held
  have hgain : (gainValue (.handle id access) s).Mirrors (.rebuilt b (id :: L) fun _ => []) Eq
      (gainValue (.handle id access) (s.onBuild b)) :=
    (gainValue_cellular (S := { gaining with refuses := True }) trivial _).mirrors
      (fits_rebuilt trivial (fun h => h) (fun _ _ => rfl) (fun _ h => h.elim) (fun _ h => h.elim)
        fun h => h.elim) s _ ⟨rfl, hl⟩
  have hover := Swift.gainValue (.handle id access) s
  rw [holding, acquireValue_eq, bind_apply, bind_apply, attempt_apply, attempt_apply, bind_apply,
    bind_apply]
  generalize gainValue (.handle id access) s = x, gainValue (.handle id access) (s.onBuild b) = y
    at hgain hover
  cases hgain with
  | @done claim claim' v _ hc h =>
    obtain ⟨rfl, hv⟩ := h
    subst hc
    have hset : W ⟨claim.realm, .acquired, claim.object⟩ = [id] := hW _ rfl
    refine .send ⟨rfl, by rw [hset]; exact hv⟩ fun v' _ h' _ => ?_
    obtain ⟨rfl, hv'⟩ := h'
    rw [hset] at hv'
    exact hback (.ok claim) v' hv'
  | @fail f v _ h =>
    obtain ⟨rfl, hv⟩ := h
    exact hback (.error f) v hv
  | halt h => exact .halt h
  | send => exact hover.elim

/-- A read of a claim goes the same way, and holds the lock of its cell at its signal. -/
theorem readOwned_rebuilt (access : Access) (hid : id ∉ L)
    (hW : ∀ g, g.moment = .acquired → W g = [id]) :
    Mirrored (.rebuilt b L W) (readOwned (.handle id access)) := by
  rintro s t ⟨rfl, hl⟩
  show (reading id (acquireValue (.handle id access)) s).Mirrors _ _
    (reading id (acquireValue (.handle id access)) (s.onBuild b))
  cases hsh : s.sharing.get? id with
  | none =>
    rw [reading, bind_apply, bind_apply, lockForReading, bind_apply, bind_apply, sharing_none hsh,
      sharing_none (s := s.onBuild b) hsh]
    exact .fail ⟨rfl, hl⟩
  | some sh =>
    have hfree := free_of_not_mem hl hid hsh
    rw [reading_free hsh hfree, reading_free (s := s.onBuild b) hsh hfree]
    exact holding_rebuilt access (lock_taken hl hsh) hW

/-! ## Dumps -/

/-- Nothing changes from one state to the other. -/
def still (b : Build) (s : State) : Likeness where
  sent _ _ _ := False
  ended u v := u = s ∧ v = s.onBuild b
  halted u v := u = s ∧ v = s.onBuild b

theorem slot_alike (id : SlotId) : Mirrored (still b s) (slot id) :=
  .read (k := fun s => demand .noSuchCell (s.slots.get? id))
    (fun u v h => by rw [h.1, h.2]; rfl) fun _ => .demand _ _

theorem sharing_alike (id : SlotId) : Mirrored (still b s) (sharing id) :=
  .read (k := fun s => demand .noSuchCell (s.sharing.get? id))
    (fun u v h => by rw [h.1, h.2]; rfl) fun _ => .demand _ _

theorem viewCell_still {k : Kept} (hfree : ∀ id a, k.cell = .handle id a →
    ∀ sh, s.sharing.get? id = some sh → sh.readers = 0) : Mirrored (still b s) (viewCell k) := by
  unfold viewCell
  split
  · exact .pure _
  · split
    · exact .bind (slot_alike _) fun _ => .pure _
    · next id a hc =>
      rw [hc]
      refine .bind (.bind ?_ fun _ => slot_alike id) fun _ =>
        .bind (sharing_alike id) fun _ => .pure _
      rintro u v ⟨rfl, rfl⟩
      exact lockForReading_mirrors ⟨rfl, rfl⟩ (hfree id a hc)

/-- A dump shows the same when no read of a claim is in progress on a cell that it looks at. -/
theorem dump_still (hfree : ∀ k e id a, s.thread.kept.get? k = some e → e.cell = .handle id a →
    ∀ sh, s.sharing.get? id = some sh → sh.readers = 0) : Mirrored (still b s) dump := by
  have hkept (k : KeptId) {β : Type} {f : Kept → Action β}
      (hf : ∀ e, s.thread.kept.get? k = some e → Mirrored (still b s) (f e)) :
      Mirrored (still b s) (kept k >>= f) := by
    rintro u v ⟨rfl, rfl⟩
    rw [bind_apply, bind_apply]
    cases hk : u.thread.kept.get? k with
    | none =>
      rw [kept_none hk, kept_none (s := u.onBuild b) hk]
      exact .fail ⟨rfl, rfl⟩
    | some e =>
      rw [kept_some hk, kept_some (s := u.onBuild b) hk]
      exact hf e hk u (u.onBuild b) ⟨rfl, rfl⟩
  refine Mirrored.read (R := still b s) (k := fun s => (s.thread.cells.entries.mapM fun p => do
      return (p.1, ← viewCell (← kept p.2))) >>= fun cells => pure (Answer.dump cells
        s.thread.claims.entries (s.thread.known.map fun o => (o, s.thread.ledger.count o))))
    (fun u v h => by rw [h.1, h.2]; rfl) fun t => .bind (.mapM (fun p => ?_) _) fun _ => .pure _
  exact hkept p.2 fun e he =>
    .bind (viewCell_still fun id a => hfree p.2 e id a he) fun _ => .pure _

end Action

/-! ## Setting up -/

/-- The process has nothing to go by when it first needs settings: no file, and no mode in its
environment. It needs none before functions are installed. -/
structure State.Unset (s : State) : Prop where
  file : s.file = none
  mode : s.namedMode = none
  settings : s.functions = none → s.settings = none

namespace State

/-- Only the word about it tells of the build. -/
theorem configure_onBuild (s : State) (c : Settings) (b : Build) :
    (s.configure c).onBuild b = (s.onBuild b).configure c := rfl

namespace Unset

variable (h : s.Unset)

include h

theorem onBuild (b : Build) : (s.onBuild b).Unset :=
  ⟨h.file, h.mode, h.settings⟩

/-- What the environment says can be served by every build. -/
theorem serves : (({} : Settings).overlay s.lookup).validate s.build = .ok () :=
  Settings.validate_overlay_default fun m hm => by
    rw [show (s.lookup refcountModeVar).bind RefcountMode.parse? = none from h.mode] at hm
    cases hm

theorem loading : s.loading = .ok (({} : Settings).overlay s.lookup) := by
  rw [State.loading, h.file, if_neg (fun hf => by cases hf.2)]
  simp only [Settings.start, bind, Except.bind, h.serves]

theorem stored (hn : s.settings = none) : s.stored = ({} : Settings).overlay s.lookup := by
  rw [State.stored, hn, h.loading]
  rfl

theorem loaded (hn : s.settings = none) :
    s.loaded = { s with settings := some (({} : Settings).overlay s.lookup) } := by
  rw [State.loaded, hn, h.loading]

theorem putInPlace (hn : s.settings = none) (c : Settings) :
    s.putInPlace c = { s with settings := some c }.configure c := by
  rw [State.putInPlace, h.loaded hn]

/-- **The first installation takes effect**, with the settings that the environment gives. -/
theorem installing (hf : s.functions = none) (f g : Library) :
    (Op.native (.install f g)).course s = .done (.flag true)
      { { s with settings := some (({} : Settings).overlay s.lookup) }.configure
          (({} : Settings).overlay s.lookup) with functions := some ⟨f, g⟩ } := by
  have hcalling : s.calling.Unset := ⟨h.file, h.mode, h.settings⟩
  have hn : s.calling.settings = none := h.settings hf
  have hcall := Action.callNative_install (s := s.calling) (f := f) (g := g) hf
  rw [hcalling.stored hn, Settings.overlay_overlay, hcalling.serves, hcalling.putInPlace hn]
    at hcall
  exact Action.unwinding_done (Action.nativeCall_done hcall)

end Unset

end State

/-! ## Operations -/

namespace Op

/-- The operation asks for the lock of the cell. A dump asks for those of all cells. -/
def Asks (op : Op) (s : State) (id : SlotId) : Prop :=
  (op.Looks ∨ op.ReadsOwned ∨ op.Changes) ∧ (op.cell? s).bind Cell.shared? = some id ∨
    op = .dump ∧ ∃ k e, s.thread.kept.get? k = some e ∧ e.cell.shared? = some id

/-- Operations that set nothing up but native functions. -/
def Neutral (op : Op) : Prop :=
  op.SetsUp → ∃ f g, op = .native (.install f g)

end Op

section Courses

variable (hl : s.Locked L) (h : ∀ id ∈ L, ¬ op.Asks s id)

include hl h

/-- What an operation may do when the locks in the list are held. -/
theorem course_rebuilt (hop : op ≠ .dump) (hset : ¬ op.SetsUp) :
    (op.course s).Mirrors (.rebuilt b L (op.window s)) Eq (op.course (s.onBuild b)) := by
  let S : Scope := { op.scope s True with
    looks := fun id => id ∉ L ∧ ∀ i, op.reading? s = some i → i = id
    changes := fun id => id ∉ L
    writes := fun _ => True
    setup := False }
  have hfree {id : SlotId} {a : Access} (hc : op.cell? s = some (.handle id a))
      (hasks : op.Looks ∨ op.ReadsOwned ∨ op.Changes) : id ∉ L :=
    fun hid => h id hid (.inl ⟨hasks, by rw [hc]; rfl⟩)
  have hat : Action.Cellular.At S (perform op) s := by
    refine Action.perform_at trivial (fun _ _ _ => trivial)
      (fun _ => ⟨fun _ _ _ => trivial, fun _ _ => trivial⟩) (fun hs => absurd hs hset)
      (fun _ _ _ _ => trivial) (fun h => Op.reading?_eq_none h.not_reads) (fun h c hc => ?_)
      (fun h c hc => ?_) (fun h c hc => ?_) fun hd => absurd hd hop
    · have hr : op.reading? s = c.shared? := by rw [Op.reading?_eq h, hc, Option.bind_some]
      cases c with
      | own => exact hr
      | handle id a =>
        have hreads : (op.reading? s).isSome := by
          rw [hr]
          rfl
        refine ⟨hreads, hfree hc (.inr (.inl h)), fun i hi => ?_⟩
        rw [hr] at hi
        exact (Option.some.inj hi).symm
    · cases c with
      | own => trivial
      | handle id a =>
        refine ⟨hfree hc (.inl h), fun i hi => ?_⟩
        rw [Op.reading?_eq_none h.not_reads] at hi
        cases hi
    · cases c with
      | own => trivial
      | handle id a => exact hfree hc (.inr (.inr h))
  have hfits : (Likeness.rebuilt b L (op.window s)).Fits S := by
    refine Action.fits_rebuilt trivial (fun h => h) (fun g hg => ?_) (fun id h => h.1)
      (fun id h => h) fun hr id access hlooks => ?_
    · by_cases ha : g.moment = .acquired
      · have hnone : op.reading? s = none := hg ha
        rw [Op.window, hnone]
        split <;> rfl
      · exact if_neg ha
    · obtain ⟨i, hi⟩ := Option.isSome_iff_exists.1 hr
      refine Action.readOwned_rebuilt access hlooks.1 fun g hg => ?_
      rw [Op.window, if_pos hg, hi, hlooks.2 i hi, Option.toList_some]
  obtain ⟨a, ha, hcell⟩ := Action.unwinding_at hat
  have hm := hcell.mirrors hfits s (s.onBuild b) ⟨rfl, hl⟩
  rwa [← ha s rfl, ← ha (s.onBuild b) rfl] at hm

theorem dump_rebuilt (hop : op = .dump) :
    (op.course s).Mirrors (.rebuilt b L W) Eq (op.course (s.onBuild b)) := by
  subst hop
  have hm := Action.dump_still (b := b) (s := s) (fun k e id a he hc sh hsh => ?_) s (s.onBuild b)
    ⟨rfl, rfl⟩
  · show (Action.unwinding Action.dump s).Mirrors _ _ (Action.unwinding Action.dump (s.onBuild b))
    generalize hx : Action.dump s = x, hy : Action.dump (s.onBuild b) = y at hm
    cases hm with
    | done hv ht =>
      obtain ⟨rfl, rfl⟩ := ht
      rw [Action.unwinding_done hx, Action.unwinding_done hy]
      exact .done hv ⟨rfl, hl⟩
    | fail ht =>
      obtain ⟨rfl, rfl⟩ := ht
      rw [Action.unwinding_fail hx rfl, Action.unwinding_fail hy rfl]
      exact .fail ⟨rfl, hl⟩
    | halt ht =>
      obtain ⟨rfl, rfl⟩ := ht
      rw [Action.unwinding_halt hx, Action.unwinding_halt hy]
      exact .halt rfl
    | send ht => exact ht.elim
  · have hasks : Op.dump.Asks s id := .inr ⟨rfl, k, e, he, by rw [hc]; rfl⟩
    exact Action.free_of_not_mem hl (fun hid => h id hid hasks) hsh

omit h in
theorem install_rebuilt (hs : s.Unset) (f g : Library) :
    ((Op.native (.install f g)).course s).Mirrors (.rebuilt b L W) Eq
      ((Op.native (.install f g)).course (s.onBuild b)) := by
  cases hf : s.functions with
  | none =>
    rw [hs.installing hf, (hs.onBuild b).installing hf]
    exact .done rfl ⟨rfl, hl.same rfl⟩
  | some fs =>
    rw [course_installed hf, course_installed (s := s.onBuild b) hf]
    exact .done rfl ⟨rfl, hl⟩

/-- **An operation goes the same way on any build** if it asks for no lock that is held. -/
theorem course_onBuild (hs : s.Unset) (hop : op.Neutral) :
    (op.course s).Mirrors (.rebuilt b L (op.window s)) Eq (op.course (s.onBuild b)) := by
  by_cases hset : op.SetsUp
  · obtain ⟨f, g, rfl⟩ := hop hset
    exact install_rebuilt hl hs f g
  · by_cases hd : op = .dump
    · exact dump_rebuilt hl h hd
    · exact course_rebuilt hl h hd hset

end Courses

end ClaimCells
