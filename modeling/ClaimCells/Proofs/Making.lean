import ClaimCells.Proofs.Idle
import ClaimCells.Proofs.Verbs

/-!
# Making and ending cells

`CellOp.Does` says for every operation on cells which deeds it does, what it answers, and what it
leaves under its keys. A new cell gets a slot of its own, with a number that was never used; a cell
that ends takes its slot along unless it was one handle of several.

Main result: `performCell_does`.
-/

namespace ClaimCells

variable {α β : Type} {s s' t : State} {l l' : List Cell} {ds ds' es : List Deed} {H : List Claim}
  {key new : String} {k : KeptId} {e : Kept} {c : Cell} {v : Slot} {o : ObjectId} {r : Reply}

open Action

/-! ## What is to be done -/

/-- The slot that a deed is done to. -/
def Deed.slot? : Deed → Option SlotId
  | .made id _ | .set id _ | .ended id | .shared id | .retained id | .dropped id => some id
  | .handed .. => none

/-- The object that a new cell starts with, if the claim on it is there. -/
def State.initial (s : State) : Option String → Option (Option ObjectId)
  | some key => (s.thread.claims.get? key).map some
  | none => some none

/-- The object that is produced for a new cell, unless there is a cause to fail. -/
def State.produced (s : State) : Option Cause → Option (Option ObjectId)
  | some _ => none
  | none => some (some s.thread.ledger.allocate.1)

/-- The variable of a new cell, if nothing is lacking that it is made of. -/
def Making.variable (s : State) : Making → Option Slot
  | .plain name claim => (s.initial claim).map (⟨.counted, .plain, name, ·⟩)
  | .plainTry name fault => (s.produced fault).map (⟨.counted, .plain, name, ·⟩)
  | .parameter name claim => (s.initial claim).map (⟨.counted, .parameter, name, ·⟩)
  | .parameterBorrowed name o | .parameterAdopt name o _ =>
    if o ∈ s.thread.known then some ⟨.counted, .parameter, name, some o⟩ else none
  | .temporary => some ⟨.counted, .temp, temporaryName, none⟩
  | .shared name claim => (s.initial claim).map (⟨.counted, .shared, name, ·⟩)
  | .sharedTry name fault => (s.produced fault).map (⟨.counted, .shared, name, ·⟩)

/-- The outer shape of the cell, unless it is put behind handles. -/
def Making.form : Making → Option Form
  | .plain .. | .plainTry .. => some .plain
  | .parameter .. | .parameterBorrowed .. | .parameterAdopt .. => some .parameter
  | .temporary => some .temporary
  | .shared .. | .sharedTry .. => none

/-- A cell that is made may be kept. -/
theorem Making.fits {s : State} {v : Slot} {id : SlotId} (how : Making)
    (h : how.variable s = some v) : (newCell how.form id).Fits v := by
  cases how with
  | plain | plainTry | parameter =>
    obtain ⟨x, -, rfl⟩ := Option.map_eq_some_iff.1 h
    refine ⟨rfl, fun _ _ _ => nofun, ?_⟩
    rintro _ _ ⟨⟩
    simp
  | shared | sharedTry =>
    obtain ⟨x, -, rfl⟩ := Option.map_eq_some_iff.1 h
    exact ⟨rfl, nofun, nofun⟩
  | parameterBorrowed | parameterAdopt =>
    obtain ⟨-, h⟩ := Option.ite_none_right_eq_some.1 h
    cases h
    refine ⟨rfl, fun _ _ _ => nofun, ?_⟩
    rintro _ _ ⟨⟩
    simp
  | temporary =>
    cases h
    refine ⟨rfl, fun _ _ _ => nofun, ?_⟩
    rintro _ _ ⟨⟩
    simp

/-- Why no cell is made: something is lacking that it is made of, its document cannot be read, or
a claim or a count is refused. -/
def Making.Fails (s : State) (how : Making) (f : Failure) : Prop :=
  how.variable s = none ∨ (∃ d, f = .document d) ∨ ∃ p, f = .panic p

/-- What is done with the cell under a key; without one nothing is done. -/
def State.At (s : State) (key : String) (ds : List Deed) (r : Reply)
    (P : KeptId → Kept → Prop) : Prop :=
  match s.thread.cells.get? key with
  | none => ds = [] ∧ r = .error .noSuchCell
  | some k => ∃ e, s.thread.kept.get? k = some e ∧ P k e

/-- What is done with a cell that no operation uses. -/
def Kept.Free (e : Kept) (ds : List Deed) (r : Reply) (P : Prop) : Prop :=
  e.users ≠ 0 ∧ ds = [] ∧ r = .error .busy ∨ e.users = 0 ∧ P

/-- What an operation on cells does and answers, and the state that it leaves. -/
def CellOp.Does (s : State) : CellOp → List Deed → Reply → State → Prop
  | .make key how, ds, r, s' =>
    (∃ v t u es, how.variable s = some v ∧ Onward s t ∧ Onward s u ∧ Displaces u key es ∧
      ds = making how.form t.next v ++ es ∧ Answered .nothing r ∧
      (es = [] → r = .ok .nothing ∧ s'.cellOf key = some (newCell how.form t.next))) ∨
    Declines (how.Fails s) ds r
  | .use key bound verb, ds, r, s' => s.At key ds r fun k e =>
    ∃ v, s.slots.get? e.cell.slot = some v ∧
      Trails k e.cell (Uses (verb.Blocked e) [] (verb.Does s (e.cell.via bound) v bound)) s' ds r
  | .drop key, ds, r, _ => s.At key ds r fun _ e =>
    e.Free ds r (ds = e.cell.ending s ∧ Answered .nothing r)
  | .release key, ds, r, _ => s.At key ds r fun _ e => match e.cell with
    | .handle id a => e.Free ds r (ds = (Cell.handle id a).ending s ∧ Answered .nothing r)
    | .own .. => ds = [] ∧ r = .error .noSuchCell
  | .intoInner key new, ds, r, s' => s.At key ds r fun _ e => match e.cell with
    | .own .parameter id => e.Free ds r (Displaces s new ds ∧ Answered .nothing r ∧
        (∀ d ∈ ds, d.slot? ≠ some id) ∧
        (ds = [] → r = .ok .nothing ∧ s'.cellOf new = some (.own .plain id)))
    | _ => ds = [] ∧ r = .error .noSuchCell

/-- How an operation ends: whatever it leaves in the hands when it fails is on top. -/
def Performs (s : State) (P : List Deed → Reply → State → Prop) : Post Answer :=
  fun ds l r s' => l = [] ∧ P ds r s' ∧ ∃ own, Came s (own ++ s.thread.hands) s' ∧
    ∀ x, r = .ok x → own = []

theorem State.At.of_some {P : KeptId → Kept → Prop} (hc : s.thread.cells.get? key = some k)
    (hk : s.thread.kept.get? k = some e) (h : P k e) : s.At key ds r P := by
  rw [State.At, hc]
  exact ⟨e, hk, h⟩

theorem State.At.of_none {P : KeptId → Kept → Prop} (hc : s.thread.cells.get? key = none) :
    s.At key [] (.error .noSuchCell) P := by
  rw [State.At, hc]
  exact ⟨rfl, rfl⟩

/-- Only the slot of a cell is ended with it. -/
theorem Cell.slot_of_ending {d : Deed} (h : d ∈ c.ending s) : d.slot? = some c.slot := by
  cases c with
  | own form id =>
    rw [List.mem_singleton.1 h]
    rfl
  | handle id a =>
    rw [Cell.ending] at h
    split at h <;> simp only [List.mem_cons, List.not_mem_nil, or_false] at h
    · rcases h with rfl | rfl <;> rfl
    · rw [h]
      rfl

/-- Emptying a variable touches no other slot. -/
theorem Cell.slot_of_emptying {d : Deed} (h : d ∈ c.emptying v) : d.slot? = some c.slot := by
  rw [Cell.emptying] at h
  cases hv : v.value with
  | none =>
    rw [hv] at h
    cases h
  | some o =>
    rw [hv] at h
    rw [List.mem_singleton.1 h]
    rfl

/-- A slot with an owner in the arms is the slot of no kept cell. -/
theorem Sound.slot_ne (hs : Sound l s) {form : Form} {id : SlotId} (hl : .own form id ∈ l)
    (hk : s.thread.kept.get? k = some e) : e.cell.slot ≠ id := by
  intro he
  have hfree := hs.not_shared_of_arms hl
  obtain ⟨c, users, readers, exclusive⟩ := e
  cases c with
  | handle i a =>
    obtain ⟨sh, hsh⟩ := hs.sharing_of_kept hk rfl
    rw [show i = id from he, hfree] at hsh
    cases hsh
  | own f i =>
    have h1 := hs.owners id
    have h2 := le_tally_kept hk (Cell.owns id)
    have h3 := le_inArms hl (Cell.owns id)
    rw [show i = id from he] at h2
    rw [Cell.owns_own, if_pos rfl] at h2 h3
    split at h1 <;> omega

namespace Action

open Act (Does)

/-! ## Making -/

/-- How getting hold of the initial object of a cell ends. -/
def Provides (s : State) (value : Option (Option ObjectId)) : Post (Option ObjectId) :=
  fun ds l r s' => ds = [] ∧ l = [] ∧ match r with
    | .ok x => value = some x ∧
        Came s ((x.map (⟨.counted, ·⟩ : ObjectId → Claim)).toList ++ s.thread.hands) s'
    | .error _ => value = none ∧ Came s s.thread.hands s'

theorem takeInitial_does (claim : Option String) :
    (takeInitial claim s).Does (Provides s (s.initial claim)) [] [] s := by
  cases claim with
  | none => exact .done ⟨rfl, rfl, rfl, .refl s⟩
  | some key =>
    rw [takeInitial, bind_apply, State.initial]
    cases ho : s.thread.claims.get? key with
    | none =>
      rw [takeClaim_none ho, fail_bind]
      exact .fail ⟨rfl, rfl, rfl, .refl s⟩
    | some o =>
      rw [takeClaim_some ho, done_bind]
      have m := Move.taken (l := []) ho
      exact .idle m (.done ⟨rfl, rfl, rfl, Move.came m rfl rfl⟩)

theorem produceInitial_does (fault : Option Cause) :
    (produceInitial fault s).Does (Provides s (s.produced fault)) [] [] s := by
  cases fault with
  | some c => exact .fail ⟨rfl, rfl, rfl, .refl s⟩
  | none =>
    have m := Move.allocated (l := []) (s := s)
    exact .idle m (.done ⟨rfl, rfl, rfl, Move.came m rfl rfl⟩)

/-- How making a cell ends: it is in the arms. -/
def Brings (s : State) (how : Making) : Post Cell := fun ds l r s' => match r with
  | .ok c => ∃ v t, how.variable s = some v ∧ Onward s t ∧
      ds = making how.form t.next v ∧ l = [c] ∧ c = newCell how.form t.next ∧
      s'.slots.get? t.next = some v ∧ Came s s.thread.hands s' ∧ c.First s'
  | .error f => ds = [] ∧ l = [] ∧ how.Fails s f ∧ ∃ own, Came s (own ++ s.thread.hands) s'

theorem Makes.brings {how : Making} (value : Option ObjectId) {r : Except Failure Cell}
    (hc : Came s ((value.map (⟨.counted, ·⟩ : ObjectId → Claim)).toList ++ s.thread.hands) t)
    (hv : how.variable s = some v)
    (h : Makes t [] v s.thread.hands how.form ds l r s') : Brings s how ds l r s' := by
  cases r with
  | ok c =>
    obtain ⟨rfl, rfl, rfl, hs', hc', hone⟩ := h
    exact ⟨v, t, hv, hc.toOnward, rfl, rfl, rfl, hs', hc.trans hc', hone⟩
  | error f =>
    obtain ⟨rfl, rfl, rfl, hc'⟩ := h
    exact ⟨rfl, rfl, .inr (.inr ⟨_, rfl⟩), _, hc.trans (hc.hands ▸ hc')⟩

section Parts

variable {how : Making} {a : Action (Option ObjectId)} {value : Option (Option ObjectId)}
  {name : String}

/-- A cell of its own is made from the object that is provided. -/
theorem makingOwn_does (hs : Sound [] s) (h : (a s).Does (Provides s value) [] [] s) (form : Form)
    (hv : ∀ x, value = some x → how.variable s = some ⟨.counted, form.kind, name, x⟩)
    (hform : how.form = some form) (hnone : value = none → how.variable s = none) :
    ((a >>= makeOwn form name) s).Does (Brings s how) [] [] s := by
  refine .seq hs h ?_ ?_
  · rintro ds l x t ht ⟨rfl, rfl, rfl, hc⟩
    refine (makeOwn_does ht form x hc.hands).imp fun ds l r s' hm => ?_
    exact Makes.brings x hc (hv x rfl) (hform ▸ hm)
  · rintro ds l f t - ⟨rfl, rfl, hlack, hc⟩
    exact ⟨rfl, rfl, .inl (hnone hlack), [], hc⟩

/-- A shared cell is made from the object that is provided. -/
theorem makingShared_does (hs : Sound [] s) (h : (a s).Does (Provides s value) [] [] s)
    (hv : ∀ x, value = some x → how.variable s = some ⟨.counted, .shared, name, x⟩)
    (hform : how.form = none) (hnone : value = none → how.variable s = none) :
    ((a >>= makeShared .counted name) s).Does (Brings s how) [] [] s := by
  refine .seq hs h ?_ ?_
  · rintro ds l x t ht ⟨rfl, rfl, rfl, hc⟩
    refine (makeShared_does ht hc.hands).imp fun ds l r s' hm => ?_
    exact Makes.brings x hc (hv x rfl) (hform ▸ hm)
  · rintro ds l f t - ⟨rfl, rfl, hlack, hc⟩
    exact ⟨rfl, rfl, .inl (hnone hlack), [], hc⟩

end Parts

theorem adoptBorrowed_does {how : Making} {name : String} (hs : Sound [] s)
    (hv : how.variable s = some ⟨.counted, .parameter, name, some o⟩)
    (hform : how.form = some .parameter) :
    (adoptBorrowed name o s).Does (Brings s how) [] [] s := by
  refine .seq hs (acquire_does hs _) ?_ ?_
  · rintro ds l _ t ht ⟨⟨rfl, rfl, hc⟩, -⟩
    refine (makeOwn_does ht .parameter (some o) hc.hands).imp ?_
    exact fun ds l r s' hm => Makes.brings (some o) hc hv (hform ▸ hm)
  · rintro ds l f t - ⟨⟨rfl, rfl, hp, hc⟩, -⟩
    exact ⟨rfl, rfl, .inr (.inr hp), [], hc⟩

theorem adoptOwned_does {how : Making} {name : String} (hs : Sound [] s)
    (hv : how.variable s = some ⟨.counted, .parameter, name, some o⟩)
    (hform : how.form = some .parameter) :
    (adoptArgument name o .owned s).Does (Brings s how) [] [] s := by
  have m := Move.adopted (l := []) (s := s) ⟨.counted, o⟩
  have hc : Came s (⟨.counted, o⟩ :: s.thread.hands) _ := Move.came m rfl rfl
  refine .idle m ((makeOwn_does (m.sound hs) .parameter (some o) hc.hands).imp ?_)
  exact fun ds l r s' hm => Makes.brings (some o) hc hv (hform ▸ hm)

/-- **Making a cell** gives it a slot of its own, which has the object it is made from. -/
theorem make_does (how : Making) (hs : Sound [] s) :
    (make how s).Does (Brings s how) [] [] s := by
  cases how with
  | plain name claim =>
    exact makingOwn_does hs (takeInitial_does claim) .plain
      (fun x hx => by rw [Making.variable, hx]; rfl) rfl fun h => by rw [Making.variable, h]; rfl
  | plainTry name fault =>
    exact makingOwn_does hs (produceInitial_does fault) .plain
      (fun x hx => by rw [Making.variable, hx]; rfl) rfl fun h => by rw [Making.variable, h]; rfl
  | parameter name claim =>
    exact makingOwn_does hs (takeInitial_does claim) .parameter
      (fun x hx => by rw [Making.variable, hx]; rfl) rfl fun h => by rw [Making.variable, h]; rfl
  | temporary =>
    refine (makeOwn_does hs .temporary none rfl).imp fun ds l r s' hm => ?_
    exact Makes.brings none (.refl s) rfl hm
  | shared name claim =>
    exact makingShared_does hs (takeInitial_does claim)
      (fun x hx => by rw [Making.variable, hx]; rfl) rfl fun h => by rw [Making.variable, h]; rfl
  | sharedTry name fault =>
    exact makingShared_does hs (produceInitial_does fault)
      (fun x hx => by rw [Making.variable, hx]; rfl) rfl fun h => by rw [Making.variable, h]; rfl
  | parameterBorrowed name o =>
    rw [make, bind_apply]
    by_cases ho : o ∈ s.thread.known
    · rw [requireKnown_some ho, done_bind]
      exact adoptBorrowed_does hs (by rw [Making.variable, if_pos ho]) rfl
    · rw [requireKnown_none ho, fail_bind]
      exact .fail ⟨rfl, rfl, .inl (if_neg ho), [], .refl s⟩
  | parameterAdopt name o mode =>
    rw [make, bind_apply, decoded]
    cases OwnershipMode.decoder.decode (.value mode) with
    | error f => exact .fail ⟨rfl, rfl, .inr (.inl ⟨f, rfl⟩), [], .refl s⟩
    | ok m =>
      change ((requireKnown o >>= fun _ => adoptArgument name o m) s).Does _ _ _ _
      rw [bind_apply]
      by_cases ho : o ∈ s.thread.known
      · have hv : (Making.parameterAdopt name o mode).variable s =
            some ⟨.counted, .parameter, name, some o⟩ := by rw [Making.variable, if_pos ho]
        rw [requireKnown_some ho, done_bind]
        cases m with
        | owned => exact adoptOwned_does hs hv rfl
        | borrowed => exact adoptBorrowed_does hs hv rfl
      · rw [requireKnown_none ho, fail_bind]
        exact .fail ⟨rfl, rfl, .inl (if_neg ho), [], .refl s⟩

/-! ## Keeping what was made -/

theorem making_does (how : Making) (hs : Sound [] s) :
    (performCell (.make key how) s).Does (Performs s (CellOp.Does s (.make key how))) [] [] s := by
  refine .seq hs (make_does how hs) ?_ ?_
  · rintro ds l c u hu ⟨v, t, hv, ht, rfl, rfl, rfl, hthere, hc, hone⟩
    have hr : ∀ v', u.slots.get? (newCell how.form t.next).slot = some v' →
        (newCell how.form t.next).Fits v' := by
      intro v' hv'
      rw [slot_newCell, hthere] at hv'
      cases hv'
      exact how.fits hv
    refine .seq hu (keepCell_does hu hr hone) ?_ ?_
    · rintro ds l _ s' - ⟨⟨rfl, rfl, hc'⟩, hkept⟩
      refine .done ⟨rfl, .inl ⟨v, t, u, _, hv, ht, hc.toOnward, hu.displaces key, rfl, .inl rfl,
        fun hnil => ⟨rfl, (hkept hnil).2⟩⟩, [], hc.stay hc', fun _ _ => rfl⟩
    · rintro ds l f s' - ⟨⟨rfl, rfl, ⟨p, rfl⟩, own, hc'⟩, hkept⟩
      rw [hc.hands] at hc'
      exact ⟨rfl, .inl ⟨v, t, u, _, hv, ht, hc.toOnward, hu.displaces key, rfl, .inr ⟨p, rfl⟩,
        fun hnil => nomatch (hkept hnil).1⟩, own, hc.trans hc', nofun⟩
  · rintro ds l f s' - ⟨rfl, rfl, hf, own, hc⟩
    exact ⟨rfl, .inr ⟨rfl, f, rfl, hf⟩, own, hc, nofun⟩

/-! ## Ending -/

theorem takeCell_none (h : s.thread.cells.get? key = none) :
    takeCell key s = .fail .noSuchCell s := by
  rw [takeCell, bind_apply, keptId_none h, fail_bind]

/-- What is done with a cell that is taken away from its key, unless it is in use. -/
theorem takingCell_does {a : Cell → Action Answer} {P : List Deed → Reply → State → Prop}
    (hs : Sound [] s) (hc : s.thread.cells.get? key = some k) (hk : s.thread.kept.get? k = some e)
    (hp : e.users ≠ 0 → P [] (.error .busy) s)
    (h : e.users = 0 → ∀ t, t = (s.inThread fun t =>
        { t with cells := t.cells.erase key, kept := t.kept.erase k }) →
      Sound [e.cell] t → Came s s.thread.hands t → (a e.cell t).Does (Performs s P) [] [e.cell] t) :
    ((takeCell key >>= a) s).Does (Performs s P) [] [] s := by
  rw [bind_apply]
  by_cases hu : e.users = 0
  · have m := Move.parted (l := []) hc hk hu
    rw [takeCell_free hc hk hu, done_bind]
    exact .idle m (h hu _ rfl (m.sound hs) (Came.unkept hk hu m rfl rfl))
  · rw [takeCell_busy hc hk hu, fail_bind]
    exact .fail ⟨rfl, hp hu, [], .refl s, nofun⟩

/-- An answer after a cell in the arms was ended. -/
theorem ending_does {a : Action Unit} {P : List Deed → Reply → State → Prop}
    (hs : Sound l t) (hc : Came s s.thread.hands t) (h : (a t).Does (Ends t ds) [] l t)
    (hp : ∀ r s', Answered .nothing r → P ds r s') :
    ((a >>= fun _ => pure Answer.nothing) t).Does (Performs s P) [] l t := by
  refine .seq hs h ?_ ?_
  · rintro ds l _ s' - ⟨rfl, rfl, hc'⟩
    exact .done ⟨rfl, hp _ _ (.inl rfl), [], hc.stay hc', fun _ _ => rfl⟩
  · rintro ds l f s' - ⟨rfl, rfl, ⟨p, rfl⟩, own, hc'⟩
    rw [hc.hands] at hc'
    exact ⟨rfl, hp _ _ (.inr ⟨p, rfl⟩), own, hc.trans hc', nofun⟩

theorem dropping_does (hs : Sound [] s) :
    (performCell (.drop key) s).Does (Performs s (CellOp.Does s (.drop key))) [] [] s := by
  change ((takeCell key >>= fun c => destroy c >>= fun _ => pure Answer.nothing) s).Does _ _ _ _
  cases hc : s.thread.cells.get? key with
  | none =>
    rw [bind_apply, takeCell_none hc, fail_bind]
    exact .fail ⟨rfl, .of_none hc, [], .refl s, nofun⟩
  | some k =>
    obtain ⟨e, hk⟩ := Option.isSome_iff_exists.1 (hs.thread.keyed key k hc)
    refine takingCell_does hs hc hk (fun hu => .of_some hc hk (.inl ⟨hu, rfl, rfl⟩)) ?_
    rintro hu t rfl ht hc'
    exact ending_does ht hc' (destroy_does ht) fun r s' hr =>
      .of_some hc hk (.inr ⟨hu, rfl, hr⟩)

theorem releasingHandle_does (hs : Sound [] s) :
    (performCell (.release key) s).Does (Performs s (CellOp.Does s (.release key))) [] [] s := by
  change ((cell key >>= fun c => sharedSlot c >>= fun id => takeCell key >>= fun _ =>
    releaseHandle id >>= fun _ => pure Answer.nothing) s).Does _ _ _ _
  cases hc : s.thread.cells.get? key with
  | none =>
    simp only [bind_apply, cell_none hc, fail_bind]
    exact .fail ⟨rfl, .of_none hc, [], .refl s, nofun⟩
  | some k =>
    obtain ⟨e, hk⟩ := Option.isSome_iff_exists.1 (hs.thread.keyed key k hc)
    have hat : ∀ P : KeptId → Kept → Prop, ∀ ds r, P k e → s.At key ds r P :=
      fun P ds r h => .of_some hc hk h
    rw [bind_apply, cell_some hc hk, done_bind]
    obtain ⟨c, users, readers, exclusive⟩ := e
    cases c with
    | own form id => exact .fail ⟨rfl, hat _ _ _ ⟨rfl, rfl⟩, [], .refl s, nofun⟩
    | handle id a =>
      change ((takeCell key >>= fun _ => releaseHandle id >>= fun _ => pure Answer.nothing) s).Does _ _ _ _
      refine takingCell_does hs hc hk (fun hu => hat _ _ _ (.inl ⟨hu, rfl, rfl⟩)) ?_
      rintro hu t rfl ht hc'
      exact ending_does ht hc' (releaseHandle_does ht) fun r s' hr => hat _ _ _ (.inr ⟨hu, rfl, hr⟩)

theorem keepingInner_does (hs : Sound [] s) :
    (performCell (.intoInner key new) s).Does (Performs s (CellOp.Does s (.intoInner key new)))
      [] [] s := by
  change ((cell key >>= fun c => innerCell c >>= fun inner => takeCell key >>= fun _ =>
    keepCell new inner >>= fun _ => pure Answer.nothing) s).Does _ _ _ _
  cases hc : s.thread.cells.get? key with
  | none =>
    simp only [bind_apply, cell_none hc, fail_bind]
    exact .fail ⟨rfl, .of_none hc, [], .refl s, by simp⟩
  | some k =>
    obtain ⟨e, hk⟩ := Option.isSome_iff_exists.1 (hs.thread.keyed key k hc)
    have hat : ∀ P : KeptId → Kept → Prop, ∀ ds r, P k e → s.At key ds r P :=
      fun P ds r h => .of_some hc hk h
    rw [bind_apply, cell_some hc hk, done_bind]
    obtain ⟨c, users, readers, exclusive⟩ := e
    cases c with
    | handle id a => exact .fail ⟨rfl, hat _ _ _ ⟨rfl, rfl⟩, [], .refl s, by simp⟩
    | own form id =>
      cases form with
      | plain | temporary => exact .fail ⟨rfl, hat _ _ _ ⟨rfl, rfl⟩, [], .refl s, by simp⟩
      | parameter =>
        change ((takeCell key >>= fun _ => keepCell new (.own .plain id) >>=
          fun _ => pure Answer.nothing) s).Does _ _ _ _
        refine takingCell_does hs hc hk (fun hu => hat _ _ _ (.inl ⟨hu, rfl, rfl⟩)) ?_
        rintro hu t rfl ht hc'
        generalize hthread : State.inThread _ _ = t at ht hc' ⊢
        have hl := List.mem_singleton_self (Cell.own .parameter id)
        have m := Move.reshaped (s := t) .plain hl
        have ht' := m.sound ht
        rw [List.erase_cons_head] at m ht'
        have hfits : ∀ v, t.slots.get? id = some v → (Cell.own .plain id).Fits v := by
          intro v hv
          rw [← hthread] at hv
          have hf := hs.thread.fits k _ v hk hv
          refine ⟨hf.counted, fun _ _ _ => hf.unshared _ _ rfl, ?_⟩
          rintro _ _ ⟨⟩
          rw [← hf.temporary _ _ rfl]
          simp
        have hdisp : Displaces s new (t.displacing new) := by
          refine (ht.displaces new).imp_right ?_
          rintro ⟨k', e', u, hc₁, hk₁, hes⟩
          rw [← hthread] at hc₁ hk₁
          replace hc₁ := (Table.get?_erase _ _ _).symm.trans hc₁
          replace hk₁ := (Table.get?_erase _ _ _).symm.trans hk₁
          split at hc₁
          · cases hc₁
          split at hk₁
          · cases hk₁
          exact ⟨k', e', u, hc₁, hk₁, hes⟩
        have hapart : ∀ d ∈ t.displacing new, d.slot? ≠ some id := by
          intro d hd hslot
          rcases ht.displaces new with hnil | ⟨k', e', u, -, hk₁, hes⟩
          · rw [hnil] at hd
            cases hd
          · rw [hes] at hd
            rw [Cell.slot_of_ending hd] at hslot
            exact ht.slot_ne hl hk₁ (Option.some.inj hslot)
        refine .idle m (.seq ht' (keepCell_does ht' hfits (by rintro _ _ ⟨⟩)) ?_ ?_)
        · rintro ds l _ s' - ⟨⟨rfl, rfl, hc₂⟩, hkept⟩
          exact .done ⟨rfl, hat _ _ _ (.inr ⟨hu, hdisp, .inl rfl, hapart, fun hnil =>
            ⟨rfl, (hkept hnil).2⟩⟩), [], hc'.stay hc₂, fun _ _ => rfl⟩
        · rintro ds l f s' - ⟨⟨rfl, rfl, ⟨p, rfl⟩, own, hc₂⟩, hkept⟩
          rw [hc'.hands] at hc₂
          exact ⟨rfl, hat _ _ _ (.inr ⟨hu, hdisp, .inr ⟨p, rfl⟩, hapart, fun hnil =>
            by simpa using (hkept hnil).1⟩), own, hc'.trans hc₂, by simp⟩

/-- **Every operation on cells** does and answers what `CellOp.Does` says. -/
theorem performCell_does (op : CellOp) (hs : Sound [] s) :
    (performCell op s).Does (Performs s (CellOp.Does s op)) [] [] s := by
  cases op with
  | make key how => exact making_does how hs
  | drop key => exact dropping_does hs
  | release key => exact releasingHandle_does hs
  | intoInner key new => exact keepingInner_does hs
  | use key bound verb =>
    cases hc : s.thread.cells.get? key with
    | none =>
      rw [performCell, useCell, withCell_missing hc]
      exact .fail ⟨rfl, .of_none hc, [], .refl s, nofun⟩
    | some k =>
      obtain ⟨e, hk⟩ := Option.isSome_iff_exists.1 (hs.thread.keyed key k hc)
      obtain ⟨v, hv, hreal⟩ := hs.stands_of_kept hk
      refine (useCell_does hs hc hk hv hreal).imp ?_
      rintro ds l r s' ⟨rfl, htrails, hown⟩
      exact ⟨rfl, .of_some hc hk ⟨v, hv.slot, htrails⟩, hown⟩

end Action

end ClaimCells
