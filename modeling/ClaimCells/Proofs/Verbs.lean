import ClaimCells.Proofs.Keys
import ClaimCells.Operation

/-!
# What is done with a cell

`Verb.Does` says for every use of a cell which deeds it does and what it answers, given the cell,
its slot and the state when the use begins. A variable is changed by assigning, clearing and taking
alone, and each of them either does its one deed or fails before it.

Main result: `useCell_does`, every use of a kept cell does that, through the cell itself or through
a binding to it.
-/

namespace ClaimCells

variable {α β : Type} {s s' : State} {l l' : List Cell} {ds ds' : List Deed} {H : List Claim}
  {key : String} {k : KeptId} {e : Kept} {c : Cell} {v : Slot} {o : ObjectId}

open Action

/-! ## Deeds and answers -/

/-- An answer, or a panic that came after the deeds were done. -/
def Answered (a : Answer) (r : Reply) : Prop :=
  r = .ok a ∨ ∃ p, r = .error (.panic p)

/-- The deeds and the reply of an operation that fails without a deed. -/
def Declines (P : Failure → Prop) (ds : List Deed) (r : Reply) : Prop :=
  ds = [] ∧ ∃ f, r = .error f ∧ P f

/-- The ledger, or the lack of native functions, does not let a claim be gained. -/
def Refused (s : State) (c : Claim) (f : Failure) : Prop :=
  Gains s c (.error f) ∧ ∃ p, f = .panic p

/-- Binding a variable to an object. -/
def Binds (s : State) (c : Cell) (o : ObjectId) (ds : List Deed) (r : Reply) : Prop :=
  ds = [.set c.slot (some o)] ∧ Answered .nothing r ∨
    Declines (fun f => f = .panic .overflow ∨ Locked s c f) ds r

/-- The deeds of ending the cell that a key stood for, if it is ended. -/
def Displaces (s : State) (key : String) (ds : List Deed) : Prop :=
  ds = [] ∨ ∃ k e t, s.thread.cells.get? key = some k ∧ s.thread.kept.get? k = some e ∧
    ds = e.cell.ending t

theorem Sound.displaces (hs : Sound l s) (key : String) : Displaces s key (s.displacing key) := by
  rw [State.displacing]
  cases hn : s.thread.cells.get? key with
  | none => exact .inl rfl
  | some i =>
    obtain ⟨e, he⟩ := Option.isSome_iff_exists.1 (hs.thread.keyed key i hn)
    rw [Option.bind_some, he, Option.elim_some, Kept.leaving]
    split
    · exact .inr ⟨i, e, s, hn, he, rfl⟩
    · exact .inl rfl

/-- What clearing a cell answers. -/
def Cell.cleared (c : Cell) (v : Slot) : Answer :=
  match c with
  | .own .temporary _ => .flag v.value.isSome
  | _ => .nothing

/-- The answer to the question how many handles a shared cell has. -/
def Cell.counted (s : State) (c : Cell) (bound : Bool) : Reply :=
  match c with
  | .handle id _ => .ok (if bound then .bound (s.refcount id) true else .count (s.refcount id))
  | .own .. => .error .noSuchCell

/-- The answer to the question whether two handles lead to one cell. -/
def Cell.compared (s : State) (c : Cell) (other : String) : Reply :=
  match c, s.cellOf other with
  | .handle id _, some (.handle id' _) => .ok (.flag (id = id'))
  | _, _ => .error .noSuchCell

/-- What a use of a cell does and answers, with the cell `c` and its slot `v` in the state `s`. -/
def Verb.Does (s : State) (c : Cell) (v : Slot) (bound : Bool) :
    Verb → List Deed → Reply → Prop
  | .name, ds, r => ds = [] ∧ r = .ok (.text v.name)
  | .state, ds, r => ds = [] ∧ r = .ok (.text (stateText v))
  | .isBound, ds, r => ds = [] ∧ r = .ok (.flag v.value.isSome)
  | .read, ds, r =>
    (∃ o, v.value = some o ∧ ds = [] ∧ r = .ok (.object o)) ∨
      Declines (Lacks s c v .temporaryRead) ds r
  | .readOwned new, ds, r =>
    (∃ o, v.value = some o ∧ ds = [.handed new o] ∧ Answered (.object o) r) ∨
      Declines (fun f => Lacks s c v .temporaryRead f ∨
        ∃ o, v.value = some o ∧ Refused s ⟨v.realm, o⟩ f) ds r
  | .assign claim, ds, r =>
    (∃ o, s.thread.claims.get? claim = some o ∧ Binds s c o ds r) ∨
      s.thread.claims.get? claim = none ∧ Declines (· = .noSuchClaim) ds r
  | .assignBorrowed o, ds, r =>
    o ∈ s.thread.known ∧ (Binds s c o ds r ∨ Declines (Refused s ⟨v.realm, o⟩) ds r) ∨
      o ∉ s.thread.known ∧ Declines (· = .noSuchObject) ds r
  | .clear, ds, r =>
    v.value.isSome ∧ ds = [.set c.slot none] ∧ Answered (c.cleared v) r ∨
      (v.value = none ∧ (∃ id, c = .own .temporary id) ∧ ds = [] ∧ r = .ok (.flag false)) ∨
      Declines (fun f => Locked s c f ∨ Lacks s c v .temporaryTake f) ds r
  | .take new, ds, r =>
    (∃ o, v.value = some o ∧ (ds = [.set c.slot none, .handed new o] ∧ Answered (.object o) r ∨
        ds = [.set c.slot none] ∧ r = .error (.panic .overflow))) ∨
      Declines (fun f => Locked s c f ∨ Lacks s c v .temporaryTake f) ds r
  | .debug, ds, r => ds = [] ∧ ∃ t, r = .ok (.text t)
  | .refcount, ds, r => ds = [] ∧ r = c.counted s bound
  | .sameAs other, ds, r => ds = [] ∧ r = c.compared s other
  | .retain new, ds, r =>
    (∃ id a, c = .handle id a ∧ ∃ es, Displaces s new es ∧ ds = .retained id :: es ∧
        Answered .nothing r) ∨
      (∃ form id, c = .own form id) ∧ Declines (· = .noSuchCell) ds r

/-- Why a kept cell cannot be used: an operation in progress changes it, or, when it is to be
changed, looks at it. -/
def Verb.Blocked (e : Kept) : Verb → Prop
  | .refcount | .sameAs _ | .retain _ => False
  | .assign _ | .assignBorrowed _ | .clear | .take _ => Busy e
  | _ => e.exclusive = true

/-- The cell, or a binding to it. -/
def Cell.via (c : Cell) (bound : Bool) : Cell :=
  if bound then c.binding else c

theorem Cell.Stands.via (h : c.Stands s v) (bound : Bool) : (c.via bound).Stands s v := by
  cases bound with
  | true => exact h.binding
  | false => exact h

@[simp] theorem Cell.slot_via (c : Cell) (bound : Bool) : (c.via bound).slot = c.slot := by
  cases bound <;> cases c <;> rfl

/-! Flags do not matter to what is found under a key. -/

theorem State.cellOf_flag {f : Kept → Kept} (hf : ∀ e : Kept, (f e).cell = e.cell) (s : State)
    (key : String) : (s.flag k f).cellOf key = s.cellOf key := by
  show ((s.thread.cells.get? key).bind (s.flag k f).thread.kept.get?).map Kept.cell = _
  rw [State.cellOf]
  cases s.thread.cells.get? key with
  | none => rfl
  | some k' =>
    rw [Option.bind_some, Option.bind_some, State.flag_kept]
    split
    · next hkk =>
      rw [hkk, Option.map_map]
      cases s.thread.kept.get? k with
      | none => rfl
      | some e => exact congrArg some (hf e)
    · rfl

theorem Displaces.of_flag {f : Kept → Kept} (hf : ∀ e : Kept, (f e).cell = e.cell)
    (h : Displaces (s.flag k f) key ds) : Displaces s key ds := by
  refine h.imp_right ?_
  rintro ⟨k', e, t, hc, hk, rfl⟩
  rw [State.flag_kept] at hk
  split at hk
  · next hkk =>
    obtain ⟨e₀, he₀, rfl⟩ := Option.map_eq_some_iff.1 hk
    exact ⟨k', e₀, t, hc, hkk ▸ he₀, by rw [hf]⟩
  · exact ⟨k', e, t, hc, hk, rfl⟩

namespace Action

open Act (Does)

/-! ## Looking -/

section Looking

variable {P : List Deed → Except Failure α → Prop} {R : List Deed → Reply → Prop}

/-- What is answered about a result. -/
theorem answering_does {a : Action α} {g : α → Answer} {Q : Post α} (hs : Sound l s)
    (h : (a s).Does Q ds l s) :
    ((a >>= fun x => pure (g x)) s).Does
      (fun ds l r s => ∃ r', Q ds l r' s ∧ r = r'.map g) ds l s := by
  refine .seq hs h ?_ ?_
  · exact fun ds l x s _ hq => .done ⟨_, hq, rfl⟩
  · exact fun ds l f s _ hq => ⟨_, hq, rfl⟩

/-- An action that changes nothing works. -/
theorem Looks.works {x : Act α} {Q : Except Failure α → Prop} (h : x.Does (Looks s [] [] Q) [] [] s) :
    x.Does (Works s fun ds r => ds = [] ∧ Q r) [] [] s := by
  refine h.imp ?_
  rintro ds l r s' ⟨rfl, rfl, rfl, hq⟩
  exact ⟨rfl, ⟨rfl, hq⟩, [], .refl _, fun _ _ => rfl⟩

/-- What is answered about a result of an action on a kept cell. -/
theorem Settles.answering {a : Action α} {g : α → Answer} {busy : Prop} (hs : Sound [] s)
    (h : (a s).Does (Settles s (Uses busy [] P)) [] [] s) (hr : ∀ ds r, P ds r → R ds (r.map g)) :
    ((a >>= fun x => pure (g x)) s).Does (Works s (Uses busy [] R)) [] [] s := by
  refine (answering_does hs h).imp ?_
  rintro ds l r s' ⟨r', ⟨rfl, hp, hc⟩, rfl⟩
  refine ⟨rfl, ?_, [], hc, fun _ _ => rfl⟩
  rcases hp with ⟨hx, rfl, rfl⟩ | ⟨hx, hp⟩
  · exact .inl ⟨hx, rfl, rfl⟩
  · exact .inr ⟨hx, hr _ _ hp⟩

/-- A look at a kept cell, and what is answered about it. -/
theorem lookingAt_does {a : Action α} {g : α → Answer} (hs : Sound [] s)
    (hk : s.thread.kept.get? k = some e) (hu : e.users ≠ 0)
    (h : ∀ f : Kept → Kept, (∀ e, (f e).cell = e.cell) → (f e).users ≠ 0 →
      (a (s.flag k f)).Does (Works (s.flag k f) P) [] [] (s.flag k f))
    (hr : ∀ ds r, P ds r → R ds (r.map g)) :
    ((looking k a >>= fun x => pure (g x)) s).Does
      (Works s (Uses (e.exclusive = true) [] R)) [] [] s :=
  Settles.answering hs (looking_does hs hk hu h) hr

end Looking

section Verbs

variable (hs : Sound [] s) (hk : s.thread.kept.get? k = some e) (hu : e.users ≠ 0)
  (h : c.Stands s v)

include hs hk hu h

theorem lookingSlot_does {g : Slot → Answer} :
    ((looking k (slot c.slot) >>= fun x => pure (g x)) s).Does
      (Works s (Uses (e.exclusive = true) [] fun ds r => ds = [] ∧ r = .ok (g v))) [] [] s :=
  lookingAt_does hs hk hu (fun f _ _ => Looks.works (slot_does h.flag.slot)) fun ds r hr =>
    ⟨hr.1, by rw [hr.2]; rfl⟩

theorem lookingLook_does {g : Slot → Answer} :
    ((looking k (look c) >>= fun x => pure (g x)) s).Does
      (Works s (Uses (e.exclusive = true) [] fun ds r => ds = [] ∧ r = .ok (g v))) [] [] s :=
  lookingAt_does hs hk hu (fun f hf _ => Looks.works (look_does (hs.flag hf) h.flag)) fun ds r hr =>
    ⟨hr.1, by rw [hr.2]; rfl⟩

theorem lookingDebug_does (bound : Bool) :
    ((looking k (debugText c bound) >>= fun t => pure (.text t)) s).Does
      (Works s (Uses (e.exclusive = true) [] (Verb.Does s c v bound .debug))) [] [] s :=
  lookingAt_does hs hk hu (fun f hf _ => Looks.works (debugText_does (hs.flag hf) h.flag bound))
    fun ds r hr => ⟨hr.1, hr.2.imp fun t ht => by rw [ht]; rfl⟩

theorem lookingRead_does (bound : Bool) :
    ((looking k (read c) >>= fun o => pure (.object o)) s).Does
      (Works s (Uses (e.exclusive = true) [] (Verb.Does s c v bound .read))) [] [] s := by
  refine lookingAt_does (P := fun ds r => ds = [] ∧ ((∃ o, v.value = some o ∧ r = .ok o) ∨
    ∃ f, r = .error f ∧ Lacks s c v .temporaryRead f)) hs hk hu (fun f hf _ => ?_) ?_
  · refine (read_does (hs.flag hf) h.flag).imp ?_
    rintro ds l r s' ⟨rfl, rfl, hr⟩
    cases r with
    | ok o =>
      obtain ⟨ho, rfl⟩ := hr
      exact ⟨rfl, ⟨rfl, .inl ⟨o, ho, rfl⟩⟩, [], .refl _, fun _ _ => rfl⟩
    | error f => exact ⟨rfl, ⟨rfl, .inr ⟨f, rfl, hr.1⟩⟩, [], hr.2, nofun⟩
  · rintro ds r ⟨rfl, ⟨o, ho, rfl⟩ | ⟨f, rfl, hf⟩⟩
    · exact .inl ⟨o, ho, rfl, rfl⟩
    · exact .inr ⟨rfl, f, rfl, hf⟩

end Verbs

/-- A claim that an operation has gained is put under a key. -/
theorem handing_does {new : String} (hs : Sound [] s')
    (hc : Came s (⟨.counted, o⟩ :: s.thread.hands) s') :
    ((keepClaim new o >>= fun _ => pure (.object o)) s').Does
      (Works s fun ds' r => ds' = ds ++ [.handed new o] ∧ Answered (.object o) r) ds [] s' := by
  refine .seq hs (keepClaim_does hc.hands) ?_ ?_
  · rintro ds' l' _ s'' - ⟨rfl, rfl, hc', -⟩
    exact .done ⟨rfl, ⟨rfl, .inl rfl⟩, [], hc.trans hc', fun _ _ => rfl⟩
  · rintro ds' l' f s'' - ⟨rfl, rfl, hc', hf⟩
    obtain ⟨p, rfl⟩ := hf f rfl
    exact ⟨rfl, ⟨rfl, .inr ⟨p, rfl⟩⟩, [], hc.trans hc', nofun⟩

/-- The claim on the value of a slot in the ledger. -/
theorem Slot.claim_counted (hv : v.realm = .counted) {claim : Claim} (h : v.claim? = some claim) :
    v.value = some claim.object ∧ claim = ⟨.counted, claim.object⟩ := by
  obtain ⟨o, ho, rfl⟩ := Option.map_eq_some_iff.1 h
  exact ⟨ho, by rw [hv]⟩

theorem readOwnedUnder_does (bound : Bool) {new : String} (hs : Sound [] s) (h : c.Stands s v)
    (hv : v.realm = .counted) :
    ((readOwned c >>= fun claim => keepClaim new claim.object >>= fun _ =>
      pure (.object claim.object)) s).Does (Works s (Verb.Does s c v bound (.readOwned new))) [] [] s := by
  refine .seq hs (readOwned_does hs h) ?_ ?_
  · rintro ds l claim s' hs' ⟨rfl, rfl, hclaim, hc⟩
    obtain ⟨ho, he⟩ := Slot.claim_counted hv hclaim
    rw [he] at hc
    refine (handing_does hs' hc).imp ?_
    rintro ds' l' r s'' ⟨rfl, ⟨rfl, hr⟩, hown⟩
    exact ⟨rfl, .inl ⟨_, ho, rfl, hr⟩, hown⟩
  · rintro ds l f s' - ⟨rfl, rfl, hc, hf⟩
    exact ⟨rfl, .inr ⟨rfl, f, rfl, hf⟩, [], hc, nofun⟩

theorem Locked.mono {t : State} {f : Failure} (h : Onward s t) (hf : Locked t c f) :
    Locked s c f :=
  ⟨hf.1, h.build ▸ hf.2.1, hf.2.2⟩

/-- The end of an assignment, as an answer. -/
theorem Assigns.binds {t u : State} {r : Except Failure Unit} (h : Onward s t)
    (ha : Assigns t [] c o H ds l r u) : Binds s c o ds (r.map fun _ => .nothing) := by
  obtain ⟨rfl, hr⟩ := ha
  cases r with
  | ok => exact .inl ⟨hr.1, .inl rfl⟩
  | error f =>
    obtain ⟨-, ⟨rfl, hf⟩ | ⟨rfl, p, rfl⟩⟩ := hr
    · exact .inr ⟨rfl, f, rfl, hf.imp_right (Locked.mono h)⟩
    · exact .inl ⟨rfl, .inr ⟨p, rfl⟩⟩

theorem Assigns.came {t u : State} {r : Except Failure Unit} (h : Onward s t)
    (ha : Assigns t ds' c o H ds l r u) : ∃ own, Came s (own ++ H) u ∧ ∀ x, r = .ok x → own = [] := by
  obtain ⟨rfl, hr⟩ := ha
  cases r with
  | ok => exact ⟨[], ⟨h.trans hr.2.toOnward, hr.2.hands⟩, fun _ _ => rfl⟩
  | error f =>
    obtain ⟨⟨own, hc⟩, -⟩ := hr
    exact ⟨own, ⟨h.trans hc.toOnward, hc.hands⟩, nofun⟩

theorem assignTaken_does (bound : Bool) {claim : String} (hs : Sound [] s) (h : c.Stands s v)
    (hv : v.realm = .counted) :
    ((takeClaim claim >>= fun o => assign c o >>= fun _ => pure .nothing) s).Does
      (Works s (Verb.Does s c v bound (.assign claim))) [] [] s := by
  rw [bind_apply]
  cases ho : s.thread.claims.get? claim with
  | none =>
    rw [takeClaim_none ho, fail_bind]
    exact .fail ⟨rfl, .inr ⟨ho, rfl, _, rfl, rfl⟩, [], .refl s, nofun⟩
  | some o =>
    rw [takeClaim_some ho, done_bind]
    have m := Move.taken (l := []) ho
    have hc := Move.came m rfl rfl
    have hh : (⟨.counted, o⟩ :: s.thread.hands : List Claim) = ⟨v.realm, o⟩ :: s.thread.hands := by
      rw [hv]
    refine .idle m ((answering_does (m.sound hs)
      (assign_does (m.sound hs) ⟨h.slot, h.shared⟩ hh)).imp ?_)
    rintro ds l r s' ⟨r', ha, rfl⟩
    obtain ⟨own, hc', hown⟩ := ha.came hc.toOnward
    refine ⟨ha.1, .inl ⟨o, ho, ha.binds hc.toOnward⟩, own, hc', fun x hx => ?_⟩
    cases r' with
    | ok x => exact hown x rfl
    | error f => cases hx

theorem assignBorrowedKnown_does (bound : Bool) (hs : Sound [] s) (h : c.Stands s v)
    (hstay : ∀ s', Onward s s' → Sound [] s' → ∃ v, c.Stands s' v) :
    ((requireKnown o >>= fun _ => assignBorrowed c o >>= fun _ => pure .nothing) s).Does
      (Works s (Verb.Does s c v bound (.assignBorrowed o))) [] [] s := by
  by_cases hknown : o ∈ s.thread.known
  · rw [bind_apply, requireKnown_some hknown, done_bind]
    refine .seq hs (assignBorrowed_does hs h) ?_ ?_
    · rintro ds l x s' - (ha | ⟨-, -, f, ⟨⟩, -⟩)
      obtain ⟨own, hc, hown⟩ := ha.came (.refl s)
      exact .done ⟨ha.1, .inl ⟨hknown, .inl (ha.binds (.refl s))⟩, own, hc, fun _ _ => hown x rfl⟩
    · rintro ds l f s' hs' (ha | ⟨rfl, rfl, _, ⟨⟩, hf⟩)
      · obtain ⟨own, hc, -⟩ := ha.came (.refl s)
        exact ⟨ha.1, .inl ⟨hknown, .inl (ha.binds (.refl s))⟩, own, hc, nofun⟩
      · rcases hf with ⟨hg, hp, hc⟩ | ⟨rfl, hc, hgone⟩
        · exact ⟨rfl, .inl ⟨hknown, .inr ⟨rfl, f, rfl, hg, hp⟩⟩, [], hc, nofun⟩
        · exact absurd (hstay s' hc.toOnward hs') hgone
  · rw [bind_apply, requireKnown_none hknown, fail_bind]
    exact .fail ⟨rfl, .inr ⟨hknown, rfl, _, rfl, rfl⟩, [], .refl s, nofun⟩

/-- What clearing comes to, before it is answered. -/
def Clearing (s : State) (c : Cell) (v : Slot) (ds : List Deed) (r : Except Failure Bool) : Prop :=
  v.value.isSome ∧ ds = [.set c.slot none] ∧ (r = .ok true ∨ ∃ p, r = .error (.panic p)) ∨
    (v.value = none ∧ (∃ id, c = .own .temporary id) ∧ ds = [] ∧ r = .ok false) ∨
    ds = [] ∧ ∃ f, r = .error f ∧ (Locked s c f ∨ Lacks s c v .temporaryTake f)

theorem clearing_does (hs : Sound [] s) (h : c.Stands s v) :
    (clear c s).Does (Works s (Clearing s c v)) [] [] s := by
  have hset : v.value.isSome → [] ++ c.emptying v = [.set c.slot none] := by
    intro hsome
    obtain ⟨o, ho⟩ := Option.isSome_iff_exists.1 hsome
    rw [Cell.emptying, ho]
    rfl
  refine (clear_does hs h).imp ?_
  rintro ds l r s' ⟨rfl, hr⟩
  cases r with
  | ok b =>
    obtain ⟨rfl, hc, rfl, htemp⟩ := hr
    refine ⟨rfl, ?_, [], hc, fun _ _ => rfl⟩
    cases hval : v.value with
    | some o =>
      have hsome : v.value.isSome := by rw [hval]; rfl
      exact .inl ⟨hsome, hset hsome, .inl rfl⟩
    | none =>
      refine .inr (.inl ⟨hval, htemp (by rw [hval]; rfl), ?_, rfl⟩)
      rw [Cell.emptying, hval]
      rfl
  | error f =>
    obtain ⟨⟨own, hc, -⟩, hf⟩ := hr
    refine ⟨rfl, ?_, own, hc, by simp⟩
    rcases hf with ⟨rfl, hf⟩ | ⟨rfl, hsome, p, rfl⟩
    · exact .inr (.inr ⟨rfl, f, rfl, hf⟩)
    · exact .inl ⟨hsome, hset hsome, .inr ⟨p, rfl⟩⟩

theorem Clearing.answered {bound : Bool} {ds : List Deed} {r : Except Failure Bool}
    (h : Clearing s c v ds r) : Verb.Does s c v bound .clear ds (r.map fun b => match c with
      | .own .temporary _ => Answer.flag b
      | _ => .nothing) := by
  rcases h with ⟨hsome, rfl, rfl | ⟨p, rfl⟩⟩ | ⟨hnone, ⟨id, rfl⟩, rfl, rfl⟩ | ⟨rfl, f, rfl, hf⟩
  · refine .inl ⟨hsome, rfl, .inl ?_⟩
    unfold Cell.cleared
    rw [hsome]
    rfl
  · exact .inl ⟨hsome, rfl, .inr ⟨p, rfl⟩⟩
  · exact .inr (.inl ⟨hnone, ⟨id, rfl⟩, rfl, rfl⟩)
  · exact .inr (.inr ⟨rfl, f, rfl, hf⟩)

theorem takeUnder_does (bound : Bool) {new : String} (hs : Sound [] s) (h : c.Stands s v)
    (hv : v.realm = .counted) :
    ((take c >>= fun claim => keepClaim new claim.object >>= fun _ =>
      pure (.object claim.object)) s).Does (Works s (Verb.Does s c v bound (.take new))) [] [] s := by
  refine .seq hs (take_does hs h) ?_ ?_
  · rintro ds l claim s' hs' ⟨rfl, hclaim, rfl, hc⟩
    obtain ⟨ho, he⟩ := Slot.claim_counted hv hclaim
    rw [he] at hc
    refine (handing_does hs' hc).imp ?_
    rintro ds' l' r s'' ⟨rfl, ⟨rfl, hr⟩, hown⟩
    exact ⟨rfl, .inl ⟨_, ho, .inl ⟨rfl, hr⟩⟩, hown⟩
  · rintro ds l f s' - ⟨rfl, ⟨own, hc⟩, ⟨rfl, hf⟩ | ⟨rfl, hsome, rfl⟩⟩
    · exact ⟨rfl, .inr ⟨rfl, f, rfl, hf⟩, own, hc, nofun⟩
    · obtain ⟨o, ho⟩ := Option.isSome_iff_exists.1 hsome
      refine ⟨rfl, .inl ⟨o, ho, .inr ⟨?_, rfl⟩⟩, own, hc, nofun⟩
      rw [Cell.emptying, ho]
      rfl

/-! ## Handles -/

theorem refcountOf_does (bound : Bool) (h : c.Stands s v) :
    ((sharedSlot c >>= fun id => sharing id >>= fun sh =>
      pure (if bound then Answer.bound sh.handles true else .count sh.handles)) s).Does
        (Works s (Verb.Does s c v bound .refcount)) [] [] s := by
  cases c with
  | own form id => exact .fail ⟨rfl, ⟨rfl, rfl⟩, [], .refl s, nofun⟩
  | handle id a =>
    obtain ⟨sh, hsh⟩ := h.shared id a rfl
    have hn : s.refcount id = sh.handles := by rw [State.refcount, hsh, Option.elim_some]
    simp only [sharedSlot, bind_apply, pure_apply, done_bind, sharing_some hsh]
    refine .done ⟨rfl, ⟨rfl, ?_⟩, [], .refl s, fun _ _ => rfl⟩
    rw [Cell.counted, hn]

theorem comparing_does (bound : Bool) {other : String} (hs : Sound [] s) :
    ((sharedSlot c >>= fun id => cell other >>= fun c' => sharedSlot c' >>= fun id' =>
      pure (.flag (id = id'))) s).Does (Works s (Verb.Does s c v bound (.sameAs other))) [] [] s := by
  cases c with
  | own form id => exact .fail ⟨rfl, ⟨rfl, rfl⟩, [], .refl s, nofun⟩
  | handle id a =>
    simp only [sharedSlot, bind_apply, pure_apply, done_bind]
    cases hc : s.thread.cells.get? other with
    | none =>
      rw [cell_none hc, fail_bind]
      refine .fail ⟨rfl, ⟨rfl, ?_⟩, [], .refl s, nofun⟩
      unfold Cell.compared State.cellOf
      rw [hc]
      rfl
    | some k =>
      obtain ⟨⟨c', users, readers, exclusive⟩, hk⟩ :=
        Option.isSome_iff_exists.1 (hs.thread.keyed other k hc)
      rw [cell_some hc hk, done_bind]
      cases c' with
      | own form i =>
        refine .fail ⟨rfl, ⟨rfl, ?_⟩, [], .refl s, nofun⟩
        unfold Cell.compared State.cellOf
        rw [hc, Option.bind_some, hk]
        rfl
      | handle i a' =>
        refine .done ⟨rfl, ⟨rfl, ?_⟩, [], .refl s, fun _ _ => rfl⟩
        unfold Cell.compared State.cellOf
        rw [hc, Option.bind_some, hk]
        rfl

theorem retaining_does (bound : Bool) {new : String} (hs : Sound [] s) (h : c.Stands s v)
    (hk : s.thread.kept.get? k = some e) (hc : c.slot = e.cell.slot) (hv : v.realm = .counted) :
    ((sharedSlot c >>= fun id => retain id >>= fun c' => keepCell new c' (some k) >>= fun _ =>
      pure .nothing) s).Does (Works s (Verb.Does s c v bound (.retain new))) [] [] s := by
  cases c with
  | own form id => exact .fail ⟨rfl, .inr ⟨⟨form, id, rfl⟩, rfl, _, rfl, rfl⟩, [], .refl s, nofun⟩
  | handle id a =>
    obtain ⟨sh, hsh⟩ := h.shared id a rfl
    rw [bind_apply, sharedSlot, pure_apply, done_bind]
    refine .seq hs (retain_does hsh h.slot) ?_ ?_
    · rintro ds l c' s' hs' ⟨rfl, rfl, ⟨⟩, hcame, hslots, hthread, -⟩
      have hfits : ∀ v', s'.slots.get? id = some v' → (Cell.handle id .free).Fits v' := by
        intro v' hv'
        rw [hslots] at hv'
        have he : some v = some v' := h.slot.symm.trans hv'
        cases he
        exact ⟨hv, nofun, nofun⟩
      have hdescends : Descends s' s'.keptCell? (some k) (.handle id .free) :=
        ⟨rfl, e.cell, by rw [State.keptCell?, hthread, hk]; rfl, hc.symm⟩
      have hdisplaces : Displaces s new (s'.displacing new) := by
        have h := hs'.displaces new
        rw [Displaces, hthread] at h
        exact h
      have hdone : ∀ r, Answered .nothing r → Verb.Does s (.handle id a) v bound (.retain new)
          ([] ++ [.retained id] ++ s'.displacing new) r := fun r hr =>
        .inl ⟨id, a, rfl, _, hdisplaces, rfl, hr⟩
      refine .seq hs' (keepCell_does hs' hfits hdescends) ?_ ?_
      · rintro ds l _ s'' - ⟨⟨rfl, rfl, hc'⟩, -⟩
        exact .done ⟨rfl, hdone _ (.inl rfl), [], hcame.stay hc', fun _ _ => rfl⟩
      · rintro ds l f s'' - ⟨⟨rfl, rfl, ⟨p, rfl⟩, own, hc'⟩, -⟩
        rw [hcame.hands] at hc'
        exact ⟨rfl, hdone _ (.inr ⟨p, rfl⟩), own, hcame.trans hc', nofun⟩
    · rintro ds l f s' - ⟨-, -, ⟨⟩, -⟩

/-! ## Every use -/

theorem Settles.works {x : Act α} {P : List Deed → Except Failure α → Prop}
    (h : x.Does (Settles s P) [] [] s) : x.Does (Works s P) [] [] s := by
  refine h.imp ?_
  rintro ds l r s' ⟨hl, hp, hc⟩
  exact ⟨hl, hp, [], hc, fun _ _ => rfl⟩

/-- Uses that need no permission. -/
theorem Works.free {x : Act α} {P : List Deed → Except Failure α → Prop}
    (h : x.Does (Works s P) [] [] s) : x.Does (Works s (Uses False [] P)) [] [] s := by
  refine h.imp ?_
  rintro ds l r s' ⟨hl, hp, hc⟩
  exact ⟨hl, .inr ⟨not_false, hp⟩, hc⟩

/-- **Every use of a kept cell** does and answers what `Verb.Does` says. -/
theorem useCell_does {bound : Bool} {verb : Verb} (hs : Sound [] s)
    (hc : s.thread.cells.get? key = some k) (hk : s.thread.kept.get? k = some e)
    (h : e.cell.Stands s v) (hv : v.realm = .counted) :
    (useCell key bound verb s).Does (Visits s k e.cell
      (Uses (verb.Blocked e) [] (verb.Does s (e.cell.via bound) v bound))) [] [] s := by
  refine withCell_does hs hc hk ?_
  have ht : Sound [] (s.flag k Kept.entered) := hs.flag fun _ => rfl
  have hkt : (s.flag k Kept.entered).thread.kept.get? k = some e.entered := by
    rw [State.flag_kept, if_pos rfl, hk, Option.map_some]
  have hu : e.entered.users ≠ 0 := Nat.succ_ne_zero _
  have hst : (e.cell.via bound).Stands (s.flag k Kept.entered) v := (h.via bound).flag
  cases verb with
  | name => exact lookingSlot_does (g := fun v => .text v.name) ht hkt hu hst
  | state => exact lookingLook_does (g := fun v => .text (stateText v)) ht hkt hu hst
  | isBound => exact lookingLook_does (g := fun v => .flag v.value.isSome) ht hkt hu hst
  | read => exact lookingRead_does ht hkt hu hst bound
  | debug => exact lookingDebug_does ht hkt hu hst bound
  | readOwned new =>
    exact Settles.works (looking_does (e := e.entered) ht hkt hu fun f hf _ =>
      readOwnedUnder_does bound (ht.flag hf) hst.flag hv)
  | assign claim =>
    exact Settles.works (changing_does (e := e.entered) ht hkt hu fun f hf _ =>
      assignTaken_does bound (ht.flag hf) hst.flag hv)
  | assignBorrowed o =>
    refine Settles.works (changing_does (e := e.entered) ht hkt hu fun f hf hu' =>
      assignBorrowedKnown_does bound (ht.flag hf) hst.flag fun s' hs' hsound => ?_)
    have hkept : s'.thread.kept.get? k = some (f e.entered) := by
      refine hs'.used k _ ?_ hu'
      rw [State.flag_kept, if_pos rfl, hkt, Option.map_some]
    obtain ⟨v', hv', -⟩ := hsound.stands_of_kept hkept
    exact ⟨v', (hf e.entered ▸ hv').via bound⟩
  | clear =>
    exact Settles.answering ht (changing_does (e := e.entered) ht hkt hu fun f hf _ =>
      clearing_does (ht.flag hf) hst.flag) fun ds r hr => Clearing.answered hr
  | take new =>
    exact Settles.works (changing_does (e := e.entered) ht hkt hu fun f hf _ =>
      takeUnder_does bound (ht.flag hf) hst.flag hv)
  | refcount => exact Works.free (refcountOf_does bound hst)
  | sameAs other =>
    refine Works.free ((comparing_does (v := v) bound ht).imp ?_)
    rintro ds l r s' ⟨hl, ⟨hd, hr⟩, hown⟩
    refine ⟨hl, ⟨hd, ?_⟩, hown⟩
    rw [hr]
    unfold Cell.compared
    rw [State.cellOf_flag (f := Kept.entered) fun _ => rfl]
    rfl
  | retain new =>
    refine Works.free ((retaining_does bound ht hst hkt (e.cell.slot_via bound) hv).imp ?_)
    rintro ds l r s' ⟨hl, hd, hown⟩
    refine ⟨hl, hd.imp ?_ id, hown⟩
    rintro ⟨id, a, hc, es, hes, hr⟩
    exact ⟨id, a, hc, es, hes.of_flag (f := Kept.entered) fun _ => rfl, hr⟩

end Action

end ClaimCells
