import ClaimCells.Proofs.Idle
import ClaimCells.Proofs.Keys

/-!
# Operations on objects and claims

No operation on objects and claims touches a variable: the only deeds are claims that are put under
keys. What such an operation leaves in the hands when it fails is on top of what was there.

Main result: `performObject_does`.
-/

namespace ClaimCells

variable {α β : Type} {s s' : State} {l l' : List Cell} {ds ds' : List Deed} {H : List Claim}
  {key : String} {o : ObjectId}

/-- Nothing is done but putting claims under keys. -/
def Handing (ds : List Deed) : Prop :=
  ∀ d ∈ ds, ∃ key o, d = .handed key o

theorem Handing.nil : Handing [] := nofun

theorem Handing.snoc (h : Handing ds) (key : String) (o : ObjectId) :
    Handing (ds ++ [.handed key o]) := by
  intro d hd
  rcases List.mem_append.1 hd with hd | hd
  · exact h d hd
  · exact ⟨key, o, List.mem_singleton.1 hd⟩

namespace Action

open Act (Does)

theorem requireKnown_plain (o : ObjectId) : Plain True (requireKnown o) := by
  refine .readThread (fun _ _ _ => rfl) fun t => ?_
  split
  · exact .fail _
  · exact .pure _

theorem claimed_plain (key : String) : Plain True (claimed key) :=
  .readThread (fun _ _ _ => rfl) fun _ => .demand _ _

theorem makeKnown_plain (o : ObjectId) : Plain True (makeKnown o) := by
  refine .inThread (fun s => ?_) fun K W s => ?_
  · rw [State.inThread]
    split
    · exact .silent rfl rfl
    · exact .knowing s o
  · by_cases h : o ∈ s.thread.known <;> simp [State.inThread, State.recast, h]

/-- The end of every operation on claims. -/
abbrev Objects (s : State) : Post Answer :=
  Works s fun ds _ => Handing ds

section Idle

variable {P : List Deed → Except Failure β → Prop}

theorem Idle.works {a : Action β} (ha : Idle a) (hs : Sound [] s) (hp : ∀ r, P [] r) :
    (a s).Does (Works s P) [] [] s := by
  refine (ha [] [] s hs).imp ?_
  rintro ds l r s' ⟨rfl, rfl, hc⟩
  exact ⟨rfl, hp r, [], hc, fun _ _ => rfl⟩

/-- What is done after an idle action. -/
theorem Idle.then {a : Action α} {k : α → Action β} (ha : Idle a) (hs : Sound [] s)
    (hp : ∀ f, P [] (.error f))
    (hk : ∀ x s', Sound [] s' → Came s s.thread.hands s' → (k x s').Does (Works s P) [] [] s') :
    ((a >>= k) s).Does (Works s P) [] [] s := by
  refine .seq hs (ha [] [] s hs) ?_ ?_
  · rintro ds l x s' hs' ⟨rfl, rfl, hc⟩
    exact hk x s' hs' hc
  · rintro ds l f s' - ⟨rfl, rfl, hc⟩
    exact ⟨rfl, hp f, [], hc, nofun⟩

end Idle

/-- An answer after a claim in hand was put under a key. -/
theorem keeping_does {t : State} {a : Answer} (hs : Sound [] s) (hds : Handing ds)
    (hc : Came t (⟨.counted, o⟩ :: t.thread.hands) s) :
    ((keepClaim key o >>= fun _ => pure a) s).Does (Objects t) ds [] s := by
  refine .seq hs (keepClaim_does hc.hands) ?_ ?_
  · rintro ds' l' _ s' - ⟨rfl, rfl, hc', -⟩
    exact .done ⟨rfl, hds.snoc key o, [], hc.trans hc', fun _ _ => rfl⟩
  · rintro ds' l' f s' - ⟨rfl, rfl, hc', -⟩
    exact ⟨rfl, hds.snoc key o, [], hc.trans hc', nofun⟩

section Steps

variable {P : List Deed → Reply → Prop} {t : State}

/-- An answer after a claim in hand was given up. -/
theorem releasing_does {a : Answer} {c : Claim} (hs : Sound [] s) (hp : ∀ r, P ds r)
    (hc : Came t (c :: t.thread.hands) s) :
    ((release c >>= fun _ => pure a) s).Does (Works t P) ds [] s := by
  refine .seq hs (release_does hc.hands) ?_ ?_
  · rintro ds' l' _ s' - ⟨rfl, rfl, hc', -⟩
    exact .done ⟨rfl, hp _, [], hc.trans hc', fun _ _ => rfl⟩
  · rintro ds' l' f s' - ⟨rfl, rfl, hc', -⟩
    exact ⟨rfl, hp _, [], hc.trans hc', nofun⟩

/-- An answer after a claim in hand was handed to an owner that nobody keeps count of. -/
theorem disowning_does {a : Answer} {c : Claim} (hp : ∀ r, P ds r)
    (hc : Came t (c :: t.thread.hands) s) :
    ((disown c >>= fun _ => pure a) s).Does (Works t P) ds [] s := by
  have m : Move [] s [] [] _ := .disowned (c := c) (by rw [hc.hands]; exact List.mem_cons_self)
  have hc' := hc.trans (Move.came m rfl (State.letGo_hands hc.hands))
  exact .idle m (.done ⟨rfl, hp _, [], hc', fun _ _ => rfl⟩)

/-- What is done with a claim that came in from an owner that nobody keeps count of. -/
theorem adopting_does {k : Unit → Action Answer} {c : Claim} (hs : Sound [] s)
    (hc : Came t t.thread.hands s)
    (hk : ∀ s', Sound [] s' → Came t (c :: t.thread.hands) s' →
      (k () s').Does (Works t P) ds [] s') :
    ((adopt c >>= k) s).Does (Works t P) ds [] s := by
  have m := Move.adopted (l := []) (s := s) c
  exact .idle m (hk _ (m.sound hs) (hc.trans (Move.came m rfl (congrArg (c :: ·) hc.hands))))

end Steps

/-- What is done with the claim with a key once it is in hand. -/
theorem takingClaim_does {k : ObjectId → Action Answer} (hs : Sound [] s)
    (hk : ∀ o s', Sound [] s' → Came s (⟨.counted, o⟩ :: s.thread.hands) s' →
      (k o s').Does (Objects s) [] [] s') :
    ((takeClaim key >>= k) s).Does (Objects s) [] [] s := by
  rw [bind_apply]
  cases ho : s.thread.claims.get? key with
  | none =>
    rw [takeClaim_none ho, fail_bind]
    exact .fail ⟨rfl, .nil, [], .refl s, nofun⟩
  | some o =>
    rw [takeClaim_some ho, done_bind]
    have m := Move.taken (l := []) ho
    exact .idle m (hk o _ (m.sound hs) (Move.came m rfl rfl))

/-- What is done with the claim on a new object. -/
theorem allocating_does {k : Claim → Action Answer} (hs : Sound [] s)
    (hk : ∀ o s', Sound [] s' → Came s (⟨.counted, o⟩ :: s.thread.hands) s' →
      (k ⟨.counted, o⟩ s').Does (Objects s) [] [] s') :
    ((allocate >>= k) s).Does (Objects s) [] [] s := by
  have m := Move.allocated (l := []) (s := s)
  exact .idle m (hk _ _ (m.sound hs) (Move.came m rfl rfl))

/-- An answer after a claim was gained and put under a key. -/
theorem keepNew_does {t : State} (hs : Sound [] s) (hc : Came t t.thread.hands s) :
    (keepNew ⟨.counted, o⟩ key s).Does (Objects t) [] [] s := by
  refine .seq hs (acquire_does hs _) ?_ ?_
  · rintro ds l _ s' hs' ⟨⟨rfl, rfl, hc'⟩, -⟩
    exact keeping_does hs' .nil ((hc.hands ▸ hc.trans hc' : Came t (_ :: t.thread.hands) s'))
  · rintro ds l f s' - ⟨⟨rfl, rfl, -, hc'⟩, -⟩
    exact ⟨rfl, .nil, [], hc.stay hc', nofun⟩

/-- A copy of a kept claim is put under a key of its own, once the claim itself is back. -/
theorem duplicating_does {new : String} (hs : Sound [] s) :
    (performObject (.duplicate key new) s).Does (Objects s) [] [] s := by
  refine takingClaim_does hs fun o s₁ hs₁ hc₁ => .tried hs₁ (acquire_does hs₁ ⟨.counted, o⟩) ?_
  rintro ds l r s₂ hs₂ ⟨⟨rfl, rfl, hr⟩, -⟩
  cases r with
  | ok =>
    have hc₂ : Came s (⟨.counted, o⟩ :: ⟨.counted, o⟩ :: s.thread.hands) s₂ :=
      hc₁.trans (hc₁.hands ▸ hr)
    refine .seq hs₂ (keepClaim_does hc₂.hands) ?_ ?_
    · rintro ds l _ s₃ hs₃ ⟨rfl, rfl, hc₃, -⟩
      exact keeping_does hs₃ (Handing.nil.snoc key o) (hc₂.trans hc₃)
    · rintro ds l f s₃ - ⟨rfl, rfl, hc₃, -⟩
      exact ⟨rfl, Handing.nil.snoc key o, [⟨.counted, o⟩], hc₂.trans hc₃, nofun⟩
  | error f =>
    have hc₂ : Came s (⟨.counted, o⟩ :: s.thread.hands) s₂ := hc₁.trans (hc₁.hands ▸ hr.2)
    refine .seq hs₂ (keepClaim_does hc₂.hands) ?_ ?_
    · rintro ds l _ s₃ - ⟨rfl, rfl, hc₃, -⟩
      exact .fail ⟨rfl, Handing.nil.snoc key o, [], hc₂.trans hc₃, nofun⟩
    · rintro ds l f s₃ - ⟨rfl, rfl, hc₃, -⟩
      exact ⟨rfl, Handing.nil.snoc key o, [], hc₂.trans hc₃, nofun⟩

/-- **Operations on objects and claims touch no variable.** -/
theorem performObject_does (op : ObjectOp) (hs : Sound [] s) :
    (performObject op s).Does (Objects s) [] [] s := by
  cases op with
  | allocate key? =>
    refine allocating_does hs fun o s' hs' hc => ?_
    cases key? with
    | some key => exact keeping_does hs' .nil hc
    | none => exact disowning_does (fun _ => .nil) hc
  | tryAllocate fault key =>
    cases fault with
    | some c => exact .fail ⟨rfl, .nil, [], .refl s, nofun⟩
    | none => exact allocating_does hs fun o s' hs' hc => keeping_does hs' .nil hc
  | foreign o => exact ((makeKnown_plain o).bind fun _ => .pure _).idle.works hs fun _ => .nil
  | acquire o =>
    refine (requireKnown_plain o).idle.then hs (fun _ => .nil) fun _ s' hs' hc =>
      .seq hs' (acquireRaw_does hs' ⟨.counted, o⟩) ?_ ?_
    · rintro ds l _ s'' - ⟨rfl, rfl, hc'⟩
      exact .done ⟨rfl, .nil, [], hc.stay hc', fun _ _ => rfl⟩
    · rintro ds l f s'' - ⟨rfl, rfl, -, hc'⟩
      exact ⟨rfl, .nil, [], hc.stay hc', nofun⟩
  | release o =>
    exact (requireKnown_plain o).idle.then hs (fun _ => .nil) fun _ s' hs' hc =>
      adopting_does hs' hc fun s'' hs'' hc' => releasing_does hs'' (fun _ => .nil) hc'
  | inspect o =>
    exact ((requireKnown_plain o).bind fun _ =>
      .readThread (fun _ _ _ => rfl) fun _ => .pure _).idle.works hs fun _ => .nil
  | claim o new key =>
    refine (requireKnown_plain o).idle.then hs (fun _ => .nil) fun _ s' hs' hc => ?_
    rw [ite_apply]
    split
    · exact keepNew_does hs' hc
    · exact adopting_does hs' hc fun s'' hs'' hc' => keeping_does hs'' .nil hc'
  | dropClaim key => exact takingClaim_does hs fun o s' hs' hc => releasing_does hs' (fun _ => .nil) hc
  | intoOwned key => exact takingClaim_does hs fun o s' _ hc => disowning_does (fun _ => .nil) hc
  | duplicate key new => exact duplicating_does hs
  | borrow key => exact ((claimed_plain key).bind fun _ => .pure _).idle.works hs fun _ => .nil
  | claimDebug key => exact ((claimed_plain key).bind fun _ => .pure _).idle.works hs fun _ => .nil
  | borrowEq key other =>
    exact ((claimed_plain key).bind fun _ =>
      .bind (claimed_plain other) fun _ => .pure _).idle.works hs fun _ => .nil

end Action

end ClaimCells
