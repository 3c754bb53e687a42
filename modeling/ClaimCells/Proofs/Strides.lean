import ClaimCells.Proofs.Classes
import ClaimCells.Proofs.Flow

/-!
# From signal to signal

Between two signals an operation does not stop, so what it does there is done as one. A variable
that gives up its claim does so in one stride with the release of the claim: nobody ever finds the
variable changed and the claim still there.

`Stride` says which pieces the way from one signal to the next is made of. The pieces are larger
than moves: changing a variable, reporting it and giving up the old claim is one.

Main results: `Cellular.strides`, actions on cells go in strides, and `course_strides`, so do
operations.
-/

namespace ClaimCells

variable {α β : Type} {s s' t : State} {v : Slot} {id : SlotId} {x : Claim} {G : Prop}
  {op : Op} {j : Journal} {e : Entry}

/-! ## Pieces -/

/-- What a deed does to the slots. -/
def Deed.update (slots : Table SlotId Slot) : Deed → Table SlotId Slot
  | .made id v => slots.insert id v
  | .set id value => slots.modify id ({ · with value })
  | .ended id => slots.erase id
  | _ => slots

/-- The slot whose claim a deed takes out of it. -/
def Deed.empties? : Deed → Option SlotId
  | .set id _ | .ended id => some id
  | _ => none

/-- The entry ends the claim: it is released, or its release is refused, or there is no function
to release it with. -/
def Entry.Ends (x : Claim) (e : Entry) : Prop :=
  e.drops? = some x ∨ x.realm = .native ∧ ∃ w, e = .event (.violated .functionsMissing) w

/-- What follows a deed that takes a claim, if there is one, out of a slot. Without a word about it
a counter was full. -/
inductive Settles (x? : Option Claim) : Journal → Prop
  | silent : Settles x? []
  | told {e : Event} (w : Bool) (he : e.givesUp = false) : Settles x? [.event e w]
  | givenUp {x : Claim} {e : Event} {w : Bool} {e' : Entry} (hx : x ∈ x?) (he : e.givesUp = true)
      (he' : e'.Ends x) : Settles x? [e', .event e w]

/-- The pieces of the way from one signal to the next. -/
inductive Stride (G : Prop) (s t : State) : Prop
  | calm (h : Calm G s t)
  | deed (d : Deed) (es : Journal) (hs : t.slots = d.update s.slots)
      (hj : t.journal = es ++ .did d :: s.journal)
      (hes : Settles ((d.empties?.bind s.slots.get?).bind Slot.claim?) es)

/-- A way that is made of such pieces. -/
abbrev Strode (G : Prop) : State → State → Prop :=
  Relation.ReflTransGen (Stride G)

theorem Strode.calm (h : Calm G s t) : Strode G s t :=
  .single (.calm h)

theorem Strode.silent (hs : t.slots = s.slots) (hj : t.journal = s.journal) : Strode G s t :=
  .calm (.silent hs hj)

theorem Strode.seq {u : State} (h : Strode G s t) (h' : Strode G t u) : Strode G s u :=
  h.trans h'

/-- A deed of which nothing is told yet. -/
theorem Strode.deed {d : Deed} (hs : t.slots = d.update s.slots)
    (hj : t.journal = .did d :: s.journal) : Strode G s t :=
  .single (.deed d [] hs hj .silent)

/-- A deed that gives up no claim. -/
theorem Strode.told {d : Deed} {e : Event} {w : Bool} (hs : t.slots = d.update s.slots)
    (hj : t.journal = .event e w :: .did d :: s.journal) (he : e.givesUp = false) : Strode G s t :=
  .single (.deed d [.event e w] hs hj (.told w he))

theorem Entry.Ends.calm (h : e.Ends x) : e.Calm G := by
  obtain h | ⟨-, w, rfl⟩ := h
  · cases e with
    | called lib m o =>
      cases m with
      | acquired => cases h
      | released | freed => trivial
    | acquired => cases h
    | did => cases h
    | event => cases h
    | _ => trivial
  · rfl

theorem Slot.claim?_some {o : ObjectId} (h : v.value = some o) : v.claim? = some ⟨v.realm, o⟩ := by
  rw [Slot.claim?, h]
  rfl

theorem Entry.calm_of_idle (e : Entry) (h : e.idle = true) : e.Calm G := by
  cases e with
  | event e w => cases e <;> first | rfl | cases h
  | hook | answered => trivial
  | _ => cases h

theorem Entry.Calm.imp {G' : Prop} (h : e.Calm G) (hG : G → G') : e.Calm G' := by
  cases e with
  | acquired => exact hG h
  | called lib m o =>
    cases m with
    | acquired => exact hG h
    | released | freed => trivial
  | did | event => exact h
  | _ => trivial

namespace Action

open Act (Stays)

/-! ## Releasing -/

theorem raise_strides (p : Panic) (s : State) : (raise p s : Act α).Stays (Strode G) s :=
  (raise_still p s).stays fun _ => .refl

/-- A release begins with an entry that ends the claim. -/
theorem release_from (h : ∀ e t', e.Ends x → t'.slots = t.slots → t'.journal = e :: t.journal →
    Strode G s t') : (release x t).Stays (Strode G) s := by
  obtain ⟨realm, o⟩ := x
  rw [release, bind_apply, letGo_apply, done_bind]
  cases realm with
  | counted =>
    dsimp only
    rw [bind_apply, thread_apply, done_bind, bind_apply]
    cases hk : (t.letGo ⟨.counted, o⟩).thread.ledger.release o with
    | error m =>
      rw [settleLedger_error, raise_bind]
      have hends : (Entry.refused m).Ends ⟨.counted, o⟩ := by
        obtain rfl | rfl := Ledger.release_error hk <;> exact .inl rfl
      exact .before (fun _ _ _ => .seq)
        (h _ ((t.letGo ⟨.counted, o⟩).note (.refused m)) hends rfl rfl) (raise_strides _ _)
    | ok k =>
      rw [settleLedger_ok, done_bind, bind_apply, note_apply, done_bind]
      refine ⟨h _ _ (.inl rfl) rfl rfl, fun u => ?_⟩
      show ((if u.thread.ledger.isFreed o then send ⟨.counted, .freed, o⟩ else pure ()) u).Stays _ u
      rw [ite_apply]
      split
      · exact ⟨.refl, fun _ => .refl⟩
      · exact .refl
  | native =>
    dsimp only
    rw [bind_apply]
    cases hf : (t.letGo ⟨.native, o⟩).functions with
    | none =>
      rw [functions_none hf, violate_bind, violate, bind_apply, emit_apply, done_bind]
      exact .before (fun _ _ _ => .seq) (h _ ((t.letGo ⟨.native, o⟩).emit (.violated .functionsMissing))
        (.inr ⟨rfl, _, rfl⟩) rfl rfl) (raise_strides _ _)
    | some f =>
      rw [functions_some hf, done_bind]
      exact ⟨h (.called f.release .released o) _ (.inl rfl) rfl rfl, fun _ => .refl⟩

/-! ## Changing a variable -/

/-- A variable that gave up its claim is reported, and the claim released. -/
theorem givenUp_strides {d : Deed} {e : Event} {w : Bool} (hs : t.slots = d.update s.slots)
    (hj : t.journal = .event e w :: .did d :: s.journal) (he : e.givesUp = true)
    (hx : (d.empties?.bind s.slots.get?).bind Slot.claim? = some x) :
    (release x t).Stays (Strode G) s :=
  release_from fun e' _ hends hs' hj' => .single <|
    .deed d [e', .event e w] (hs'.trans hs) (by rw [hj', hj]; rfl) (.givenUp hx he hends)

/-- Binding a slot ends with the word about it, or with a full counter. -/
theorem replace_ends (hv : s.slots.get? id = some v) (o : ObjectId) :
    (∃ t w, replace id o s = .done v.claim? t ∧
      t.slots = (Deed.set id (some o)).update s.slots ∧
      t.journal = .event (.assigned v.kind v.name v.claim?.isSome) w :: .did (.set id (some o)) ::
        s.journal) ∨
    ∃ t, replace id o s = raise .overflow t ∧ Strode G s t := by
  rw [replace, bind_apply, slot_some hv, done_bind, bind_apply]
  cases h₁ : s.profiler.record v.kind .bound with
  | none =>
    rw [record_none h₁, raise_bind]
    exact .inr ⟨s, rfl, .refl⟩
  | some p =>
    rw [record_some h₁, done_bind]
    cases hval : v.value with
    | none =>
      rw [Slot.claim?, hval]
      exact .inl ⟨_, _, rfl, rfl, rfl⟩
    | some old =>
      let t := (({ s with profiler := p }.letGo ⟨v.realm, o⟩).setValue id (some o)).hold ⟨v.realm, old⟩
      show (∃ t' w, (record v.kind .released t).bind _ = .done _ t' ∧ _) ∨
        ∃ t', (record v.kind .released t).bind _ = raise .overflow t' ∧ _
      cases h₂ : t.profiler.record v.kind .released with
      | none =>
        rw [record_none h₂, raise_bind]
        exact .inr ⟨t, rfl, .deed (d := .set id (some o)) rfl rfl⟩
      | some p' =>
        rw [record_some h₂, Slot.claim?, hval]
        exact .inl ⟨_, _, rfl, rfl, rfl⟩

theorem rebinding_strides (id : SlotId) (o : ObjectId) (s : State) :
    ((replace id o >>= releaseAny) s).Stays (Strode G) s := by
  cases hv : s.slots.get? id with
  | none =>
    rw [bind_apply, replace, bind_apply, slot_none hv]
    exact .refl
  | some v =>
    rw [bind_apply]
    obtain ⟨t, w, h, hs, hj⟩ | ⟨t, h, hst⟩ := replace_ends (G := G) hv o
    · rw [h, done_bind]
      cases hx : v.claim? with
      | none =>
        rw [hx] at hj
        exact Strode.told hs hj rfl
      | some x =>
        rw [hx] at hj
        exact givenUp_strides hs hj rfl (by rw [Deed.empties?, Option.bind_some, hv]; exact hx)
    · rw [h, raise_bind]
      exact .before (fun _ _ _ => .seq) hst (raise_strides _ t)

/-- Taking the claim out of a slot ends with the word about it, unless there is none, or with a full
counter. -/
theorem unbind_ends (reason : UnbindReason) (hv : s.slots.get? id = some v) :
    (v.claim? = none ∧ ∃ t, unbind id reason s = .done none t ∧ Strode G s t) ∨
    (∃ x t w, v.claim? = some x ∧ unbind id reason s = .done (some x) t ∧
      t.slots = (Deed.set id none).update s.slots ∧
      t.journal = .event (.unbound v.kind v.name reason) w :: .did (.set id none) :: s.journal) ∨
    ∃ t, unbind id reason s = raise .overflow t ∧ Strode G s t := by
  cases hval : v.value with
  | none =>
    have hunbind : unbind id reason s =
        (record v.kind .unboundAccess s).bind fun _ t => .done none t := by
      unfold unbind
      rw [bind_apply, slot_some hv, done_bind, hval]
      rfl
    rw [hunbind]
    cases h₁ : s.profiler.record v.kind .unboundAccess with
    | none =>
      rw [record_none h₁]
      exact .inr (.inr ⟨s, raise_bind _ _ _, .refl⟩)
    | some p =>
      rw [record_some h₁]
      exact .inl ⟨by rw [Slot.claim?, hval]; rfl, _, rfl, .silent rfl rfl⟩
  | some o =>
    let t := (s.setValue id none).hold ⟨v.realm, o⟩
    have hunbind : unbind id reason s = (record v.kind reason.event t).bind fun _ t =>
        .done (some ⟨v.realm, o⟩) (t.emit (.unbound v.kind v.name reason)) := by
      unfold unbind
      rw [bind_apply, slot_some hv, done_bind, hval]
      cases reason <;> rfl
    rw [hunbind]
    cases h₁ : t.profiler.record v.kind reason.event with
    | none =>
      rw [record_none h₁]
      exact .inr (.inr ⟨t, raise_bind _ _ _, .deed (d := .set id none) rfl rfl⟩)
    | some p =>
      rw [record_some h₁]
      exact .inr (.inl ⟨_, _, _, Slot.claim?_some hval, rfl, rfl, rfl⟩)

theorem clearing_strides (id : SlotId) (s : State) :
    ((unbind id .release >>= fun c => releaseAny c >>= fun _ => pure c) s).Stays (Strode G) s := by
  cases hv : s.slots.get? id with
  | none =>
    rw [bind_apply]
    unfold unbind
    rw [bind_apply, slot_none hv]
    exact .refl
  | some v =>
    rw [bind_apply]
    obtain ⟨-, t, h, hst⟩ | ⟨x, t, w, hx, h, hs, hj⟩ | ⟨t, h, hst⟩ :=
      unbind_ends (G := G) .release hv
    · rw [h]
      exact hst
    · rw [h, done_bind, bind_apply]
      refine .bind (fun _ _ _ => .seq) (givenUp_strides hs hj rfl ?_) fun _ _ => .refl
      rw [Deed.empties?, Option.bind_some, hv]
      exact hx
    · rw [h, raise_bind]
      exact .before (fun _ _ _ => .seq) hst (raise_strides _ t)

theorem taking_strides (id : SlotId) (s : State) : (unbind id .transfer s).Stays (Strode G) s := by
  cases hv : s.slots.get? id with
  | none =>
    unfold unbind
    rw [bind_apply, slot_none hv]
    exact .refl
  | some v =>
    obtain ⟨-, t, h, hst⟩ | ⟨x, t, w, -, h, hs, hj⟩ | ⟨t, h, hst⟩ :=
      unbind_ends (G := G) .transfer hv
    · rw [h]
      exact hst
    · rw [h]
      exact Strode.told hs hj rfl
    · rw [h]
      exact .before (fun _ _ _ => .seq) hst (raise_strides _ t)

theorem destroySlot_strides (id : SlotId) (s : State) :
    (destroySlot id s).Stays (Strode G) s := by
  cases hv : s.slots.get? id with
  | none =>
    rw [destroySlot, bind_apply, slot_none hv]
    exact .refl
  | some v =>
    rw [destroySlot, bind_apply, slot_some hv, done_bind]
    cases hval : v.value with
    | none => exact Strode.deed (d := .ended id) rfl rfl
    | some o =>
      let t := ({ s with slots := s.slots.erase id }.did (.ended id)).hold ⟨v.realm, o⟩
      show ((record v.kind .released t).bind _).Stays _ s
      cases h₁ : t.profiler.record v.kind .released with
      | none =>
        rw [record_none h₁, raise_bind]
        exact .before (fun _ _ _ => .seq) (.deed (d := .ended id) rfl rfl) (raise_strides _ t)
      | some p =>
        rw [record_some h₁]
        exact givenUp_strides (d := .ended id) rfl rfl rfl
          (by rw [Deed.empties?, Option.bind_some, hv]; exact Slot.claim?_some hval)

theorem makeSlot_strides (realm : Realm) (kind : CellKind) (name : String)
    (value : Option ObjectId) (s : State) :
    (makeSlot realm kind name value s).Stays (Strode G) s := by
  cases hp : s.profiler.recordMade kind value.isSome with
  | none =>
    obtain ⟨p, h⟩ := makeSlot_full hp
    rw [h]
    exact .before (fun _ _ _ => .seq) (Strode.silent (t := { s with profiler := p }) rfl rfl)
      (raise_strides _ _)
  | some p =>
    -- the word about the new slot comes before the slot itself
    rw [makeSlot_some hp]
    exact .seq (t := s.emit (.constructed kind name value.isSome)) (.calm (.noting rfl rfl rfl))
      (.deed (d := .made s.next ⟨realm, kind, name, value⟩) rfl rfl)

/-! ## Actions on cells -/

theorem Piece.strides {a : Action α} (h : Piece a) (s : State) : (a s).Stays (Strode G) s := by
  cases h with
  | rebinding id o => exact rebinding_strides id o s
  | clearing id => exact clearing_strides id s
  | taking id => exact taking_strides id s
  | ending id => exact destroySlot_strides id s

theorem reading_strides {a : Action α} (id : SlotId) (ha : ∀ s, (a s).Stays (Strode G) s)
    (s : State) : (reading id a s).Stays (Strode G) s := by
  have hset : ∀ f s, (setSharing id f s).Stays (Strode G) s := fun f s => Strode.silent rfl rfl
  refine .bind (fun _ _ _ => .seq) ((lockForReading_still id s).stays fun _ => .refl) fun _ t =>
    .bind (fun _ _ _ => .seq) (hset _ t) fun _ t =>
    .bind (fun _ _ _ => .seq) (ha t).attempt fun r t =>
    .bind (fun _ _ _ => .seq) (hset _ t) fun _ t => ?_
  cases r <;> exact .refl

/-- **Actions on cells go in strides.** -/
theorem Cellular.strides {S : Scope} {a : Action α} (h : Cellular S a) (hf : S.refuses)
    (hl : ¬ S.loose) (hg : S.gains → G) (hr : S.reads → G) (s : State) : (a s).Stays (Strode G) s := by
  induction h generalizing s with
  | pure | fail | halt => exact .refl
  | send => exact ⟨.refl, fun _ => .refl⟩
  | read _ _ _ ih => exact ih s hf hl hg hr s
  | moved ha _ hq =>
    obtain ⟨hs, es, hj, hes⟩ := hq.resolve_left hl s
    rw [ha]
    exact .calm ⟨hs, es, hj, fun e he => (hes e he).imp hg⟩
  | lookClaim _ _ ih => exact ih s.thread hf hl hg hr s
  | eraseClaim | insertClaim => exact Strode.silent rfl rfl
  | piece hp => exact hp.strides s
  | lockForReading id => exact (lockForReading_still id s).stays fun _ => .refl
  | lockForChange id _ _ ih =>
    exact .bind (fun _ _ _ => .seq) ((lockForChange_still id s).stays fun _ => .refl) fun _ =>
      ih hf hl hg hr
  | readOwned id _ hreads _ _ ih =>
    exact reading_strides id (ih hf hl (fun _ => hr hreads) hr) s
  | makeSlot => exact makeSlot_strides _ _ _ _ s
  | makeShared _ ih =>
    exact .bind (fun _ _ _ => .seq) (ih hf hl hg hr s) fun id t =>
      Strode.calm (.noting (e := .did (.shared id)) rfl rfl rfl)
  | bind _ _ ih ihk => exact .bind (fun _ _ _ => .seq) (ih hf hl hg hr s) fun x => ihk x hf hl hg hr
  | tried _ _ ih ihk =>
    exact .bind (fun _ _ _ => .seq) (ih hf hl hg hr s).attempt fun r =>
      ihk r (fun _ _ _ => hf) hf hl hg hr

theorem Cellular.At.strides {S : Scope} {a : Action α} (h : Cellular.At S a s) (hf : S.refuses)
    (hl : ¬ S.loose) (hg : S.gains → G) (hr : S.reads → G) : (a s).Stays (Strode G) s := by
  obtain ⟨b, hb, hcell⟩ := h
  exact hb s rfl ▸ hcell.strides hf hl hg hr s

end Action

/-- The operation may acquire a claim. -/
def Op.Gains (op : Op) : Prop :=
  op.Acquires ∨ op.ReadsOwned

/-- **Operations go in strides**, and tell of no claim that is acquired unless they may acquire
one. -/
theorem course_strides (op : Op) (s : State) : (op.course s).Stays (Strode op.Gains) s := by
  let S : Scope := { Scope.wide fun _ _ => True with gains := op.Gains, reads := op.ReadsOwned }
  have hat : Action.Cellular.At S (perform op) s := by
    refine Action.perform_at trivial (fun _ _ _ => trivial)
      (fun _ => ⟨fun _ _ _ => trivial, fun _ _ => trivial⟩)
      (fun _ => ⟨trivial, fun _ _ _ => trivial⟩) (fun _ _ _ _ => trivial) .inl
      (fun h c _ => ?_) (fun _ c _ => ?_) (fun _ c _ => ?_) fun _ => ⟨trivial, fun _ => trivial⟩
    · cases c with
      | own => exact .inr h
      | handle => exact ⟨h, trivial⟩
    · cases c <;> trivial
    · cases c <;> trivial
  exact (Action.unwinding_at hat).strides trivial id id .inr

end ClaimCells
