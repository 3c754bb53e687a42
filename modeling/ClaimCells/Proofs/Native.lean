import ClaimCells.Proofs.Making
import ClaimCells.Proofs.Objects

/-!
# Calls from native code

A call from native code touches no variable but those of native objects, and calls that are not
about handles make and give up none. Its handle may be gone once a script has run, as nothing keeps
it alive; such a call then fails.

Main result: `performNative_does`.
-/

namespace ClaimCells

variable {α β : Type} {s s' t : State} {l l' : List Cell} {ds ds' : List Deed} {H : List Claim}
  {c : Cell} {v : Slot} {o : ObjectId} {id : SlotId}

/-- The shared cell that gets a handle more or less. -/
def Deed.counts? : Deed → Option SlotId
  | .shared id | .retained id | .dropped id => some id
  | _ => none

/-- Nothing is touched but slots for native objects, and in no other way than is permitted. -/
def Foreign (s : State) (P : Deed → Prop) (ds : List Deed) : Prop :=
  ∀ d ∈ ds, P d ∧ ∃ id, d.slot? = some id ∧ ∀ v, s.slots.get? id = some v → v.realm = .native

/-- What a call from native code may do: only some are about handles. -/
def NativeOp.Permits : NativeOp → Deed → Prop
  | .create .., _ | .retain .., _ | .release _, _ => True
  | _, d => d.counts? = none

variable {P : Deed → Prop}

theorem Foreign.nil : Foreign s P [] := nofun

/-- Deeds that are done to one slot alone. -/
theorem Foreign.of_slot (hv : ∀ v, s.slots.get? id = some v → v.realm = .native)
    (h : ∀ d ∈ ds, P d ∧ d.slot? = some id) : Foreign s P ds :=
  fun d hd => ⟨(h d hd).1, id, (h d hd).2, hv⟩

/-- A handle that native code holds. -/
structure Cell.Lent (s : State) (c : Cell) (v : Slot) : Prop extends c.Stands s v where
  native : v.realm = .native
  handle : ∃ id a, c = .handle id a

theorem Cell.Lent.foreign (h : c.Lent s v) (hd : ∀ d ∈ ds, P d ∧ d.slot? = some c.slot) :
    Foreign s P ds := by
  refine .of_slot (fun v' hv' => ?_) hd
  rw [h.slot] at hv'
  cases hv'
  exact h.native

/-- The number behind a key, and the handle behind the number. -/
def State.Reaches (s : State) (key : String) (i : HandleId) (c : Cell) : Prop :=
  s.handleKeys.get? key = some i ∧ s.handles.get? i = some c

theorem Sound.lent (hs : Sound l s) {i : HandleId} (hi : s.handles.get? i = some c) :
    ∃ v, c.Lent s v := by
  obtain ⟨v, hv, hn⟩ := hs.stands_of_handle hi
  exact ⟨v, hv, hn, (hs.native i c hi).handle⟩

namespace Action

open Act (Does)

/-- How every call from native code ends. -/
abbrev Natives (s : State) (P : Deed → Prop) : Post Answer :=
  Works s fun ds _ => Foreign s P ds

/-! ## Handles -/

theorem handleId_some {key : String} {i : HandleId} (h : s.handleKeys.get? key = some i) :
    handleId key s = .done i s := by
  simp only [handleId, bind_apply, get_apply, done_bind, h, demand_some]

theorem handleId_none {key : String} (h : s.handleKeys.get? key = none) :
    handleId key s = .fail .noSuchHandle s := by
  simp only [handleId, bind_apply, get_apply, done_bind, h, demand_none]

theorem handle_cases (key : String) (s : State) :
    (∃ i c, s.Reaches key i c ∧ handle key s = .done c s) ∨
      handle key s = .fail .noSuchHandle s := by
  cases hi : s.handleKeys.get? key with
  | none => exact .inr (by rw [handle, bind_apply, get_apply, done_bind, bind_apply,
      handleId_none hi, fail_bind])
  | some i =>
    rw [handle, bind_apply, get_apply, done_bind, bind_apply, handleId_some hi, done_bind]
    cases hc : s.handles.get? i with
    | none => exact .inr rfl
    | some c => exact .inl ⟨i, c, ⟨hi, hc⟩, rfl⟩

section Handles

variable {P : List Deed → Except Failure α → Prop} {k : Cell → Action α} {h : Option String}

theorem withHandle_does {key : String} (hs : Sound [] s) (hp : ∀ f, P [] (.error f))
    (hk : ∀ i c v, s.Reaches key i c → c.Lent s v → (k c s).Does (Works s P) [] [] s) :
    ((handle key >>= k) s).Does (Works s P) [] [] s := by
  rw [bind_apply]
  rcases handle_cases key s with ⟨i, c, hi, he⟩ | he
  · obtain ⟨v, hv⟩ := hs.lent hi.2
    rw [he, done_bind]
    exact hk i c v hi hv
  · rw [he, fail_bind]
    exact .fail ⟨rfl, hp _, [], .refl s, nofun⟩

theorem handleOrNull_does (hs : Sound [] s) (hp : ∀ f, P [] (.error f))
    (hk : ∀ key i c v, h = some key → s.Reaches key i c → c.Lent s v →
      (k c s).Does (Works s P) [] [] s) :
    ((handleOrNull h >>= k) s).Does (Works s P) [] [] s := by
  cases h with
  | some key => exact withHandle_does hs hp fun i c v => hk key i c v rfl
  | none =>
    rw [handleOrNull, bind_apply, violate_bind]
    refine violate_does ⟨rfl, hp _, [], ?_, nofun⟩
    exact (Aside.emit s _ fun _ => rfl).came

theorem someHandle_does (hs : Sound [] s) (hp : ∀ f, P [] (.error f))
    (hk : ∀ c v, c.Lent s v → (k c s).Does (Works s P) [] [] s) :
    ((someHandle h >>= k) s).Does (Works s P) [] [] s := by
  cases h with
  | some key => exact withHandle_does hs hp fun i c v _ => hk c v
  | none => exact .fail ⟨rfl, hp _, [], .refl s, nofun⟩

end Handles

/-- A handle in the arms is given out. -/
theorem giveHandle_does {key : Option String} {a : Access} {parent : Option HandleId}
    (hr : ∀ v, s.slots.get? id = some v → v.realm = .native)
    (hd : Descends s s.handles.get? parent (.handle id a)) :
    (giveHandle key (.handle id a) parent s).Does
      (fun ds' l' r s' => ds' = ds ∧ l' = [] ∧ r = .ok () ∧ Came s s.thread.hands s') ds
      [.handle id a] s := by
  have m := Move.given (List.mem_singleton_self (Cell.handle id a)) hr hd
  rw [List.erase_cons_head] at m
  have hc : Came s s.thread.hands _ := Move.came m rfl rfl
  rw [giveHandle, bind_apply, fresh_apply, done_bind, bind_apply, modify_apply, done_bind,
    bind_apply, note_apply, done_bind]
  refine .idle m ?_
  cases key with
  | none => exact .done ⟨rfl, rfl, rfl, hc⟩
  | some key =>
    generalize State.note _ _ = t at hc ⊢
    have ha : Aside t { t with handleKeys := t.handleKeys.insert key s.next } := .silent rfl rfl
    exact .idle (.aside ha) (.done ⟨rfl, rfl, rfl, hc.stay ha.came⟩)

/-! ## Calls -/

theorem install_plain {T : Prop} (f : Functions) : Plain T (install f) := by
  refine .read (fun _ _ _ => rfl) fun s => ?_
  split
  · exact .pure _
  · refine .bind (.tried initFromEnvironment_plain) fun r => ?_
    split
    · exact .bind (.modify (fun _ => .silent rfl rfl) fun _ _ _ => rfl) fun _ => .pure _
    · exact .violate _
    · exact .fail _

theorem performInstall_plain {T : Prop} (f g : Library) : Plain T (performNative (.install f g)) := by
  have hdepth : ∀ h : Nat → Nat,
      Plain T (inThread fun t => { t with nativeDepth := h t.nativeDepth }) := fun _ =>
    .inThread (fun _ => .silent rfl rfl) fun _ _ _ => rfl
  exact .bind (hdepth (· + 1)) fun _ =>
    .bind (.tried (.bind (install_plain _) fun _ => .pure _)) fun _ =>
    .bind (hdepth (· - 1)) fun _ => .ofExcept _

theorem setLastError_plain (e : CellError) : Plain True (setLastError e) :=
  .bind (.emit fun _ => rfl) fun _ => .inThread (fun _ => .silent rfl rfl) fun _ _ _ => rfl

/-- A call that leaves an error to its thread. -/
theorem orLastError_does {a : Action α} {g : Option α → Answer} (hs : Sound [] s)
    (h : (a s).Does (fun ds l r s' => l = [] ∧ Foreign s P ds ∧ ∃ own,
      Came s (own ++ s.thread.hands) s' ∧ (own = [] ∨ ∃ p, r = .error (.panic p))) [] [] s) :
    ((orLastError a >>= fun x => pure (g x)) s).Does (Natives s P) [] [] s := by
  have h' : (orLastError a s).Does (Works s fun ds _ => Foreign s P ds) [] [] s := by
    refine .tried hs h ?_
    rintro ds l r t ht ⟨rfl, hds, own, hc, hown⟩
    cases r with
    | ok x =>
      obtain rfl : own = [] := hown.resolve_right nofun
      exact .done ⟨rfl, hds, [], hc, fun _ _ => rfl⟩
    | error f =>
      cases f with
      | cell e =>
        obtain rfl : own = [] := hown.resolve_right nofun
        refine .seq ht ((setLastError_plain e).idle _ _ t ht) ?_ ?_
        · rintro ds' l' _ t' - ⟨rfl, rfl, hc'⟩
          exact .done ⟨rfl, hds, [], hc.stay hc', fun _ _ => rfl⟩
        · rintro ds' l' f t' - ⟨rfl, rfl, hc'⟩
          exact ⟨rfl, hds, [], hc.stay hc', nofun⟩
      | _ => exact .fail ⟨rfl, hds, own, hc, nofun⟩
  refine .seq hs h' ?_ ?_
  · rintro ds l x t - ⟨rfl, hds, own, hc, hown⟩
    obtain rfl := hown x rfl
    exact .done ⟨rfl, hds, [], hc, fun _ _ => rfl⟩
  · rintro ds l f t - ⟨rfl, hds, own, hc, -⟩
    exact ⟨rfl, hds, own, hc, nofun⟩

/-- A call that hands a claim out. -/
theorem handOver_does {a : Action Claim} (h : (a s).Does (fun ds l r s' => l = [] ∧ Foreign s P ds ∧
      match r with
      | .ok c => Came s (c :: s.thread.hands) s'
      | .error _ => ∃ own, Came s (own ++ s.thread.hands) s') [] [] s) (hs : Sound [] s) :
    (handOver a s).Does (Natives s P) [] [] s := by
  refine .seq hs h ?_ ?_
  · rintro ds l c t - ⟨rfl, hds, hc⟩
    have m : Move [] t [] [] _ := .disowned (c := c) (by rw [hc.hands]; exact List.mem_cons_self)
    exact .idle m (.done ⟨rfl, hds, [], hc.trans (Move.came m rfl (State.letGo_hands hc.hands)),
      fun _ _ => rfl⟩)
  · rintro ds l f t - ⟨rfl, hds, own, hc⟩
    exact ⟨rfl, hds, own, hc, nofun⟩

/-- A call that changes nothing. -/
theorem Looks.natives {a : Action α} {g : α → Answer} {Q : Except Failure α → Prop}
    (hs : Sound [] s) (h : (a s).Does (Looks s [] [] Q) [] [] s) :
    ((a >>= fun x => pure (g x)) s).Does (Natives s P) [] [] s := by
  refine .seq hs h ?_ ?_
  · rintro ds l x s - ⟨rfl, rfl, rfl, -⟩
    exact .done ⟨rfl, .nil, [], .refl s, fun _ _ => rfl⟩
  · rintro ds l f s - ⟨rfl, rfl, rfl, -⟩
    exact ⟨rfl, .nil, [], .refl s, nofun⟩

theorem handleSlot_does {h : Option String} {k : SlotId → Action Answer} (hs : Sound [] s)
    (hk : ∀ (c : Cell) v, c.Lent s v → (k c.slot s).Does (Natives s P) [] [] s) :
    ((handleSlot h >>= k) s).Does (Natives s P) [] [] s := by
  rw [handleSlot, bind_assoc]
  exact someHandle_does hs (fun _ => .nil) hk

theorem creating_does {key : Option String} {name : Option Text.Utf8.Bytes} (hs : Sound [] s) :
    (callNative (.create key name o) s).Does (Natives s fun _ => True) [] [] s := by
  have hmake : ∀ initial : Option ObjectId, ∀ t, Sound [] t → t.slots = s.slots →
      t.next = s.next → Came s ((initial.map (⟨.native, ·⟩ : ObjectId → Claim)).toList ++
        s.thread.hands) t →
      ((makeShared .native (nativeName name) initial >>= fun c => giveHandle key c >>= fun _ =>
        pure Answer.nothing) t).Does (Natives s fun _ => True) [] [] t := by
    intro initial t ht hslots hnext hc
    have hforeign : ∀ ds : List Deed, (∀ d ∈ ds, d.slot? = some s.next) →
        Foreign s (fun _ => True) ds := fun ds hds =>
      .of_slot (fun v hv => absurd (hs.youngSlots _ v hv) (lt_irrefl _)) fun d hd =>
        ⟨trivial, hds d hd⟩
    refine .seq ht (makeShared_does ht hc.hands) ?_ ?_
    · rintro ds l c u hu ⟨rfl, rfl, rfl, hv, hc', hone⟩
      have hr : ∀ v, u.slots.get? t.next = some v → v.realm = .native := by
        intro v' hv'
        rw [hv] at hv'
        cases hv'
        rfl
      refine .seq hu (giveHandle_does hr hone) ?_ ?_
      · rintro ds l _ s' - ⟨rfl, rfl, -, hc₂⟩
        refine .done ⟨rfl, hforeign _ ?_, [], (hc.trans hc').stay hc₂, fun _ _ => rfl⟩
        simp [making, Deed.slot?, hnext]
      · rintro ds l f s' - ⟨-, -, ⟨⟩, -⟩
    · rintro ds l f u - ⟨rfl, rfl, -, hc'⟩
      exact ⟨rfl, .nil, _, hc.trans (hc.hands ▸ hc'), nofun⟩
  by_cases ho : o = 0
  · have he : callNative (.create key name o) s = (makeShared .native (nativeName name) none >>=
        fun c => giveHandle key c >>= fun _ => pure Answer.nothing) s := by
      simp only [callNative, createHandle, ho, ne_eq, not_true_eq_false, if_true, if_false,
        bind_assoc]
    rw [he]
    exact hmake none s hs rfl rfl (.refl s)
  · have m := Move.adopted (l := []) (s := s) ⟨.native, o⟩
    have he : callNative (.create key name o) s = (adopt ⟨.native, o⟩ >>= fun _ =>
        makeShared .native (nativeName name) (some o) >>= fun c => giveHandle key c >>= fun _ =>
          pure Answer.nothing) s := by
      simp only [callNative, createHandle, ho, ne_eq, not_false_eq_true, if_true, if_false,
        bind_assoc]
    rw [he]
    exact .idle m (hmake (some o) _ (m.sound hs) rfl rfl (Move.came m rfl rfl))

theorem retainingNative_does {h key : Option String} (hs : Sound [] s) :
    (callNative (.retain h key) s).Does (Natives s fun _ => True) [] [] s := by
  refine handleOrNull_does hs (fun _ => .nil) fun key' i c v hkey hi hv => ?_
  obtain ⟨id, a, rfl⟩ := hv.handle
  obtain ⟨sh, hsh⟩ := hv.shared id a rfl
  refine .seq hs (retain_does hsh hv.slot) ?_ ?_
  · rintro ds l c' t ht ⟨rfl, rfl, ⟨⟩, hc, hslots, hthread, hhandles, hkeys⟩
    subst hkey
    have hr : ∀ v', t.slots.get? id = some v' → v'.realm = .native := by
      intro v' hv'
      rw [hslots] at hv'
      cases hv.slot.symm.trans hv'
      exact hv.native
    have hd : Descends t t.handles.get? (some i) (.handle id .free) :=
      ⟨rfl, .handle id a, by rw [hhandles]; exact hi.2, rfl⟩
    have hid : handleId key' t = .done i t := handleId_some (hkeys ▸ hi.1)
    have he : ((some key').mapM handleId : Action (Option HandleId)) t = .done (some i) t := by
      show (handleId key' >>= fun i => pure (some i)) t = _
      rw [bind_apply, hid]
      rfl
    rw [bind_apply, he, done_bind]
    refine .seq ht (giveHandle_does hr hd) ?_ ?_
    · rintro ds l _ s' - ⟨rfl, rfl, -, hc'⟩
      refine .done ⟨rfl, hv.foreign fun d hd => ⟨trivial, ?_⟩, [], hc.stay hc', fun _ _ => rfl⟩
      rw [List.mem_singleton.1 hd]
      rfl
    · rintro ds l f s' - ⟨-, -, ⟨⟩, -⟩
  · rintro ds l f t - ⟨-, -, ⟨⟩, -⟩

theorem releasingNative_does {key : String} (hs : Sound [] s) :
    (callNative (.release (some key)) s).Does (Natives s fun _ => True) [] [] s := by
  change ((takeHandle key >>= fun c => releaseHandle c.slot >>= fun _ =>
    pure Answer.nothing) s).Does _ _ _ _
  have hfail : ∀ f : Failure, takeHandle key s = .fail f s →
      ((takeHandle key >>= fun c => releaseHandle c.slot >>= fun _ =>
        pure Answer.nothing) s).Does (Natives s fun _ => True) [] [] s := by
    intro f he
    rw [bind_apply, he, fail_bind]
    exact .fail ⟨rfl, .nil, [], .refl s, nofun⟩
  cases hi : s.handleKeys.get? key with
  | none => exact hfail .noSuchHandle (by rw [takeHandle, bind_apply, handleId_none hi, fail_bind])
  | some i =>
    cases hc : s.handles.get? i with
    | none =>
      refine hfail .noSuchHandle ?_
      simp only [takeHandle, bind_apply, handleId_some hi, done_bind, get_apply, hc, demand_none,
        fail_bind]
    | some c =>
      obtain ⟨v, hv⟩ := hs.lent hc
      obtain ⟨id, a, rfl⟩ := hv.handle
      have m := Move.givenBack (l := []) key hc
      have he : takeHandle key s = .done (.handle id a)
          { s with handles := s.handles.erase i, handleKeys := s.handleKeys.erase key } := by
        simp only [takeHandle, bind_apply, handleId_some hi, done_bind, get_apply, hc, demand_some]
        rfl
      rw [bind_apply, he, done_bind]
      refine .idle m (.seq (m.sound hs) (releaseHandle_does (m.sound hs)) ?_ ?_)
      · rintro ds l _ t - ⟨rfl, rfl, hc'⟩
        exact .done ⟨rfl, hv.foreign fun d hd => ⟨trivial, Cell.slot_of_ending hd⟩, [],
          (Move.came m rfl rfl).stay hc', fun _ _ => rfl⟩
      · rintro ds l f t - ⟨rfl, rfl, -, own, hc'⟩
        exact ⟨rfl, hv.foreign fun d hd => ⟨trivial, Cell.slot_of_ending hd⟩, own,
          (Move.came m rfl rfl).trans hc', nofun⟩

theorem Assigns.permits {r : Except Failure Unit} (h : Assigns t [] c o H ds l r s') :
    ∀ d ∈ ds, d.counts? = none ∧ d.slot? = some c.slot := by
  obtain ⟨-, hr⟩ := h
  cases r with
  | ok => rw [hr.1]; simp [Deed.counts?, Deed.slot?]
  | error f =>
    rcases hr.2 with ⟨rfl, -⟩ | ⟨rfl, -⟩
    · nofun
    · simp [Deed.counts?, Deed.slot?]

theorem Cell.permits_emptying {d : Deed} (h : d ∈ c.emptying v) :
    d.counts? = none ∧ d.slot? = some c.slot := by
  refine ⟨?_, Cell.slot_of_emptying h⟩
  rw [Cell.emptying] at h
  cases hv : v.value with
  | none => rw [hv] at h; cases h
  | some o => rw [hv] at h; rw [List.mem_singleton.1 h]; rfl

/-- An assignment for native code, as a whole call. -/
theorem Assigns.natives {a : Action Unit} (hs : Sound [] t) (hv : c.Lent s v)
    (hc : Onward s t) (h : (a t).Does (Assigns t [] c o s.thread.hands) [] [] t) :
    ((a >>= fun _ => pure Answer.nothing) t).Does (Natives s (·.counts? = none)) [] [] t := by
  refine .seq hs h ?_ ?_
  · rintro ds l _ u - ha
    obtain ⟨own, hc', hown⟩ := ha.came hc
    exact .done ⟨ha.1, hv.foreign ha.permits, own, hc', fun _ _ => hown _ rfl⟩
  · rintro ds l f u - ha
    obtain ⟨own, hc', -⟩ := ha.came hc
    exact ⟨ha.1, hv.foreign ha.permits, own, hc', nofun⟩

/-- Null is refused before anything is done. -/
theorem callNative_assign (h : Option String) (o : ObjectId) :
    callNative (.assign h o) = (match h with
      | some key => discard (handle key)
      | none => pure ()) >>= fun _ => (if o = 0 then violate .nullAssignment else handleOrNull h >>=
        fun c => adopt ⟨.native, o⟩ >>= fun _ => assign c o >>= fun _ => pure Answer.nothing) := by
  funext s
  cases h <;> by_cases ho : o = 0 <;> simp [callNative, ho, violate_seq]

theorem assigningNative_does {h : Option String} (hs : Sound [] s) :
    (callNative (.assign h o) s).Does (Natives s (·.counts? = none)) [] [] s := by
  have hnil : ∀ f : Failure, Foreign s (·.counts? = none) [] := fun _ => .nil
  have hviolate : ∀ i : Invariant, (violate i s : Act Answer).Does (Natives s (·.counts? = none)) [] [] s :=
    fun i => (Plain.violate (T := True) i).idle.works hs fun _ => .nil
  -- the same handle is looked up twice
  have hrest : ((if o = 0 then violate .nullAssignment else handleOrNull h >>= fun c =>
      adopt ⟨.native, o⟩ >>= fun _ => assign c o >>= fun _ => pure Answer.nothing) s).Does
        (Natives s (·.counts? = none)) [] [] s := by
    rw [ite_apply]
    split
    · exact hviolate _
    · refine handleOrNull_does hs hnil fun key i c v _ _ hv => ?_
      have m := Move.adopted (l := []) (s := s) ⟨.native, o⟩
      have hc : Came s (⟨.native, o⟩ :: s.thread.hands) _ := Move.came m rfl rfl
      refine .idle m (Assigns.natives (o := o) (m.sound hs) hv hc.toOnward ?_)
      exact assign_does (m.sound hs) ⟨hv.slot, hv.shared⟩ (by rw [hv.native]; exact hc.hands)
  rw [callNative_assign]
  cases h with
  | none => exact hrest
  | some key =>
    change ((discard (handle key) >>= fun _ => _) s).Does _ _ _ _
    rw [bind_apply]
    rcases handle_cases key s with ⟨i, c, hi, he⟩ | he
    · have hd : discard (handle key) s = .done () s := by
        show (handle key s).bind _ = _
        rw [he]
        rfl
      rw [hd, done_bind]
      exact hrest
    · have hd : discard (handle key) s = .fail .noSuchHandle s := by
        show (handle key s).bind _ = _
        rw [he]
        rfl
      rw [hd, fail_bind]
      exact .fail ⟨rfl, .nil, [], .refl s, nofun⟩

theorem callNative_does (op : NativeOp) (hs : Sound [] s) :
    (callNative op s).Does (Natives s op.Permits) [] [] s := by
  have hnil : ∀ {P : Deed → Prop} (f : Failure), Foreign s P [] := fun _ => .nil
  cases op with
  | install acquire release =>
    exact ((install_plain (T := True) _).bind fun _ => .pure _).idle.works hs fun _ => .nil
  | create key name o => exact creating_does hs
  | retain h key => exact retainingNative_does hs
  | release h =>
    cases h with
    | none => exact (Plain.violate (T := True) _).idle.works hs fun _ => .nil
    | some key => exact releasingNative_does hs
  | assign h o => exact assigningNative_does hs
  | read h =>
    refine handleOrNull_does hs hnil fun key i c v _ _ hv => orLastError_does hs ?_
    refine (read_does hs hv.toStands).imp ?_
    rintro ds l r s' ⟨rfl, rfl, hr⟩
    refine ⟨rfl, .nil, [], ?_, .inl rfl⟩
    cases r with
    | ok x => exact hr.2 ▸ .refl s
    | error f => exact hr.2
  | clear h =>
    refine handleOrNull_does hs hnil fun key i c v _ _ hv => ?_
    refine orLastError_does (g := fun x => .flag x.isSome) hs ((clear_does hs hv.toStands).imp ?_)
    rintro ds l r s' ⟨rfl, hr⟩
    have hem : Foreign s (·.counts? = none) (c.emptying v) :=
      hv.foreign fun d => Cell.permits_emptying
    cases r with
    | ok b => exact ⟨rfl, hr.1 ▸ hem, [], hr.2.1, .inl rfl⟩
    | error f =>
      obtain ⟨⟨own, hc, hown⟩, hd⟩ := hr
      refine ⟨rfl, ?_, own, hc, hown.imp_right fun ⟨p, hp⟩ => ⟨p, by rw [hp]⟩⟩
      rcases hd with ⟨rfl, -⟩ | ⟨rfl, -⟩
      · exact .nil
      · exact hem
  | isBound h =>
    exact handleOrNull_does hs hnil fun key i c v _ _ hv =>
      Looks.natives (g := fun v => .flag v.value.isSome) hs (look_does hs hv.toStands)
  | lastError =>
    refine Idle.works (Plain.idle (T := True) (.readThread (fun _ _ _ => rfl) fun t => ?_)) hs fun _ => .nil
    split <;> exact .pure _
  | clearError =>
    exact (Plain.inThread (T := True) (fun _ => .silent rfl rfl) fun _ _ _ => rfl).bind (fun _ => .pure _)
      |>.idle.works hs fun _ => .nil
  | acquire o =>
    refine .seq hs (acquireRaw_does hs ⟨.native, o⟩) ?_ ?_
    · rintro ds l _ t - ⟨rfl, rfl, hc⟩
      exact .done ⟨rfl, .nil, [], hc, fun _ _ => rfl⟩
    · rintro ds l f t - ⟨rfl, rfl, -, hc⟩
      exact ⟨rfl, .nil, [], hc, nofun⟩
  | drop o =>
    exact adopting_does hs (.refl s) fun t ht hc => releasing_does ht (fun _ => .nil) hc
  | name h =>
    exact handleSlot_does hs fun c v hv =>
      Looks.natives (g := fun v => .text v.name) hs (slot_does hv.slot)
  | refcount h =>
    refine handleSlot_does hs fun c v hv => ?_
    obtain ⟨id, a, rfl⟩ := hv.handle
    obtain ⟨sh, hsh⟩ := hv.shared id a rfl
    change ((sharing id >>= fun sh => pure (Answer.count sh.handles)) s).Does _ _ _ _
    rw [bind_apply, sharing_some hsh]
    exact .done ⟨rfl, .nil, [], .refl s, fun _ _ => rfl⟩
  | sameAs h other =>
    exact handleSlot_does hs fun c v hv => handleSlot_does hs fun c' v' hv' =>
      .done ⟨rfl, .nil, [], .refl s, fun _ _ => rfl⟩
  | debug h =>
    exact someHandle_does hs hnil fun c v hv =>
      Looks.natives (g := .text) hs (debugText_does hs hv.toStands false)
  | readOwned h =>
    refine someHandle_does hs hnil fun c v hv => handOver_does ?_ hs
    refine (readOwned_does hs hv.toStands).imp ?_
    rintro ds l r s' ⟨rfl, rfl, hr⟩
    refine ⟨rfl, .nil, ?_⟩
    cases r with
    | ok claim => exact hr.2
    | error f => exact ⟨[], hr.1⟩
  | take h =>
    refine someHandle_does hs hnil fun c v hv => handOver_does ?_ hs
    refine (take_does hs hv.toStands).imp ?_
    rintro ds l r s' ⟨rfl, hr⟩
    have hem : Foreign s (·.counts? = none) (c.emptying v) :=
      hv.foreign fun d => Cell.permits_emptying
    cases r with
    | ok claim =>
      obtain ⟨-, rfl, hc⟩ := hr
      exact ⟨rfl, hv.foreign fun d hd => by rw [List.mem_singleton.1 hd]; exact ⟨rfl, rfl⟩, hc⟩
    | error f =>
      obtain ⟨hown, hd⟩ := hr
      refine ⟨rfl, ?_, hown⟩
      rcases hd with ⟨rfl, -⟩ | ⟨rfl, -⟩
      · exact .nil
      · exact hem
  | assignBorrowed h o =>
    refine someHandle_does hs hnil fun c v hv => ?_
    refine .seq hs (assignBorrowed_does hs hv.toStands) ?_ ?_
    · rintro ds l _ t - (ha | ⟨-, -, f, ⟨⟩, -⟩)
      obtain ⟨own, hc, hown⟩ := ha.came (.refl s)
      exact .done ⟨ha.1, hv.foreign ha.permits, own, hc, fun _ _ => hown _ rfl⟩
    · rintro ds l f t - (ha | ⟨rfl, rfl, _, ⟨⟩, ⟨-, -, hc⟩ | ⟨-, hc, -⟩⟩)
      · obtain ⟨own, hc, -⟩ := ha.came (.refl s)
        exact ⟨ha.1, hv.foreign ha.permits, own, hc, nofun⟩
      · exact ⟨rfl, .nil, [], hc, nofun⟩
      · exact ⟨rfl, .nil, [_], hc, nofun⟩

end Action

/-! ## Whole calls -/

/-- The state within a call from native code. -/
def State.calling (s : State) : State :=
  s.inThread fun t => { t with nativeDepth := t.nativeDepth + 1 }

/-- The state when a call has come back. -/
def State.returned (s : State) : State :=
  s.inThread fun t => { t with nativeDepth := t.nativeDepth - 1 }

@[simp] theorem State.calling_returned (s : State) : s.calling.returned = s := rfl

namespace Action

theorem nativeCall_apply (a : Action α) (s : State) :
    nativeCall a s = (a s.calling).attempt.bind fun r t => ofExcept r t.returned := rfl

theorem nativeCall_done {a : Action α} {x : α} {t : State} (h : a s.calling = .done x t) :
    nativeCall a s = .done x t.returned := by
  rw [nativeCall_apply, h]
  rfl

theorem nativeCall_halt {a : Action α} {p : Halt} {t : State} (h : a s.calling = .halt p t) :
    nativeCall a s = .halt p t := by
  rw [nativeCall_apply, h]
  rfl

/-- **Calls from native code touch no other variables.** -/
theorem performNative_does (op : NativeOp) (hs : Sound [] s) :
    (performNative op s).Does (Natives s op.Permits) [] [] s := by
  have ha : Aside s s.calling := .silent rfl rfl
  have m := Move.aside (l := []) ha
  rw [performNative, nativeCall, bind_apply, inThread_apply, done_bind]
  refine .idle m (.tried (m.sound hs) (callNative_does op (m.sound hs)) ?_)
  rintro ds l r t - ⟨rfl, hds, own, hc, hown⟩
  have ha' : Aside t t.returned := .silent rfl rfl
  have hc' : Came s (own ++ s.thread.hands) _ := (ha.came.trans hc).stay ha'.came
  rw [bind_apply, inThread_apply, done_bind]
  refine .idle (.aside ha') ?_
  cases r with
  | ok x => exact .done ⟨rfl, hds, own, hc', hown⟩
  | error f => exact .fail ⟨rfl, hds, own, hc', nofun⟩

end Action

end ClaimCells
