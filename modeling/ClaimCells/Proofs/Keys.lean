import ClaimCells.Proofs.Cells

/-!
# Keys at work

What the actions of `Keeping` do. An operation that uses a cell finds it in its place after every
signal, whatever a script did to its key; if the key was given away meanwhile, the cell ends when
the operation leaves it.

Main results: `withCell_does`, `looking_does` and `changing_does`, which reduce the use of a kept
cell to what is done inside.
-/

namespace ClaimCells

variable {α β : Type} {s s' : State} {l l' : List Cell} {ds ds' : List Deed} {H : List Claim}
  {key : String} {k : KeptId} {e : Kept} {c : Cell} {o : ObjectId}

theorem State.flag_kept (s : State) (k : KeptId) (f : Kept → Kept) (k' : KeptId) :
    (s.flag k f).thread.kept.get? k' =
      if k' = k then (s.thread.kept.get? k).map f else s.thread.kept.get? k' :=
  Table.get?_modify _ _ _ _

/-- Flags that are set for a while and put back. -/
theorem Came.around {f g : Kept → Kept} (hk : s.thread.kept.get? k = some e)
    (hu : (f e).users ≠ 0) (h : Came (s.flag k f) H s') (hg : g (f e) = e) :
    Came s H (s'.flag k g) where
  lasting := by
    have h₁ : Lasting s (s.flag k f) := .of_eq rfl rfl
    have h₂ : Lasting s' (s'.flag k g) := .of_eq rfl rfl
    exact h₁.trans (h.lasting.trans h₂)
  waiting := h.waiting
  build := h.build
  used k' e' he hu' := by
    rw [State.flag_kept]
    split
    · next hkk =>
      subst hkk
      rw [hk] at he
      cases he
      have h1 := h.used k' (f e) (by rw [State.flag_kept, if_pos rfl, hk]; rfl) hu
      rw [h1, Option.map_some, hg]
    · next hkk =>
      exact h.used k' e' (by rw [State.flag_kept, if_neg hkk]; exact he) hu'
  gone k' hlt hn := by
    have hne : k' ≠ k := fun hkk => by rw [hkk, hk] at hn; cases hn
    rw [State.flag_kept, if_neg hne]
    exact h.gone k' hlt (by rw [State.flag_kept, if_neg hne]; exact hn)
  hands := h.hands

/-- Giving up a cell that is not in use leads onward. -/
theorem Came.unkept {m : List Cell} (hk : s.thread.kept.get? k = some e) (hu : e.users = 0)
    (h : Move l s ds m s') (ht : s'.thread.kept = s.thread.kept.erase k)
    (hh : s'.thread.hands = H) : Came s H s' where
  lasting := h.lasting
  waiting := h.waiting.1
  build := h.build
  used k' e' he hu' := by
    rw [ht, Table.get?_erase_ne]
    · exact he
    · rintro rfl
      rw [hk] at he
      cases he
      exact hu' hu
  gone k' _ hn := by
    rw [ht, Table.get?_erase]
    split
    · rfl
    · exact hn
  hands := hh

/-- Keeping a cell under a new number leads onward. -/
theorem Came.kept {m : List Cell} (h : Move l s ds m s') (hs : Sound l s)
    (ht : s'.thread.kept = s.thread.kept.insert s.next { cell := c })
    (hh : s'.thread.hands = H) : Came s H s' where
  lasting := h.lasting
  waiting := h.waiting.1
  build := h.build
  used k' e' he _ := by
    rw [ht, Table.get?_insert_ne _ _ (hs.thread.young k' e' he).ne]
    exact he
  gone k' hlt hn := by
    rw [ht, Table.get?_insert_ne _ _ hlt.ne]
    exact hn
  hands := hh

/-- The entry of a cell that one more operation uses. -/
def Kept.entered (e : Kept) : Kept :=
  { e with users := e.users + 1 }

theorem Cell.Stands.flag {v : Slot} {f : Kept → Kept} (h : c.Stands s v) :
    c.Stands (s.flag k f) v :=
  ⟨h.slot, h.shared⟩

theorem Sound.flag {f : Kept → Kept} (h : Sound l s) (hf : ∀ e : Kept, (f e).cell = e.cell) :
    Sound l (s.flag k f) :=
  h.noted fun e _ => hf e

/-- The deeds of giving up a kept cell, unless an operation uses it. -/
def Kept.leaving (s : State) (e : Kept) : List Deed :=
  if e.users = 0 then e.cell.ending s else []

/-- The cell with a key. -/
def State.cellOf (s : State) (key : String) : Option Cell :=
  ((s.thread.cells.get? key).bind s.thread.kept.get?).map Kept.cell

/-- The deeds of giving a key to another cell. -/
def State.displacing (s : State) (key : String) : List Deed :=
  ((s.thread.cells.get? key).bind s.thread.kept.get?).elim [] (Kept.leaving s)

namespace Action

open Act (Does)

/-! ## Kept claims -/

theorem takeClaim_some (h : s.thread.claims.get? key = some o) :
    takeClaim key s = .done o
      ((s.inThread fun t => { t with claims := t.claims.erase key }).hold ⟨.counted, o⟩) := by
  simp only [takeClaim, claimed, bind_apply, thread_apply, done_bind, h, demand_some]
  rfl

theorem takeClaim_none (h : s.thread.claims.get? key = none) :
    takeClaim key s = .fail .noSuchClaim s := by
  simp only [takeClaim, claimed, bind_apply, thread_apply, done_bind, h, demand_none, fail_bind]

theorem requireKnown_some (h : o ∈ s.thread.known) : requireKnown o s = .done () s := by
  simp only [requireKnown, bind_apply, thread_apply, done_bind, List.contains_eq_mem, h,
    decide_true, Bool.not_true, Bool.false_eq_true, if_false, pure_apply]

theorem requireKnown_none (h : o ∉ s.thread.known) :
    requireKnown o s = .fail .noSuchObject s := by
  simp only [requireKnown, bind_apply, thread_apply, done_bind, List.contains_eq_mem, h,
    decide_false, Bool.not_false, if_true, fail_apply]

/-- A claim in hand is put under a key; the one that was there is given up. -/
theorem keepClaim_does (hh : s.thread.hands = ⟨.counted, o⟩ :: H) :
    (keepClaim key o s).Does (Frees s (ds ++ [.handed key o]) H) ds [] s := by
  have hmem : (⟨.counted, o⟩ : Claim) ∈ s.thread.hands := by rw [hh]; exact List.mem_cons_self
  have m := Move.handed (l := []) key hmem
  rw [keepClaim, bind_apply, thread_apply, done_bind]
  cases hold : s.thread.claims.get? key with
  | none =>
    rw [hold] at m
    refine .move m (.done ⟨rfl, rfl, Move.came m rfl ?_, nofun⟩)
    exact State.letGo_hands hh
  | some o' =>
    rw [hold] at m
    have hc : Came s (⟨.counted, o'⟩ :: H) _ :=
      Move.came m rfl (congrArg (List.cons _) (State.letGo_hands hh))
    refine .move m ((release_does hc.hands).imp ?_)
    rintro ds' l' r s' ⟨rfl, rfl, hc', hf⟩
    exact ⟨rfl, rfl, hc.trans hc', hf⟩

/-! ## Kept cells -/

theorem kept_some (h : s.thread.kept.get? k = some e) : kept k s = .done e s := by
  simp only [kept, bind_apply, thread_apply, done_bind, h, demand_some]

theorem kept_none (h : s.thread.kept.get? k = none) : kept k s = .fail .noSuchCell s := by
  simp only [kept, bind_apply, thread_apply, done_bind, h, demand_none]

theorem keptId_some (h : s.thread.cells.get? key = some k) : keptId key s = .done k s := by
  simp only [keptId, bind_apply, thread_apply, done_bind, h, demand_some]

theorem keptId_none (h : s.thread.cells.get? key = none) :
    keptId key s = .fail .noSuchCell s := by
  simp only [keptId, bind_apply, thread_apply, done_bind, h, demand_none]

theorem setKept_apply (f : Kept → Kept) (s : State) : setKept k f s = .done () (s.flag k f) := rfl

theorem takeCell_free (hc : s.thread.cells.get? key = some k)
    (hk : s.thread.kept.get? k = some e) (hu : e.users = 0) :
    takeCell key s = .done e.cell (s.inThread fun t =>
      { t with cells := t.cells.erase key, kept := t.kept.erase k }) := by
  rw [takeCell, bind_apply, keptId_some hc, done_bind, bind_apply, kept_some hk, done_bind]
  simp only [hu, ne_eq, not_true_eq_false, if_false]
  rfl

theorem takeCell_busy (hc : s.thread.cells.get? key = some k)
    (hk : s.thread.kept.get? k = some e) (hu : e.users ≠ 0) :
    takeCell key s = .fail .busy s := by
  rw [takeCell, bind_apply, keptId_some hc, done_bind, bind_apply, kept_some hk, done_bind]
  simp only [ne_eq, hu, not_false_eq_true, if_true]
  rfl

theorem cell_some (hc : s.thread.cells.get? key = some k)
    (hk : s.thread.kept.get? k = some e) : cell key s = .done e.cell s := by
  simp only [cell, bind_apply, keptId_some hc, done_bind, kept_some hk, pure_apply]

theorem cell_none (hc : s.thread.cells.get? key = none) :
    cell key s = .fail .noSuchCell s := by
  simp only [cell, bind_apply, keptId_none hc, fail_bind]

theorem abandon_does (hs : Sound [] s) (hk : s.thread.kept.get? k = some e)
    (hn : ∀ key, s.thread.cells.get? key ≠ some k) :
    (abandon k s).Does (fun ds' l' r s' => Ends s (ds ++ e.leaving s) ds' l' r s' ∧
      (e.users = 0 → s'.thread.kept.get? k = none)) ds [] s := by
  rw [abandon, bind_apply, kept_some hk, done_bind, ite_apply]
  split
  · next hu =>
    have m := Move.unkept (l := []) hk hu hn
    have hc := Came.unkept hk hu m rfl rfl
    have hgone : k < s.next := hs.thread.young k e hk
    rw [bind_apply, inThread_apply, done_bind, Kept.leaving, if_pos hu]
    refine .idle m ((destroy_does (m.sound hs)).imp ?_)
    rintro ds' l' r s' ⟨rfl, rfl, hr⟩
    have hnone : ∀ s', Onward (s.inThread fun t => { t with kept := t.kept.erase k }) s' →
        s'.thread.kept.get? k = none := fun s' h => h.gone k hgone (Table.get?_erase_self _ _)
    cases r with
    | ok => exact ⟨⟨rfl, rfl, hc.trans hr⟩, fun _ => hnone s' hr.toOnward⟩
    | error f =>
      obtain ⟨hp, own, hr⟩ := hr
      exact ⟨⟨rfl, rfl, hp, own, hc.trans hr⟩, fun _ => hnone s' hr.toOnward⟩
  · next hu =>
    rw [Kept.leaving, if_neg hu, List.append_nil]
    exact .done ⟨⟨rfl, rfl, .refl s⟩, fun h => absurd h hu⟩

theorem abandon_used (hk : s.thread.kept.get? k = some e) (hu : e.users ≠ 0) :
    abandon k s = .done () s := by
  rw [abandon, bind_apply, kept_some hk, done_bind, ite_apply, if_neg hu]
  rfl

/-- A cell that still has a key is left, and nothing else is done. -/
theorem leave_keyed (hc : s.thread.cells.get? key = some k) :
    leave k s = .done () (s.flag k fun e => { e with users := e.users - 1 }) := by
  have hkey : (s.flag k fun e => { e with users := e.users - 1 }).thread.cells.values.contains k =
      true := List.contains_iff_mem.2 ((Table.mem_values_iff _ _).2 ⟨key, hc⟩)
  simp only [leave, bind_apply, setKept_apply, done_bind, thread_apply, hkey, Bool.not_true,
    Bool.false_eq_true, if_false, pure_apply]

/-- How putting a cell under a key ends: when no cell ends because of it, it is there. -/
def Keeps (s : State) (key : String) (c : Cell) (ds' : List Deed) : Post Unit :=
  fun ds l r s' => Ends s (ds' ++ s.displacing key) ds l r s' ∧
    (s.displacing key = [] → r = .ok () ∧ s'.cellOf key = some c)

/-- A cell in the arms is put under a key; the one that was there is given up. -/
theorem keepCell_does (hs : Sound [c] s)
    (hr : ∀ v, s.slots.get? c.slot = some v → c.Fits v) {parent : Option KeptId}
    (hd : Descends s s.keptCell? parent c) :
    (keepCell key c parent s).Does (Keeps s key c ds) ds [c] s := by
  have m := Move.kept key (List.mem_singleton_self c) hr hd
  have hc : Came s s.thread.hands _ := Came.kept m hs rfl rfl
  have hs' := m.sound hs
  rw [List.erase_cons_head] at m hs'
  rw [keepCell, bind_apply, fresh_apply, done_bind, bind_apply, thread_apply, done_bind, bind_apply,
    inThread_apply, done_bind, bind_apply, note_apply, done_bind]
  dsimp only
  generalize ht : State.note _ _ = t at m hc hs' ⊢
  have hthere : t.cellOf key = some c := by
    rw [← ht]
    show (((s.thread.cells.insert key s.next).get? key).bind
      (s.thread.kept.insert s.next { cell := c }).get?).map Kept.cell = some c
    rw [Table.get?_insert_self, Option.bind_some, Table.get?_insert_self]
    rfl
  refine .idle m ?_
  cases hold : s.thread.cells.get? key with
  | none =>
    have hnil : s.displacing key = [] := by rw [State.displacing, hold]; rfl
    exact .done ⟨⟨rfl, by rw [hnil, List.append_nil], hc⟩, fun _ => ⟨rfl, hthere⟩⟩
  | some old =>
    obtain ⟨e, he⟩ := Option.isSome_iff_exists.1 (hs.thread.keyed key old hold)
    have hne : old ≠ s.next := (hs.thread.young old e he).ne
    have hdisp : s.displacing key = e.leaving s := by
      rw [State.displacing, hold, Option.bind_some, he]
      rfl
    have he' : t.thread.kept.get? old = some e := by
      rw [← ht]
      exact (Table.get?_insert_ne _ _ hne).trans he
    by_cases hu : e.users = 0
    · have hn : ∀ key', t.thread.cells.get? key' ≠ some old := by
        intro key' hkey'
        rw [← ht] at hkey'
        replace hkey' := (Table.get?_insert _ _ _ _).symm.trans hkey'
        split at hkey'
        · cases hkey'
          exact hne rfl
        · next hk => exact hk (hs.thread.distinct key' key old hkey' hold)
      have hsame : e.leaving t = e.leaving s := by rw [← ht]; rfl
      refine (abandon_does hs' he' hn).imp ?_
      rintro ds' l' r s' ⟨⟨rfl, rfl, hr⟩, -⟩
      rw [hc.hands] at hr
      refine ⟨⟨rfl, by rw [hdisp, hsame], ?_⟩, fun hnil => absurd hnil ?_⟩
      · cases r with
        | ok => exact hc.trans hr
        | error f => exact ⟨hr.1, hr.2.imp fun own h => hc.trans h⟩
      · rw [hdisp, Kept.leaving, if_pos hu]
        exact e.cell.ending_ne_nil s
    · have hnil : s.displacing key = [] := by rw [hdisp, Kept.leaving, if_neg hu]
      change (abandon old t).Does _ _ _ _
      rw [abandon_used he' hu]
      exact .done ⟨⟨rfl, by rw [hnil, List.append_nil], hc⟩, fun _ => ⟨rfl, hthere⟩⟩

/-! ## Using a kept cell -/

/-- What is done inside of an operation: whatever it leaves in the hands when it fails is on top. -/
def Works (s : State) (P : List Deed → Except Failure α → Prop) : Post α :=
  fun ds l r s' => l = [] ∧ P ds r ∧ ∃ own, Came s (own ++ s.thread.hands) s' ∧
    ∀ x, r = .ok x → own = []

/-- What is left of that when the hands are as before. -/
def Settles (s : State) (P : List Deed → Except Failure α → Prop) : Post α :=
  fun ds l r s' => l = [] ∧ P ds r ∧ Came s s.thread.hands s'

theorem unwinding_works {a : Action α} {P : List Deed → Except Failure α → Prop}
    (hs : Sound [] s) (h : (a s).Does (Works s P) ds [] s) :
    (unwinding a s).Does (Settles s P) ds [] s := by
  refine unwinding_does hs h ?_ ?_
  · rintro ds l x s' - ⟨rfl, hp, own, hc, hown⟩
    obtain rfl := hown x rfl
    exact ⟨rfl, hp, hc⟩
  · rintro ds l f s' - ⟨rfl, hp, own, hc, -⟩
    exact ⟨rfl, own, hc.hands, fun s'' h => ⟨rfl, hp, hc.trans h⟩⟩

section Flags

variable {a : Action α} {P : List Deed → Except Failure α → Prop} {f g : Kept → Kept}

/-- Flags are set while an action lasts. -/
theorem flagging_does (hs : Sound [] s) (hk : s.thread.kept.get? k = some e)
    (hf : e.Noted (f e)) (hu : (f e).users ≠ 0) (hfg : g (f e) = e)
    (h : (a (s.flag k f)).Does (Works (s.flag k f) P) ds [] (s.flag k f)) :
    ((setKept k f >>= fun _ => attempt (unwinding a) >>= fun r => setKept k g >>= fun _ =>
      ofExcept r) s).Does (Settles s P) ds [] s := by
  have m := Move.flagged (l := []) (s := s) (k := k) f fun e' he' => by
    obtain rfl := Option.some.inj (hk.symm.trans he')
    exact hf
  have hs' := m.sound hs
  rw [bind_apply, setKept_apply, done_bind]
  refine .idle m (.tried hs' (unwinding_works hs' h) ?_)
  rintro ds' l' r s' hs'' ⟨rfl, hp, hc⟩
  have hkept : s'.thread.kept.get? k = some (f e) :=
    hc.used k (f e) (by rw [State.flag_kept, if_pos rfl, hk, Option.map_some]) hu
  have m' := Move.flagged (l := []) (s := s') (k := k) g fun e' he' => by
    obtain rfl := Option.some.inj (hkept.symm.trans he')
    rw [hfg]
    exact hf.symm
  have hc' := Came.around hk hu hc hfg
  rw [bind_apply, setKept_apply, done_bind]
  refine .idle m' ?_
  cases r with
  | ok x => exact .done ⟨rfl, hp, hc'⟩
  | error f => exact .fail ⟨rfl, hp, hc'⟩

/-- How an action on a kept cell ends: it is refused, or does what it is meant to do. -/
def Uses (busy : Prop) (ds : List Deed) (P : List Deed → Except Failure α → Prop) :
    List Deed → Except Failure α → Prop :=
  fun ds' r => busy ∧ ds' = ds ∧ r = .error .busy ∨ ¬ busy ∧ P ds' r

theorem looking_does (hs : Sound [] s) (hk : s.thread.kept.get? k = some e) (hu : e.users ≠ 0)
    (h : ∀ f : Kept → Kept, (∀ e, (f e).cell = e.cell) → (f e).users ≠ 0 →
      (a (s.flag k f)).Does (Works (s.flag k f) P) ds [] (s.flag k f)) :
    (looking k a s).Does (Settles s (Uses (e.exclusive = true) ds P)) ds [] s := by
  rw [looking, bind_apply, kept_some hk, done_bind, ite_apply]
  split
  · next hx => exact .fail ⟨rfl, .inl ⟨hx, rfl, rfl⟩, .refl s⟩
  · next hx =>
    refine (flagging_does (f := fun e => { e with readers := e.readers + 1 })
      (g := fun e => { e with readers := e.readers - 1 }) hs hk ⟨rfl, .inl rfl⟩ hu
      rfl (h _ (fun _ => rfl) hu)).imp ?_
    rintro ds' l' r s' ⟨hl, hp, hc⟩
    exact ⟨hl, .inr ⟨hx, hp⟩, hc⟩

/-- Whether a kept cell may not be changed: a cell with a slot of its own is changed alone. -/
def Busy (e : Kept) : Prop :=
  e.exclusive = true ∨ e.readers ≠ 0 ∧ ∃ form id, e.cell = .own form id

theorem changing_does (hs : Sound [] s) (hk : s.thread.kept.get? k = some e) (hu : e.users ≠ 0)
    (h : ∀ f : Kept → Kept, (∀ e, (f e).cell = e.cell) → (f e).users ≠ 0 →
      (a (s.flag k f)).Does (Works (s.flag k f) P) ds [] (s.flag k f)) :
    (changing k a s).Does (Settles s (Uses (Busy e) ds P)) ds [] s := by
  rw [changing, bind_apply, kept_some hk, done_bind]
  obtain ⟨c, users, readers, exclusive⟩ := e
  cases c with
  | handle id acc =>
    refine (looking_does hs hk hu h).imp ?_
    rintro ds' l' r s' ⟨hl, hp, hc⟩
    refine ⟨hl, hp.imp (And.imp_left .inl) (And.imp_left ?_), hc⟩
    rintro hx (hx' | ⟨-, form, i, ⟨⟩⟩)
    exact hx hx'
  | own form id =>
    dsimp only
    rw [ite_apply]
    split
    · next hx =>
      rw [Bool.or_eq_true, decide_eq_true_iff] at hx
      exact .fail ⟨rfl, .inl ⟨hx.imp_right fun h => ⟨h, form, id, rfl⟩, rfl, rfl⟩, .refl s⟩
    · next hx =>
      rw [Bool.or_eq_true, decide_eq_true_iff, not_or, Bool.not_eq_true] at hx
      obtain ⟨rfl, hr⟩ := hx
      refine (flagging_does (f := fun e => { e with exclusive := true })
        (g := fun e => { e with exclusive := false }) hs hk ⟨rfl, .inr ⟨form, id, rfl⟩⟩ hu
        rfl (h _ (fun _ => rfl) hu)).imp ?_
      rintro ds' l' r s' ⟨hl, hp, hc⟩
      refine ⟨hl, .inr ⟨?_, hp⟩, hc⟩
      rintro (⟨⟨⟩⟩ | ⟨h, -⟩)
      exact hr h

end Flags

theorem conclude_does {R : Post α} {P : Post Unit} {result : Except Failure α}
    {a : Action Unit} (hs : Sound l s) (h : (a s).Does P ds l s)
    (hok : ∀ ds l s, P ds l (.ok ()) s → R ds l result s)
    (hf : ∀ ds l f s, P ds l (.error f) s → R ds l (.error f) s) :
    (conclude result a s).Does R ds l s := by
  have hplain : ((a >>= fun _ => ofExcept result) s).Does R ds l s := by
    refine .seq hs h (fun ds l _ s _ hp => ?_) fun ds l f s _ hp => hf _ _ _ _ hp
    cases result with
    | ok x => exact .done (hok _ _ _ hp)
    | error f => exact .fail (hok _ _ _ hp)
  cases result with
  | ok x => exact hplain
  | error f =>
    cases f with
    | panic p =>
      refine .seq hs (cleanUp_does hs h) ?_ ?_
      · rintro ds l _ s - ⟨-, hp⟩
        exact .fail (hok _ _ _ hp)
      · rintro ds l f s - ⟨⟨⟩, -⟩
    | _ => exact hplain

/-! ## Leaving -/

/-- What an operation does to the cell under a key, besides what it is meant to do: when the key
was given away meanwhile, it ends the cell. -/
def Trails (k : KeptId) (c : Cell) (P : List Deed → Except Failure α → Prop) (s' : State) :
    List Deed → Except Failure α → Prop :=
  fun ds r => P ds r ∨ s'.thread.kept.get? k = none ∧
    ∃ ds₁ t r₁, P ds₁ r₁ ∧ ds = ds₁ ++ c.ending t ∧ (r = r₁ ∨ ∃ p, r = .error (.panic p))

/-- How the use of a kept cell ends. -/
def Visits (s : State) (k : KeptId) (c : Cell) (P : List Deed → Except Failure α → Prop) : Post α :=
  fun ds l r s' => l = [] ∧ Trails k c P s' ds r ∧ ∃ own, Came s (own ++ s.thread.hands) s' ∧
    ∀ x, r = .ok x → own = []

/-- An operation that leaves a cell ends it when it has no key any more and nobody else uses it. -/
theorem leave_does (hs : Sound [] s) {t : State}
    (ht : t = s.flag k fun e => { e with users := e.users - 1 })
    (hk : t.thread.kept.get? k = some e) :
    (leave k s).Does (fun ds' l' r s' => ds' = ds ∧ l' = [] ∧ r = .ok () ∧ s' = t ∨
      s'.thread.kept.get? k = none ∧ Ends t (ds ++ e.cell.ending t) ds' l' r s') ds [] s := by
  have m : Move [] s [] [] t := ht ▸ .flagged _ fun _ _ => ⟨rfl, .inl rfl⟩
  have ht' := m.sound hs
  have he : leave k s = (if !t.thread.cells.values.contains k then abandon k else pure ()) t := by
    rw [ht]
    rfl
  rw [he, ite_apply]
  refine .idle m ?_
  split
  · next hx =>
    by_cases hu : e.users = 0
    · refine (abandon_does ht' hk fun key hkey => ?_).imp ?_
      · rw [Bool.not_eq_true', List.contains_eq_mem, decide_eq_false_iff_not] at hx
        exact hx ((Table.mem_values_iff _ _).2 ⟨key, hkey⟩)
      · rintro ds' l' r s' ⟨hends, hnone⟩
        rw [Kept.leaving, if_pos hu] at hends
        exact .inr ⟨hnone hu, hends⟩
    · rw [abandon_used hk hu]
      exact .done (.inl ⟨rfl, rfl, rfl, rfl⟩)
  · exact .done (.inl ⟨rfl, rfl, rfl, rfl⟩)

/-- **A cell is kept alive while an operation uses it.** -/
theorem withCell_does (hs : Sound [] s) {a : KeptId → Cell → Action α}
    {P : List Deed → Except Failure α → Prop} (hc : s.thread.cells.get? key = some k)
    (hk : s.thread.kept.get? k = some e)
    (h : (a k e.cell (s.flag k Kept.entered)).Does (Works (s.flag k Kept.entered) P) ds []
      (s.flag k Kept.entered)) :
    (withCell key a s).Does (Visits s k e.cell P) ds [] s := by
  have m := Move.flagged (l := []) (s := s) (k := k) Kept.entered fun e _ => ⟨rfl, .inl rfl⟩
  have hs' := m.sound hs
  rw [withCell, bind_apply, keptId_some hc, done_bind, bind_apply, kept_some hk, done_bind,
    bind_apply, setKept_apply, done_bind]
  refine .idle m (.tried hs' (unwinding_works hs' h) ?_)
  rintro ds₁ l₁ r₁ s₁ hs₁ ⟨rfl, hp, hc₁⟩
  have hkept : s₁.thread.kept.get? k = some e.entered := by
    refine hc₁.used k e.entered ?_ (Nat.succ_ne_zero _)
    rw [State.flag_kept, if_pos rfl, hk, Option.map_some]
  have hback := Came.around (g := fun e => { e with users := e.users - 1 }) hk
    (Nat.succ_ne_zero _) hc₁ rfl
  have hkept' : (s₁.flag k fun e => { e with users := e.users - 1 }).thread.kept.get? k = some e := by
    rw [State.flag_kept, if_pos rfl, hkept]
    rfl
  refine conclude_does hs₁ (leave_does hs₁ rfl hkept') ?_ ?_
  · rintro ds₂ l₂ s₂ (⟨rfl, rfl, -, rfl⟩ | ⟨hnone, rfl, rfl, hc₂⟩)
    · exact ⟨rfl, .inl hp, [], hback, fun _ _ => rfl⟩
    · exact ⟨rfl, .inr ⟨hnone, ds₁, _, r₁, hp, rfl, .inl rfl⟩, [], hback.stay hc₂, fun _ _ => rfl⟩
  · rintro ds₂ l₂ f s₂ (⟨-, -, ⟨⟩, -⟩ | ⟨hnone, rfl, rfl, ⟨p, rfl⟩, own, hc₂⟩)
    refine ⟨rfl, .inr ⟨hnone, ds₁, _, r₁, hp, rfl, .inr ⟨p, rfl⟩⟩, own, ?_, nofun⟩
    rw [hback.hands] at hc₂
    exact hback.trans hc₂

theorem withCell_missing {a : KeptId → Cell → Action α} (h : s.thread.cells.get? key = none) :
    withCell key a s = .fail .noSuchCell s := by
  rw [withCell, bind_apply, keptId_none h, fail_bind]

end Action

end ClaimCells
