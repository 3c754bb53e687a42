import ClaimCells.Proofs.Variables

/-!
# Handles in the journal

The journal tells how many handles a shared cell has, and that everything comes in its turn: a slot
is made once, put behind a handle right then if ever, and ended once, when no handle is left. What
is reported of handles is what is there: the number in a report is the number of handles right after
the handle was made or given up, and a cell is reported freed right after its last handle was given
up.

Main results: `State.Orderly`, which every state that is reached is, `Orderly.freed_once` and
`Orderly.ended_once`.
-/

namespace ClaimCells

variable {s s' : State} {l l' : List Cell} {ds : List Deed} {v : Slot} {id : SlotId} {j : Journal}

/-! ## Deeds in their turn -/

/-- How many handles a shared cell has, as the deeds tell, newest first. -/
def handlesOf (id : SlotId) : List Deed → Nat
  | [] => 0
  | .shared id' :: ds => if id = id' then 1 else handlesOf id ds
  | .retained id' :: ds => if id = id' then handlesOf id ds + 1 else handlesOf id ds
  | .dropped id' :: ds => if id = id' then handlesOf id ds - 1 else handlesOf id ds
  | _ :: ds => handlesOf id ds

/-- How often the last handle of a shared cell was given up. -/
def timesFreed (id : SlotId) : List Deed → Nat
  | [] => 0
  | .dropped id' :: ds => timesFreed id ds + if id = id' ∧ handlesOf id ds = 1 then 1 else 0
  | _ :: ds => timesFreed id ds

/-- What must have been done before a deed. -/
def Deed.Due (ds : List Deed) : Deed → Prop
  | .made id _ => ∀ d ∈ ds, d.slot? ≠ some id
  | .ended id => (∃ v, variableOf id ds = some v) ∧ handlesOf id ds = 0
  | .shared id => ∃ v ds', v.kind = .shared ∧ ds = .made id v :: ds'
  | .retained id | .dropped id => 1 ≤ handlesOf id ds
  | .set .. | .handed .. => True

/-- Every deed came in its turn. -/
def Orderly : List Deed → Prop
  | [] => True
  | d :: ds => d.Due ds ∧ Orderly ds

/-- Nothing was done to the slot yet. -/
theorem untouched (h : ∀ d ∈ ds, d.slot? ≠ some id) :
    handlesOf id ds = 0 ∧ timesFreed id ds = 0 ∧ variableOf id ds = none ∧
      ds.count (.ended id) = 0 := by
  induction ds with
  | nil => exact ⟨rfl, rfl, rfl, rfl⟩
  | cons d ds ih =>
    obtain ⟨h1, h2, h3, h4⟩ := ih fun d' hd' => h d' (List.mem_cons_of_mem _ hd')
    have hd := h d List.mem_cons_self
    rw [handlesOf.eq_def, timesFreed.eq_def, variableOf.eq_def, List.count_cons, h4]
    cases d with
    | handed => exact ⟨h1, h2, h3, rfl⟩
    | _ i =>
      have hi : id ≠ i := fun hi => hd (congrArg some hi.symm)
      simp [h1, h2, h3, hi, hi.symm]

namespace Orderly

/-- **The last handle is given up once.** -/
theorem freed_once (h : Orderly ds) (id : SlotId) : timesFreed id ds ≤ 1 ∧
    (1 ≤ handlesOf id ds → timesFreed id ds = 0) := by
  induction ds with
  | nil => exact ⟨Nat.zero_le _, fun _ => rfl⟩
  | cons d ds ih =>
    obtain ⟨h1, h2⟩ := ih h.2
    have hdue := h.1
    cases d with
    | made | set | ended | handed => exact ⟨h1, h2⟩
    | shared i =>
      refine ⟨h1, fun hn => ?_⟩
      rw [handlesOf] at hn
      by_cases hi : id = i
      · obtain ⟨v, ds', -, rfl⟩ := hdue
        rw [← hi] at h
        exact (untouched h.2.1).2.1
      · rw [if_neg hi] at hn
        exact h2 hn
    | retained i =>
      refine ⟨h1, fun hn => ?_⟩
      rw [handlesOf] at hn
      by_cases hi : id = i
      · exact h2 (hi ▸ hdue)
      · rw [if_neg hi] at hn
        exact h2 hn
    | dropped i =>
      rw [handlesOf, timesFreed]
      by_cases hi : id = i
      · subst hi
        replace hdue : 1 ≤ handlesOf id ds := hdue
        have h0 := h2 hdue
        simp only [if_true, true_and]
        split <;> omega
      · rw [if_neg hi, if_neg fun hc => hi hc.1]
        exact ⟨h1, h2⟩

/-- **A slot is ended once.** -/
theorem ended_once (h : Orderly ds) (id : SlotId) : ds.count (.ended id) ≤ 1 ∧
    ∀ v, variableOf id ds = some v → ds.count (.ended id) = 0 := by
  induction ds with
  | nil => exact ⟨Nat.zero_le _, fun _ _ => rfl⟩
  | cons d ds ih =>
    obtain ⟨h1, h2⟩ := ih h.2
    have hdue := h.1
    rw [List.count_cons, variableOf.eq_def]
    cases d with
    | made i v' =>
      refine ⟨h1, fun v hv => ?_⟩
      by_cases hi : id = i
      · exact (untouched (hi ▸ hdue)).2.2.2
      · exact h2 v (by simpa [hi] using hv)
    | set i value =>
      refine ⟨h1, fun v hv => ?_⟩
      by_cases hi : id = i
      · obtain ⟨v', hv', -⟩ := Option.map_eq_some_iff.1 (by simpa [hi] using hv)
        exact h2 v' (by rwa [hi])
      · exact h2 v (by simpa [hi] using hv)
    | ended i =>
      by_cases hi : id = i
      · obtain ⟨⟨v', hv'⟩, -⟩ := hdue
        simp [hi, hi ▸ h2 v' (hi ▸ hv')]
      · simpa [hi, Ne.symm hi] using ⟨h1, h2⟩
    | shared | retained | dropped | handed => exact ⟨h1, h2⟩

end Orderly

/-! ## Reports in their turn -/

/-- What an entry says of a handle is so: `newer` is the entry after it, if there is one. -/
def Entry.Due (newer : Option Entry) (j : Journal) : Entry → Prop
  | .event (.retained name n) _ => ∃ id v, ∃ j' : Journal,
      j = .did (.retained id) :: j' ∧ variableOf id j.deeds = some v ∧ name = v.name ∧
        n = handlesOf id j.deeds
  | .event (.released name n) _ => ∃ id v, newer = some (.did (.dropped id)) ∧
      variableOf id j.deeds = some v ∧ name = v.name ∧ n = handlesOf id (.dropped id :: j.deeds)
  | .event (.freed name bound) _ => ∃ id v, ∃ j' : Journal,
      j = .did (.dropped id) :: j' ∧ handlesOf id j'.deeds = 1 ∧
        variableOf id j.deeds = some v ∧ name = v.name ∧ bound = v.value.isSome
  | _ => True

/-- What the journal says of handles is so. -/
def Journal.Orderly (newer : Option Entry) : Journal → Prop
  | [] => True
  | e :: j => e.Due newer j ∧ Orderly (some e) j

/-- Entries that say nothing of a handle. -/
def Entry.unhandled : Entry → Bool
  | .event (.retained ..) _ | .event (.released ..) _ | .event (.freed ..) _ => false
  | _ => true

theorem Entry.unhandled_of_idle {e : Entry} (h : e.idle = true) : e.unhandled = true := by
  cases e with
  | event e w => cases e <;> first | rfl | exact absurd h (by simp [Entry.idle])
  | _ => rfl

theorem Entry.Due.of_unhandled {e : Entry} (h : e.unhandled = true) (newer : Option Entry)
    (j : Journal) : e.Due newer j := by
  cases e with
  | event e w => cases e <;> trivial
  | _ => trivial

theorem Entry.Due.later {e : Entry} (h : e.Due none j) (newer : Option Entry) :
    e.Due newer j := by
  cases e with
  | event e w =>
    cases e with
    | released => obtain ⟨_, _, h, -⟩ := h; cases h
    | _ => exact h
  | _ => trivial

theorem Journal.Orderly.later (h : j.Orderly none) (newer : Option Entry) : j.Orderly newer := by
  cases j with
  | nil => trivial
  | cons e j => exact ⟨h.1.later newer, h.2⟩

theorem Journal.Orderly.append (h : j.Orderly none) (es : Journal)
    (hes : ∀ e ∈ es, e.unhandled = true) (newer : Option Entry) :
    Journal.Orderly newer (es ++ j) := by
  induction es generalizing newer with
  | nil => exact h.later newer
  | cons e es ih =>
    exact ⟨.of_unhandled (hes e List.mem_cons_self) _ _,
      ih (fun e' he' => hes e' (List.mem_cons_of_mem _ he')) _⟩

/-! ## Every state -/

/-- The journal tells of the slots and the handles that there are, in their turn. -/
structure State.Orderly (s : State) : Prop where
  told : s.Told
  counted : ∀ id, s.refcount id = handlesOf id s.journal.deeds
  young : ∀ d ∈ s.journal.deeds, ∀ id, d.slot? = some id → id < s.next
  deeds : ClaimCells.Orderly s.journal.deeds
  events : s.journal.Orderly none

/-- Whatever a deed is done to was made before. -/
theorem Move.young (m : Move l s ds l' s') (hs : Sound l s) :
    ∀ d ∈ ds, ∀ id, d.slot? = some id → id < s'.next := by
  cases m with
  | made => rintro d hd id hid; cases List.mem_singleton.1 hd; cases hid; exact Nat.lt_succ_self _
  | bound hv | boundFull hv | emptied _ hv | emptiedFull hv =>
    rintro d hd id hid; cases List.mem_singleton.1 hd; cases hid
    exact hs.youngSlots _ _ hv
  | ended _ hv | endedBound _ hv | endedFull _ hv =>
    rintro d hd id hid; cases List.mem_singleton.1 hd; cases hid
    exact hs.youngSlots _ _ hv
  | madeShared =>
    rintro d hd id hid
    rcases List.mem_cons.1 hd with rfl | hd
    · cases hid; exact Nat.lt_succ_self _
    · cases List.mem_singleton.1 hd; cases hid; exact Nat.lt_succ_self _
  | retained _ hv | dropped _ _ _ hv | freed _ _ _ _ hv | freedFull _ _ _ _ hv =>
    rintro d hd id hid; cases List.mem_singleton.1 hd; cases hid
    exact hs.youngSlots _ _ hv
  | handed => rintro d hd id hid; cases List.mem_singleton.1 hd; cases hid
  | _ => exact nofun

theorem recounted {f : Nat → Nat} {sh : Sharing} {n : Nat} {i : SlotId}
    (h : ∀ id, s.refcount id = handlesOf id s.journal.deeds) (hs : s.sharing.get? i = some sh)
    (hn : n = f sh.handles) (id : SlotId) : (if id = i then n else s.refcount id) =
      if id = i then f (handlesOf id s.journal.deeds) else handlesOf id s.journal.deeds := by
  have hi := h i
  rw [State.refcount, hs, Option.elim_some] at hi
  split
  · next he => rw [hn, he, hi]
  · exact h id

/-- Every move counts the handles as its deeds tell. -/
theorem Move.handlesCounted (m : Move l s ds l' s')
    (h : ∀ id, s.refcount id = handlesOf id s.journal.deeds) (id : SlotId) :
    s'.refcount id = handlesOf id s'.journal.deeds := by
  rw [m.deeds]
  cases m with
  | aside ha =>
    rw [State.refcount, ha.sharing]
    exact h id
  | madeShared =>
    rw [refcount_insert rfl]
    exact if_congr Iff.rfl rfl (h id)
  | retained hs hv =>
    refine (refcount_modify (f := fun c => { c with handles := c.handles + 1 }) hs rfl id).trans ?_
    exact recounted (f := (· + 1)) h hs rfl id
  | dropped aloud hl hs hv hn =>
    refine (refcount_modify (f := fun c => { c with handles := c.handles - 1 }) hs rfl id).trans ?_
    exact recounted (f := (· - 1)) h hs rfl id
  | freed aloud hl hs hn | freedFull aloud hl hs hn =>
    refine (refcount_erase (fun i hi => Table.get?_modify_ne _ _ hi) rfl id).trans ?_
    exact recounted (f := (· - 1)) h hs (by rw [hn]) id
  | locked i f hf =>
    refine Eq.trans ?_ (h id)
    show ((s.sharing.modify i f).get? id).elim 0 _ = (s.sharing.get? id).elim 0 _
    rw [Table.get?_modify]
    split
    · next hi =>
      rw [hi]
      cases hs : s.sharing.get? i with
      | none => rfl
      | some sh => exact hf sh hs
    · rfl
  | _ => exact h id

/-- Every deed comes in its turn. -/
theorem Move.due (m : Move l s ds l' s') (hs : Sound l s) (h : s.Orderly) :
    ClaimCells.Orderly s'.journal.deeds := by
  have hgone : ∀ {id form v}, .own form id ∈ l → s.slots.get? id = some v →
      Deed.Due s.journal.deeds (.ended id) := fun {id form v} hl hv => by
    refine ⟨⟨v, (h.told id).symm.trans hv⟩, ?_⟩
    rw [← h.counted, State.refcount, hs.not_shared_of_arms hl]
    rfl
  have hcounts : ∀ {id sh}, s.sharing.get? id = some sh → 1 ≤ handlesOf id s.journal.deeds :=
    fun {id sh} hsh => by
      rw [← h.counted, (hs.refcount_pos hsh).1]
      exact (hs.refcount_pos hsh).2
  have hfresh : ∀ d ∈ s.journal.deeds, d.slot? ≠ some s.next := fun d hd hid =>
    absurd (h.young d hd _ hid) (lt_irrefl _)
  rw [m.deeds]
  cases m with
  | made => exact ⟨hfresh, h.deeds⟩
  | @madeShared v p hv => exact ⟨⟨v, _, hv, rfl⟩, hfresh, h.deeds⟩
  | bound | boundFull | emptied | emptiedFull | handed => exact ⟨trivial, h.deeds⟩
  | ended hl hv | endedBound hl hv | endedFull hl hv => exact ⟨hgone hl hv, h.deeds⟩
  | retained hsh | dropped _ _ hsh | freed _ _ hsh | freedFull _ _ hsh =>
    exact ⟨hcounts hsh, h.deeds⟩
  | _ => exact h.deeds

/-- What is reported of a handle that is given up. -/
theorem announced (aloud : Bool) {sh : Sharing} {J : Journal} (h : s.Orderly)
    (hsh : s.sharing.get? id = some sh) (hv : s.slots.get? id = some v)
    (hJ : J = s.announcement aloud v.name sh.handles ++ s.journal) :
    Journal.Orderly (some (.did (.dropped id))) J ∧ J.deeds = s.journal.deeds := by
  subst hJ
  cases aloud with
  | false => exact ⟨h.events.later _, rfl⟩
  | true =>
    have hn : sh.handles = handlesOf id s.journal.deeds := by
      rw [← h.counted, State.refcount, hsh]
      rfl
    refine ⟨⟨⟨id, v, rfl, (h.told id).symm.trans hv, rfl, ?_⟩, h.events.later _⟩, rfl⟩
    rw [handlesOf, if_pos rfl, hn]
    rfl

/-- What is reported of handles is so. -/
theorem Move.reported (m : Move l s ds l' s') (h : s.Orderly) : s'.journal.Orderly none := by
  cases m with
  | aside ha =>
    obtain ⟨es, hes, hidle⟩ := ha.journal
    rw [hes]
    exact h.events.append es (fun e he => e.unhandled_of_idle (hidle e he)) none
  | counted | reshaped | taken | locked | unkept | parted | flagged | givenBack =>
    exact h.events
  | made | bound | emptied | endedBound =>
    exact h.events.append [_, _] (by simp [Entry.unhandled]) none
  | madeShared => exact h.events.append [_, _, _] (by simp [Entry.unhandled]) none
  | @retained id sh v hsh hv =>
    refine ⟨⟨id, v, _, rfl, (h.told id).symm.trans hv, rfl, ?_⟩, trivial, h.events.later _⟩
    have hn := h.counted id
    rw [State.refcount, hsh, Option.elim_some] at hn
    show sh.handles + 1 = if id = id then handlesOf id s.journal.deeds + 1 else _
    rw [if_pos rfl, hn]
  | @dropped id a sh v aloud hl hsh hv hn =>
    exact ⟨trivial, (announced aloud h hsh hv rfl).1⟩
  | @freed id a sh v p aloud hl hsh hn hv hp =>
    obtain ⟨hann, hd⟩ := announced aloud h hsh hv rfl
    refine ⟨⟨id, v, _, rfl, ?_, ?_, rfl, rfl⟩, trivial, hann⟩
    · refine (congrArg (handlesOf id) hd).trans ?_
      rw [← h.counted, State.refcount, hsh]
      exact hn
    · exact (congrArg (variableOf id) hd).trans ((h.told id).symm.trans hv)
  | @freedFull id a sh v aloud hl hsh hn hv =>
    exact ⟨trivial, (announced aloud h hsh hv rfl).1⟩
  | _ => exact h.events.append [_] (by simp [Entry.unhandled]) none

theorem Stable.orderly : Stable State.Orderly where
  move {l s ds l' s'} hs m h :=
    { told := m.told h.told
      counted := m.handlesCounted h.counted
      young := fun d hd id hid => by
        rw [m.deeds] at hd
        rcases List.mem_append.1 hd with hd | hd
        · exact m.young hs d (List.mem_reverse.1 hd) id hid
        · exact (h.young d hd id hid).trans_le m.lasting.next
      deeds := m.due hs h
      events := m.reported h }
  startThread h := { h with }
  endThread _ _ h := { h with }

theorem State.Orderly.start (build : Build) (profiling : Bool)
    (environment : Table String Text.Utf8.Bytes) (file : FileContent) :
    (State.start build profiling environment file).Orderly where
  told _ := rfl
  counted _ := rfl
  young := nofun
  deeds := trivial
  events := trivial

end ClaimCells
