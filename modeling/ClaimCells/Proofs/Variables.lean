import ClaimCells.Proofs.Lineage

/-!
# Cells are variables

Whatever shape a cell has, and through however many handles and bindings it is reached, it is one
variable: it has the object that it was made with or bound to last, unless that was cleared or taken
since. The journal tells what was done to it (`Journal.variable`).

An operation does to variables what `Op.Does` says, and changes no variable but the one of the cell
that it is about.

Main result: `cells_are_variables`.
-/

namespace ClaimCells

variable {α : Type} {s s' t : State} {l l' : List Cell} {ds ds' : List Deed} {c : Cell} {v : Slot}
  {id : SlotId} {op : Op} {r : Reply} {n : Nat}

/-! ## What the journal tells -/

/-- The variable behind a slot, as the deeds tell, newest first. -/
def variableOf (id : SlotId) : List Deed → Option Slot
  | [] => none
  | .made id' v :: ds => if id = id' then some v else variableOf id ds
  | .set id' value :: ds =>
    if id = id' then (variableOf id ds).map ({ · with value }) else variableOf id ds
  | .ended id' :: ds => if id = id' then none else variableOf id ds
  | _ :: ds => variableOf id ds

/-- The variable behind a slot, as the journal tells. -/
def Journal.variable (j : Journal) (id : SlotId) : Option Slot :=
  variableOf id j.deeds

/-- What the slots are is what the journal tells of them. -/
def State.Told (s : State) : Prop :=
  ∀ id, s.slots.get? id = s.journal.variable id

theorem State.Told.same (h : s.Told) (hd : s'.journal.deeds = s.journal.deeds)
    (hs : s'.slots = s.slots) : s'.Told := by
  intro id
  rw [hs, Journal.variable, hd]
  exact h id

/-- A slot has another value. -/
theorem State.Told.set {value : Option ObjectId} (h : s.Told)
    (hd : s'.journal.deeds = .set id value :: s.journal.deeds)
    (hs : s'.slots = s.slots.modify id ({ · with value })) : s'.Told := by
  intro i
  rw [hs, Journal.variable, hd, variableOf, Table.get?_modify]
  split
  · next hi =>
    rw [hi]
    exact congrArg _ (h id)
  · exact h i

/-- A slot is gone. -/
theorem State.Told.ended (h : s.Told) (hd : s'.journal.deeds = .ended id :: s.journal.deeds)
    (hs : s'.slots = s.slots.erase id) : s'.Told := by
  intro i
  rw [hs, Journal.variable, hd, variableOf, Table.get?_erase]
  split
  · rfl
  · exact h i

/-- **Every move does to the slots what the journal tells.** -/
theorem Move.told (m : Move l s ds l' s') (h : s.Told) : s'.Told := by
  have hd := m.deeds
  cases m with
  | aside ha => exact h.same hd ha.slots
  | made | madeShared =>
    intro i
    show (s.slots.insert s.next _).get? i = _
    rw [Journal.variable, hd, Table.get?_insert]
    exact if_congr Iff.rfl rfl (h i)
  | bound | boundFull => exact h.set hd rfl
  | emptied | emptiedFull => exact h.set hd rfl
  | ended | endedBound | endedFull => exact h.ended hd rfl
  | handed | retained | dropped | freed | freedFull =>
    intro i
    show s.slots.get? i = _
    rw [Journal.variable, hd]
    exact h i
  | _ => exact h.same hd rfl

theorem Stable.told : Stable State.Told where
  move _ m h := m.told h
  startThread h := h
  endThread _ _ h := h

/-! ## Which variables an operation changes -/

/-- The slot that gets a value, or is emptied. -/
def Deed.changes? : Deed → Option SlotId
  | .made id _ | .set id _ => some id
  | _ => none

/-- The slot of the cell that an operation is about. -/
def Op.subject (s : State) : Op → Option SlotId
  | .cell (.use key ..) => (s.cellOf key).map Cell.slot
  | _ => none

/-- Only new variables, the one that the operation is about, and those of native objects get a
value. -/
def Local (s : State) (op : Op) (ds : List Deed) : Prop :=
  ∀ d ∈ ds, ∀ id, d.changes? = some id → s.next ≤ id ∨ op.subject s = some id ∨
    ∀ v, s.slots.get? id = some v → v.realm = .native

theorem Local.nil : Local s op [] := nofun

theorem Local.cons {d : Deed} (hd : d.changes? = none) (h : Local s op ds) :
    Local s op (d :: ds) := by
  rintro d' hd' id hid
  rcases List.mem_cons.1 hd' with rfl | hd'
  · exact nomatch hd.symm.trans hid
  · exact h d' hd' id hid

theorem Local.append (h : Local s op ds) (h' : Local s op ds') : Local s op (ds ++ ds') := by
  intro d hd
  exact (List.mem_append.1 hd).elim (h d) (h' d)

theorem Local.ending (c : Cell) (t : State) : Local s op (c.ending t) := by
  cases c with
  | own => exact .cons rfl .nil
  | handle id a =>
    rw [Cell.ending]
    split
    · exact .cons rfl (.cons rfl .nil)
    · exact .cons rfl .nil

theorem Displaces.local {key : String} (h : Displaces t key ds) : Local s op ds := by
  obtain rfl | ⟨k, e, u, -, -, rfl⟩ := h
  · exact .nil
  · exact .ending _ _

/-- Setting the variable that the operation is about. -/
theorem Local.set {value : Option ObjectId} (h : op.subject s = some id) (hl : Local s op ds) :
    Local s op (.set id value :: ds) := by
  rintro d hd id' hid
  rcases List.mem_cons.1 hd with rfl | hd
  · cases hid
    exact .inr (.inl h)
  · exact hl d hd id' hid

/-- Uses of a cell change its own variable alone. -/
theorem Verb.Does.local {verb : Verb} {bound : Bool} (h : verb.Does t c v bound ds r)
    (hc : op.subject s = some c.slot) : Local s op ds := by
  cases verb with
  | name | state | isBound | debug | refcount | sameAs => exact h.1 ▸ .nil
  | read =>
    obtain ⟨o, -, rfl, -⟩ | ⟨rfl, -⟩ := h
    · exact .nil
    · exact .nil
  | readOwned new =>
    obtain ⟨o, -, rfl, -⟩ | ⟨rfl, -⟩ := h
    · exact .cons rfl .nil
    · exact .nil
  | assign claim =>
    obtain ⟨o, -, ⟨rfl, -⟩ | ⟨rfl, -⟩⟩ | ⟨-, rfl, -⟩ := h
    · exact .set hc .nil
    · exact .nil
    · exact .nil
  | assignBorrowed o =>
    obtain ⟨-, (⟨rfl, -⟩ | ⟨rfl, -⟩) | ⟨rfl, -⟩⟩ | ⟨-, rfl, -⟩ := h
    · exact .set hc .nil
    · exact .nil
    · exact .nil
    · exact .nil
  | clear =>
    obtain ⟨-, rfl, -⟩ | ⟨-, -, rfl, -⟩ | ⟨rfl, -⟩ := h
    · exact .set hc .nil
    · exact .nil
    · exact .nil
  | take new =>
    obtain ⟨o, -, ⟨rfl, -⟩ | ⟨rfl, -⟩⟩ | ⟨rfl, -⟩ := h
    · exact .set hc (.cons rfl .nil)
    · exact .set hc .nil
    · exact .nil
  | retain new =>
    obtain ⟨i, a, -, es, he, rfl, -⟩ | ⟨-, rfl, -⟩ := h
    · exact .cons rfl he.local
    · exact .nil

theorem CellOp.Does.local {op : CellOp} (h : op.Does s ds r s') : Local s (.cell op) ds := by
  cases op with
  | make key how =>
    obtain ⟨v, t, u, es, -, ht, -, he, rfl, -⟩ | ⟨rfl, -⟩ := h
    · refine .append ?_ he.local
      rintro d hd id hid
      rcases List.mem_cons.1 hd with rfl | hd
      · cases hid
        exact .inl ht.lasting.next
      · split at hd
        · rw [List.mem_singleton.1 hd] at hid
          cases hid
        · cases hd
    · exact .nil
  | use key bound verb =>
    rw [CellOp.Does, State.At] at h
    split at h
    · exact h.1 ▸ .nil
    · next k hk =>
      obtain ⟨e, he, v, -, ht⟩ := h
      have hc : (Op.cell (.use key bound verb)).subject s = some (e.cell.via bound).slot := by
        rw [Op.subject, State.cellOf, hk, Option.bind_some, he, Cell.slot_via]
        rfl
      have hu : ∀ {ds r}, Action.Uses (verb.Blocked e) [] (verb.Does s (e.cell.via bound) v bound) ds r →
          Local s (.cell (.use key bound verb)) ds := by
        rintro ds r (⟨-, rfl, -⟩ | ⟨-, hd⟩)
        · exact .nil
        · exact hd.local hc
      obtain hd | ⟨-, ds₁, t, r₁, hd, rfl, -⟩ := ht
      · exact hu hd
      · exact (hu hd).append (.ending _ _)
  | drop key =>
    rw [CellOp.Does, State.At] at h
    split at h
    · exact h.1 ▸ .nil
    · obtain ⟨e, -, ⟨-, rfl, -⟩ | ⟨-, rfl, -⟩⟩ := h
      · exact .nil
      · exact .ending _ _
  | release key =>
    rw [CellOp.Does, State.At] at h
    split at h
    · exact h.1 ▸ .nil
    · obtain ⟨e, -, h⟩ := h
      split at h
      · obtain ⟨-, rfl, -⟩ | ⟨-, rfl, -⟩ := h
        · exact .nil
        · exact .ending _ _
      · exact h.1 ▸ .nil
  | intoInner key new =>
    rw [CellOp.Does, State.At] at h
    split at h
    · exact h.1 ▸ .nil
    · obtain ⟨e, -, h⟩ := h
      split at h
      · obtain ⟨-, rfl, -⟩ | ⟨-, hd, -⟩ := h
        · exact .nil
        · exact hd.local
      · exact h.1 ▸ .nil

/-- **An operation changes no variable but the one of the cell that it is about**, those of native
objects apart. -/
theorem Op.Does.local (h : op.Does s ds r s') : Local s op ds := by
  cases op with
  | cell op => exact CellOp.Does.local h
  | object op =>
    intro d hd id hid
    obtain ⟨key, o, rfl⟩ := h d hd
    cases hid
  | native op =>
    intro d hd id hid
    obtain ⟨-, id', hid', hv⟩ := h d hd
    refine .inr (.inr ?_)
    cases d <;> cases hid <;> cases hid' <;> exact hv
  | _ => exact (show ds = [] from h) ▸ .nil

/-! ## Whole operations -/

/-- The course of an operation. -/
abbrev Op.course (op : Op) (s : State) : Act Answer :=
  Action.unwinding (perform op) s

/-- The deeds of an operation, without those of the scripts that it sets off. -/
def Op.ownDeeds (n : Nat) (op : Op) (s : State) : List Deed :=
  (op.course s).ownDeeds (react (step n)) s

/-- No script is set off while an operation lasts. -/
def Undisturbed (n : Nat) (op : Op) (s : State) : Prop :=
  ∀ g t, (op.course s).Sends (react (step n)) g t → t.hook? g = none

theorem react_none {step : Op → State → Act.Outcome Answer} {g : Signal} (h : s.hook? g = none) :
    react step g s = .ok s := by
  rw [react, h]

/-- When no script is set off, an operation's own deeds are all that is done. -/
theorem Act.Does.undisturbed {react : Signal → State → Except (Halt × State) State} {Q : Post α}
    {x : Act α} {res : Except Failure α} (hs : Sound l s) (h : x.Does Q ds l s)
    (hq : ∀ g t, x.Sends react g t → react g t = .ok t) (he : x.settle react = .ended res s') :
    s'.journal.deeds = (x.ownDeeds react s).reverse ++ s.journal.deeds := by
  induction x generalizing ds l s with
  | done a t | fail f t =>
    obtain ⟨ds', l', m, -⟩ := h
    cases he
    rw [Act.ownDeeds, m.deedsSince, m.deeds]
  | halt => cases he
  | send g t next ih =>
    obtain ⟨ds', m, hn⟩ := h
    have hg := hq g t (.now g t next)
    rw [Act.settle, hg] at he
    have hs' := m.sound hs
    rw [Act.ownDeeds, hg, m.deedsSince,
      ih t hs' (hn t (.refl t) hs') (fun g' t' h' => hq g' t' (.later hg h')) he, m.deeds,
      List.reverse_append, List.append_assoc]

end ClaimCells
