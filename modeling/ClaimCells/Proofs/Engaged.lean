import ClaimCells.Proofs.Agreement

/-!
# Beside an operation in progress

An operation that changes a kept cell leaves a note of that while it lasts: one more operation uses
the cell, and looks at it or has it to itself. Whatever runs meanwhile cannot tell, unless it takes
the key away from the cell, or uses a cell that the other has to itself (`Op.Disturbs`). It does the
same in the state without the note, and leaves the same, up to the note.

`State.engaged` is the state with the note. Other threads may wait in it, for what runs on a thread
of its own does not know who waits.

Main result: `step_engaged`, for one operation with all that it sets off.
-/

namespace ClaimCells

open Act (Outcome)

variable {α β : Type} {s t u : State} {k i : KeptId} {key key' : String} {w : List Thread}
  {e : Option Kept} {e₀ : Kept} {op : Op} {n : Nat} {S : Scope}

/-! ## The note -/

/-- The entry of a cell that one more operation changes at the moment. -/
def Kept.engaged (e : Kept) : Kept :=
  match e.cell with
  | .handle .. => { e with users := e.users + 1, readers := e.readers + 1 }
  | .own .. => { e with users := e.users + 1, exclusive := true }

/-- The state while one more operation changes a kept cell, with other threads waiting. -/
def State.engaged (k : KeptId) (w : List Thread) (s : State) : State :=
  s.disguise (·.modify k Kept.engaged) ⟨id, id, fun _ => w, id, []⟩

/-- The number stands for this entry, and for no other cell than the one with the key. -/
structure State.Hosts (k : KeptId) (key : String) (e : Option Kept) (s : State) : Prop where
  young : k < s.next
  kept : s.thread.kept.get? k = e
  keyed : ∀ key', s.thread.cells.get? key' = some k ↔ e.isSome ∧ key' = key

/-- States that differ in nothing but what is noted of kept cells, and in who waits. -/
def State.Resembles (s t : State) : Prop :=
  { t with thread := { t.thread with kept := s.thread.kept }, waiting := s.waiting } = s

/-- States with and without the note. -/
def Likeness.engaged (k : KeptId) (key : String) (w : List Thread) (e : Option Kept) : Likeness where
  sent _ s t := t = s.engaged k w ∧ ∃ e, s.Hosts k key e
  left s s' := s'.thread.kept.get? k = s.thread.kept.get? k
  ended s t := t = s.engaged k w ∧ s.Hosts k key e
  halted s t := s.Resembles t

theorem Kept.engaged_cell (e : Kept) : e.engaged.cell = e.cell := by
  unfold engaged
  split <;> rfl

theorem Kept.engaged_entered (e : Kept) : e.engaged.entered = e.entered.engaged := by
  obtain ⟨c, users, readers, exclusive⟩ := e
  cases c <;> rfl

theorem Kept.engaged_looked (e : Kept) : e.engaged.looked = e.looked.engaged := by
  obtain ⟨c, users, readers, exclusive⟩ := e
  cases c <;> rfl

theorem Kept.engaged_exclusive {id : SlotId} {a : Access} {e : Kept} (h : e.cell = .handle id a) :
    e.engaged.exclusive = e.exclusive := by
  unfold engaged
  rw [h]

namespace State

theorem engaged_eq (k : KeptId) (w : List Thread) (s : State) : s.engaged k w =
    { s with
      thread := { s.thread with kept := s.thread.kept.modify k Kept.engaged }, waiting := w } := by
  show ({ s with
    thread := { s.thread with kept := s.thread.kept.modify k Kept.engaged }
    waiting := w, journal := s.journal ++ [] } : State) = _
  rw [List.append_nil]

theorem resembles_engaged (k : KeptId) (w : List Thread) (s : State) :
    s.Resembles (s.engaged k w) := by
  rw [engaged_eq]
  rfl

/-- A change of what is kept that has nothing to do with the note. -/
theorem engaged_keeping {F : Table KeptId Kept → Table KeptId Kept}
    (h : F (s.thread.kept.modify k Kept.engaged) = (F s.thread.kept).modify k Kept.engaged)
    (C : Table String KeptId → Table String KeptId) :
    (s.engaged k w).inThread (fun t => { t with cells := C t.cells, kept := F t.kept }) =
      (s.inThread fun t => { t with cells := C t.cells, kept := F t.kept }).engaged k w :=
  congrArg (fun T => ({ s.engaged k w with
    thread := { s.thread with cells := C s.thread.cells, kept := T } } : State)) h

theorem engaged_kept (hi : i ≠ k) :
    (s.engaged k w).thread.kept.get? i = s.thread.kept.get? i :=
  Table.get?_modify_ne _ _ hi

theorem engaged_self (h : s.thread.kept.get? k = some e₀) :
    (s.engaged k w).thread.kept.get? k = some e₀.engaged :=
  (Table.get?_modify_self _ _ _).trans (by rw [h, Option.map_some])

/-- What is noted of the number besides has nothing to do with the note. -/
theorem engaged_flag {f : Kept → Kept} (h : s.thread.kept.get? k = some e₀)
    (hf : f e₀.engaged = (f e₀).engaged) : (s.engaged k w).flag k f = (s.flag k f).engaged k w :=
  engaged_keeping (F := (·.modify k f)) (by
    rw [Table.modify_modify, Table.modify_modify]
    exact Table.modify_congr h hf) id

/-- The cell is the same with the note. -/
theorem engaged_cell (i : KeptId) : ((s.engaged k w).thread.kept.get? i).map Kept.cell =
    (s.thread.kept.get? i).map Kept.cell := by
  by_cases hi : i = k
  · subst hi
    show ((s.thread.kept.modify i _).get? i).map _ = _
    rw [Table.get?_modify_self, Option.map_map]
    exact congrArg (fun f => (s.thread.kept.get? i).map f) (funext Kept.engaged_cell)
  · rw [engaged_kept hi]

namespace Hosts

variable (h : s.Hosts k key e)

include h

theorem same (hn : s.next ≤ t.next) (hk : t.thread.kept.get? k = s.thread.kept.get? k)
    (hc : t.thread.cells = s.thread.cells) : t.Hosts k key e :=
  ⟨h.young.trans_le hn, hk.trans h.kept, fun key' => hc ▸ h.keyed key'⟩

/-- Another number is noted something of. -/
theorem flag (hi : i ≠ k) (f : Kept → Kept) : (s.flag i f).Hosts k key e :=
  ⟨h.young, (Table.get?_modify_ne _ _ hi.symm).trans h.kept, h.keyed⟩

/-- Something is noted of the number itself. -/
theorem flag_self (f : Kept → Kept) : (s.flag k f).Hosts k key (e.map f) := by
  refine ⟨h.young, (Table.get?_modify_self _ _ _).trans (by rw [h.kept]), fun key' => ?_⟩
  rw [Option.isSome_map]
  exact h.keyed key'

/-- Another key is taken away, or given to a new cell. -/
theorem rekeyed (hkey : e.isSome → key' ≠ key) (hn : s.next ≤ t.next)
    (hk : t.thread.kept.get? k = s.thread.kept.get? k)
    (hc : ∀ l, t.thread.cells.get? l = some k ↔ l ≠ key' ∧ s.thread.cells.get? l = some k) :
    t.Hosts k key e := by
  refine ⟨h.young.trans_le hn, hk.trans h.kept, fun l => ?_⟩
  rw [hc, h.keyed]
  exact ⟨And.right, fun hl => ⟨fun heq => hkey hl.1 (heq ▸ hl.2), hl⟩⟩

theorem not_keyed (hkey : e.isSome → key' ≠ key) : s.thread.cells.get? key' ≠ some k :=
  fun hk => hkey ((h.keyed key').1 hk).1 ((h.keyed key').1 hk).2

end Hosts

end State

namespace Likeness

theorem veiled_engaged : (engaged k key w e).Veiled where
  halted s t h := by
    rw [h.1]
    exact s.resembles_engaged k w
  seen s t h := by
    rw [h.1]
    rfl
  locked f s t h := ⟨by rw [h.1]; rfl, h.2.same le_rfl rfl rfl⟩
  noted e s t h := ⟨by rw [h.1]; rfl, h.2.same le_rfl rfl rfl⟩

/-- Actions that look at no kept cell do not see the note. -/
theorem engaged_fits (hr : S.refuses) (hk : ¬ S.keys) (hd : ¬ S.dumps) :
    (engaged k key w e).Fits S := by
  refine veiled_engaged.fits hr (fun g s t h => ⟨⟨h.1, e, h.2⟩, fun s' t' h' hl => ?_⟩)
    (fun f hf _ s t h => ?_) (fun W f hf hn _ hc s t h => ?_) (fun s t l h => ?_)
    (fun l s t h => ?_) fun l o s t h => ?_
  · obtain ⟨ht, e', he⟩ := h'
    obtain rfl : e' = e := he.kept.symm.trans (hl.trans h.2.kept)
    exact ⟨ht, he⟩
  · rw [h.1]
    exact (hf.resolve_left hd _ _ s fun h => absurd h hk).symm
  · -- a step that commutes with every other table of kept cells leaves the table alone
    have hkept : (f s).thread.kept = s.thread.kept := by
      have hsame : s.disguise (fun _ => s.thread.kept) ⟨id, id, id, id, []⟩ = s := by
        show ({ s with journal := s.journal ++ [] } : State) = s
        rw [List.append_nil]
      have hf := hn (fun _ => s.thread.kept) ⟨id, id, id, id, []⟩ s fun h => absurd h hk
      rw [hsame] at hf
      exact (congrArg (fun u : State => u.thread.kept) hf :)
    refine ⟨?_, h.2.same (hf.next s) (by rw [hkept]) (hc.resolve_left hk s)⟩
    rw [h.1]
    exact hn _ _ s fun h => absurd h hk
  · rw [h.1]
    rfl
  · exact ⟨by rw [h.1]; rfl, h.2.same le_rfl rfl rfl⟩
  · exact ⟨by rw [h.1]; rfl, h.2.same le_rfl rfl rfl⟩

/-- All but looking at kept cells. -/
def apart : Scope :=
  { Scope.wide fun _ _ => True with keys := False, dumps := False }

theorem engaged_apart : (engaged k key w e).Fits apart :=
  engaged_fits trivial id id

end Likeness

/-! ## Kept cells -/

namespace Action

section Kept

variable {R : Likeness} (hR : R = .engaged k key w e) (hkey : e.isSome → key' ≠ key)

include hR

theorem kept_engaged (hi : i ≠ k) : Mirrored R (kept i) :=
  .read (k := fun s => demand .noSuchCell (s.thread.kept.get? i))
    (fun s t h => by
      subst hR
      rw [h.1, State.engaged_kept hi]) fun _ => .demand _ _

theorem setKept_engaged (hi : i ≠ k) (f : Kept → Kept) : Mirrored R (setKept i f) := by
  subst hR
  rintro s t ⟨rfl, h⟩
  exact .done rfl ⟨State.engaged_keeping (F := (·.modify i f)) (Table.modify_comm _ hi.symm _ _) id,
    h.flag hi f⟩

/-- A key stands for another number, unless it is the key. -/
theorem keyed_engaged {f : KeptId → Action α} (hf : ∀ i, i ≠ k → Mirrored R (f i))
    (hself : e.isSome → key' = key → Mirrored R (f k)) : Mirrored R (keptId key' >>= f) := by
  subst hR
  rintro s t ⟨rfl, h⟩
  rw [bind_apply, bind_apply]
  cases hc : s.thread.cells.get? key' with
  | none =>
    rw [keptId_none hc, keptId_none (s := s.engaged k w) hc]
    exact .fail ⟨rfl, h⟩
  | some i =>
    rw [keptId_some hc, keptId_some (s := s.engaged k w) hc]
    by_cases hi : i = k
    · subst hi
      obtain ⟨hsome, hkey⟩ := (h.keyed key').1 hc
      exact hself hsome hkey _ _ ⟨rfl, h⟩
    · exact hf i hi _ _ ⟨rfl, h⟩

/-- The cell that a key stands for is the same. -/
theorem cell_engaged (key' : String) : Mirrored R (cell key') := by
  subst hR
  rintro s t ⟨rfl, h⟩
  cases hc : s.thread.cells.get? key' with
  | none =>
    rw [cell_none hc, cell_none (s := s.engaged k w) hc]
    exact .fail ⟨rfl, h⟩
  | some i =>
    have hcell (t : State) (ht : t.thread.cells.get? key' = some i) :
        cell key' t = demand .noSuchCell ((t.thread.kept.get? i).map Kept.cell) t := by
      rw [cell, bind_apply, keptId_some ht, done_bind, kept, bind_apply, bind_apply, thread_apply,
        done_bind]
      cases t.thread.kept.get? i <;> rfl
    rw [hcell s hc, hcell (s.engaged k w) hc, State.engaged_cell]
    exact Mirrored.demand _ _ _ _ ⟨rfl, h⟩

theorem abandon_engaged (hi : i ≠ k) : Mirrored R (abandon i) := by
  refine .bind (kept_engaged hR hi) fun e₁ => .ite (.bind ?_ fun _ => ?_) (.pure _)
  · subst hR
    rintro s t ⟨rfl, h⟩
    exact .done rfl ⟨State.engaged_keeping (F := (·.erase i)) (Table.modify_erase _ _ _ _) id,
      h.same le_rfl (Table.get?_erase_ne _ hi.symm) rfl⟩
  · subst hR
    exact (destroy_cellular _).mirrors Likeness.engaged_apart

omit hR in
/-- What keeping a cell does before it gives up the one that had the key. -/
theorem keepCell_apply (key : String) (c : Cell) (parent : Option KeptId) (s : State) :
    keepCell key c parent s = (s.thread.cells.get? key).elim (pure ()) abandon
      ({ (s.inThread fun t => { t with
          cells := t.cells.insert key s.next
          kept := t.kept.insert s.next { cell := c } }) with
        next := s.next + 1 }.note (.opened s.next parent)) := by
  rw [keepCell, bind_apply, fresh_apply, done_bind, bind_apply, thread_apply, done_bind]
  dsimp only
  cases s.thread.cells.get? key <;> rfl

include hkey

theorem keepCell_engaged (c : Cell) (parent : Option KeptId) :
    Mirrored R (keepCell key' c parent) := by
  have hdrop (old : Option KeptId) (hold : old ≠ some k) :
      Mirrored R (old.elim (pure ()) abandon) := by
    cases old with
    | none => exact .pure _
    | some old => exact abandon_engaged hR fun h => hold (congrArg some h)
  subst hR
  rintro s t ⟨rfl, h⟩
  have hnew : s.next ≠ k := h.young.ne'
  rw [keepCell_apply, keepCell_apply]
  refine hdrop _ (h.not_keyed hkey) _ _ ⟨?_, h.rekeyed hkey (Nat.le_succ _)
    (Table.get?_insert_ne _ _ hnew.symm) fun l => ?_⟩
  · exact congrArg (fun u : State => { u with next := s.next + 1 }.note (.opened s.next parent))
      (State.engaged_keeping (F := (·.insert s.next { cell := c })) (Table.modify_insert _ hnew _ _)
        (·.insert key' s.next))
  · show (s.thread.cells.insert key' s.next).get? l = some k ↔ _
    rw [Table.get?_insert]
    split
    · next hl => simp [hl, hnew]
    · next hl => simp [hl]

theorem takeCell_engaged : Mirrored R (takeCell key') := by
  refine keyed_engaged hR (fun i hi => ?_) fun h h' => absurd h' (hkey h)
  have htake (c : Cell) : Mirrored R ((inThread fun t =>
      { t with cells := t.cells.erase key', kept := t.kept.erase i }) >>= fun _ => pure c) := by
    refine .bind ?_ fun _ => .pure _
    subst hR
    rintro s t ⟨rfl, h⟩
    refine .done rfl ⟨State.engaged_keeping (F := (·.erase i)) (Table.modify_erase _ _ _ _)
      (·.erase key'), h.rekeyed hkey le_rfl (Table.get?_erase_ne _ hi.symm) fun l => ?_⟩
    show (s.thread.cells.erase key').get? l = some k ↔ _
    rw [Table.get?_erase]
    split
    · next hl => simp [hl]
    · next hl => simp [hl]
  exact .bind (kept_engaged hR hi) fun e₁ =>
    .ite (.bind (.fail _) fun _ => htake e₁.cell) (htake e₁.cell)

end Kept

/-! ## Using kept cells -/

section Using

variable {R : Likeness} (hR : R = .engaged k key w e)

include hR

theorem leave_engaged (hi : i ≠ k) : Mirrored R (leave i) :=
  .bind (setKept_engaged hR hi _) fun _ => .read
    (k := fun s => if !s.thread.cells.values.contains i then abandon i else pure ())
    (fun s t h => by
      subst hR
      rw [h.1]
      rfl) fun _ => .ite (abandon_engaged hR hi) (.pure _)

/-- Something is noted of another number for a while. -/
theorem flagging_engaged (hi : i ≠ k) (f g : Kept → Kept) {a : Action α} (ha : Mirrored R a) :
    Mirrored R (setKept i f >>= fun _ => attempt (unwinding a) >>= fun r =>
      setKept i g >>= fun _ => ofExcept r) :=
  .bind (setKept_engaged hR hi f) fun _ =>
    .tried (.unwinding (hR ▸ Likeness.engaged_apart) ha) fun r =>
      .bind (setKept_engaged hR hi g) fun _ => .ofExcept r

theorem looking_engaged (hi : i ≠ k) {a : Action α} (ha : Mirrored R a) :
    Mirrored R (looking i a) :=
  .bind (kept_engaged hR hi) fun _ => .ite (.bind (.fail _) fun _ => flagging_engaged hR hi _ _ ha)
    (flagging_engaged hR hi _ _ ha)

theorem changing_engaged (hi : i ≠ k) {a : Action α} (ha : Mirrored R a) :
    Mirrored R (changing i a) := by
  refine .bind (kept_engaged hR hi) fun e₁ => ?_
  split
  · exact looking_engaged hR hi ha
  · exact .ite (.bind (.fail _) fun _ => flagging_engaged hR hi _ _ ha)
      (flagging_engaged hR hi _ _ ha)

/-- Something is noted of the number itself for a while. -/
theorem flagging_self {f g : Kept → Kept} (he : e = some e₀) (hf : f e₀.engaged = (f e₀).engaged)
    (hg : g (f e₀).engaged = (g (f e₀)).engaged) (hback : g (f e₀) = e₀) {a : Action α}
    (ha : Mirrored (.engaged k key w (some (f e₀))) a) :
    Mirrored R (setKept k f >>= fun _ => attempt (unwinding a) >>= fun r =>
      setKept k g >>= fun _ => ofExcept r) := by
  subst hR he
  rintro s t ⟨rfl, h⟩
  have hm := Mirrored.unwinding Likeness.engaged_apart ha (s.flag k f) ((s.engaged k w).flag k f)
    ⟨State.engaged_flag h.kept hf, h.flag_self f⟩
  rw [bind_apply, bind_apply, setKept_apply, setKept_apply, done_bind, done_bind]
  have hdone (s' t' : State) (h' : (Likeness.engaged k key w (some (f e₀))).ended s' t') :
      (Likeness.engaged k key w (some e₀)).ended (s'.flag k g) (t'.flag k g) := by
    obtain ⟨rfl, h'⟩ := h'
    have hthere := h'.flag_self g
    rw [Option.map_some, hback] at hthere
    exact ⟨State.engaged_flag h'.kept hg, hthere⟩
  refine hm.inside (fun x y s' t' hv h' => ?_) fun f' s' t' h' => ?_
  · exact .done hv (hdone s' t' h')
  · exact .fail (hdone s' t' h')

/-- Looking at the cell itself, if it is a handle. -/
theorem looking_self {id : SlotId} {a : Access} (he : e = some e₀) (hc : e₀.cell = .handle id a)
    {b : Action α} (hb : Mirrored (.engaged k key w (some e₀.looked)) b) :
    Mirrored R (looking k b) := by
  have hflag : Mirrored R (setKept k Kept.looked >>= fun _ => attempt (unwinding b) >>= fun r =>
      setKept k (fun e => { e with readers := e.readers - 1 }) >>= fun _ => ofExcept r) :=
    flagging_self hR he e₀.engaged_looked (by
      obtain ⟨c, users, readers, exclusive⟩ := e₀
      cases c <;> rfl) rfl hb
  subst hR he
  rintro s t ⟨rfl, h⟩
  rw [looking, bind_apply, bind_apply, kept_some h.kept, kept_some (State.engaged_self h.kept),
    done_bind, done_bind, Kept.engaged_exclusive hc]
  split
  · exact .fail ⟨rfl, h⟩
  · exact hflag _ _ ⟨rfl, h⟩

theorem changing_self {id : SlotId} {a : Access} (he : e = some e₀) (hc : e₀.cell = .handle id a)
    {b : Action α} (hb : Mirrored (.engaged k key w (some e₀.looked)) b) :
    Mirrored R (changing k b) := by
  have hlook := looking_self hR he hc hb
  have hsame {s : State} {e : Kept} (hk : s.thread.kept.get? k = some e)
      (hc : e.cell = .handle id a) : changing k b s = looking k b s := by
    obtain ⟨c, users, readers, exclusive⟩ := e
    obtain rfl : c = .handle id a := hc
    rw [changing, bind_apply, kept_some hk, done_bind]
  subst hR he
  rintro s t ⟨rfl, h⟩
  rw [hsame h.kept hc, hsame (State.engaged_self h.kept) (e₀.engaged_cell.trans hc)]
  exact hlook _ _ ⟨rfl, h⟩

/-- The use of a cell, which may be the one that the other operation changes. -/
theorem withCell_engaged {b : KeptId → Cell → Action α}
    (hother : ∀ i c, i ≠ k → Mirrored R (b i c))
    (hself : ∀ e₀, e = some e₀ → key' = key →
      Mirrored (.engaged k key w (some e₀.entered)) (b k e₀.cell)) :
    Mirrored R (withCell key' b) := by
  have hfits : R.Fits Likeness.apart := hR ▸ Likeness.engaged_apart
  refine keyed_engaged hR (fun i hi => .bind (kept_engaged hR hi) fun e₁ =>
    .bind (setKept_engaged hR hi _) fun _ => .tried (.unwinding hfits (hother i _ hi)) fun r =>
      .conclude hfits (leave_engaged hR hi) r) fun hsome hkey => ?_
  obtain ⟨e₀, rfl⟩ := Option.isSome_iff_exists.1 hsome
  subst hR
  rintro s t ⟨rfl, h⟩
  have hm := Mirrored.unwinding Likeness.engaged_apart (hself e₀ rfl hkey) (s.flag k Kept.entered)
    ((s.engaged k w).flag k Kept.entered)
    ⟨State.engaged_flag h.kept e₀.engaged_entered, h.flag_self Kept.entered⟩
  rw [bind_apply, bind_apply, kept_some h.kept, kept_some (State.engaged_self h.kept), done_bind,
    done_bind, bind_apply, bind_apply, setKept_apply, setKept_apply, done_bind, done_bind,
    e₀.engaged_cell]
  -- the key still stands for the cell when the use ends
  have hdone (s' t' : State)
      (h' : (Likeness.engaged k key w (some e₀.entered)).ended s' t') :
      (Likeness.engaged k key w (some e₀)).ended
        (s'.flag k fun e => { e with users := e.users - 1 })
        (t'.flag k fun e => { e with users := e.users - 1 }) ∧
      s'.thread.cells.get? key = some k ∧ t'.thread.cells.get? key = some k := by
    obtain ⟨rfl, h'⟩ := h'
    have hthere := h'.flag_self fun e => { e with users := e.users - 1 }
    have hk := (h'.keyed key).2 ⟨rfl, rfl⟩
    refine ⟨⟨State.engaged_flag h'.kept ?_, hthere⟩, hk, hk⟩
    obtain ⟨c, users, readers, exclusive⟩ := e₀
    cases c <;> rfl
  refine hm.inside (fun x y s' t' hv h' => ?_) fun f' s' t' h' => ?_
  · obtain ⟨hend, hks, hkt⟩ := hdone s' t' h'
    rw [conclude, conclude, bind_apply, bind_apply, leave_keyed hks, leave_keyed hkt]
    · exact .done hv hend
    · simp
    · simp
  · obtain ⟨hend, hks, hkt⟩ := hdone s' t' h'
    rw [conclude_passes (leave_keyed hks), conclude_passes (leave_keyed hkt)]
    exact .fail hend

end Using

/-! ## Operations on cells -/

/-- What is done with a cell whose key was found goes the same way if looking at it and changing it
do. -/
theorem usePart_mirrors {R R' : Likeness} {c : Cell} {bound : Bool} {verb : Verb}
    (hR : R.Fits Likeness.apart) (hin : R'.Fits Likeness.apart)
    (hlook : ∀ {β : Type} {a : Action β}, Mirrored R' a → Mirrored R (looking i a))
    (hchange : ∀ {β : Type} {a : Action β}, Mirrored R' a → Mirrored R (changing i a))
    (hcell : ∀ key, Mirrored R (cell key))
    (hkeep : ∀ new, verb = .retain new → ∀ c p, Mirrored R (keepCell new c p)) :
    Mirrored R (usePart bound verb i c) := by
  have hl : Likeness.apart.LooksAt (c.via bound) := by cases c.via bound <;> trivial
  have hc : Likeness.apart.Changes (c.via bound) := by cases c.via bound <;> trivial
  have hr : Likeness.apart.Reads (c.via bound) := by
    cases c.via bound with
    | own => trivial
    | handle => exact ⟨trivial, trivial⟩
  unfold usePart
  cases verb with
  | name => exact .bind (hlook ((slot_cellular _).mirrors hin)) fun _ => .pure _
  | state | isBound => exact .bind (hlook ((look_cellular hl).mirrors hin)) fun _ => .pure _
  | read => exact .bind (hlook ((read_cellular hl).mirrors hin)) fun _ => .pure _
  | readOwned new =>
    exact hlook (.bind ((readOwned_cellular hr).mirrors hin) fun _ =>
      .bind ((keepClaim_cellular _ _).mirrors hin) fun _ => .pure _)
  | assign claim =>
    exact hchange (.bind ((takeClaim_cellular _).mirrors hin) fun _ =>
      .bind ((assign_cellular hc _).mirrors hin) fun _ => .pure _)
  | assignBorrowed o =>
    exact hchange (.bind ((requireKnown_cellular _).mirrors hin) fun _ =>
      .bind ((assignBorrowed_cellular hc trivial _).mirrors hin) fun _ => .pure _)
  | clear => exact .bind (hchange ((clear_cellular hc).mirrors hin)) fun _ => .pure _
  | take new =>
    exact hchange (.bind ((take_cellular hc).mirrors hin) fun _ =>
      .bind ((keepClaim_cellular _ _).mirrors hin) fun _ => .pure _)
  | debug => exact .bind (hlook ((debugText_cellular hl bound).mirrors hin)) fun _ => .pure _
  | refcount =>
    exact .bind ((sharedSlot_cellular _).mirrors hR) fun _ =>
      .bind ((sharing_cellular _).mirrors hR) fun _ => .pure _
  | sameAs other =>
    exact .bind ((sharedSlot_cellular _).mirrors hR) fun _ => .bind (hcell other) fun _ =>
      .bind ((sharedSlot_cellular _).mirrors hR) fun _ => .pure _
  | retain new =>
    exact .bind ((sharedSlot_cellular _).mirrors hR) fun _ =>
      .bind ((retain_cellular _).mirrors hR) fun _ => .bind (hkeep new rfl _ _) fun _ => .pure _

end Action

namespace Op

/-- The operation takes the key away from its cell. -/
def GivesAway : Op → String → Prop
  | .cell (.make key _), key' | .cell (.drop key), key' | .cell (.release key), key'
  | .cell (.use _ _ (.retain key)), key' => key' = key
  | .cell (.intoInner key new), key' => key' = key ∨ key' = new
  | _, _ => False

/-- The operation uses the cell with the key. A dump looks at all cells. -/
def Uses : Op → String → Prop
  | .cell (.use key ..), key' => key' = key
  | .dump, _ => True
  | _, _ => False

/-- The operation is in the way of another one that changes the kept cell at the moment. It takes
the key away from the cell, or it uses the cell although the other one has it to itself. The cell
is borrowed meanwhile, so that a program can do neither. -/
def Disturbs (op : Op) (k : KeptId) (s : State) : Prop :=
  ∃ key, s.thread.cells.get? key = some k ∧
    (op.GivesAway key ∨ op.Uses key ∧ ∃ e, s.thread.kept.get? k = some e ∧ e.exclusive = true)

end Op

namespace Action

section Operations

variable {R : Likeness} (hR : R = .engaged k key w e)

include hR

theorem useCell_engaged {bound : Bool} {verb : Verb}
    (hgive : ∀ new, verb = .retain new → e.isSome → new ≠ key)
    (hown : ∀ e₀, e = some e₀ → key' = key → ∃ id a, e₀.cell = .handle id a) :
    Mirrored R (useCell key' bound verb) := by
  rw [useCell_eq]
  refine withCell_engaged hR (fun i c hi => ?_) fun e₀ he hkey => ?_
  · have hfits : R.Fits Likeness.apart := hR ▸ Likeness.engaged_apart
    exact usePart_mirrors hfits hfits (looking_engaged hR hi) (changing_engaged hR hi)
      (cell_engaged hR) fun new hv => keepCell_engaged hR (hgive new hv)
  · obtain ⟨id, a, hc⟩ : ∃ id a, e₀.entered.cell = .handle id a := hown e₀ he hkey
    exact usePart_mirrors Likeness.engaged_apart Likeness.engaged_apart (looking_self rfl rfl hc)
      (changing_self rfl rfl hc) (cell_engaged rfl) fun new hv =>
        keepCell_engaged rfl fun _ => hgive new hv (he ▸ rfl)

theorem performCell_engaged {op : CellOp}
    (hgive : ∀ key', (Op.cell op).GivesAway key' → e.isSome → key' ≠ key)
    (hown : ∀ e₀, e = some e₀ → (Op.cell op).Uses key → ∃ id a, e₀.cell = .handle id a) :
    Mirrored R (performCell op) := by
  have hfits : R.Fits Likeness.apart := hR ▸ Likeness.engaged_apart
  cases op with
  | make key' how =>
    exact .bind ((make_cellular fun _ => trivial).mirrors hfits) fun _ =>
      .bind (keepCell_engaged hR (hgive key' rfl) _ _) fun _ => .pure _
  | use key' bound verb =>
    exact useCell_engaged hR (fun new hv => hgive new (hv ▸ rfl)) fun e₀ he hkey =>
      hown e₀ he hkey.symm
  | drop key' =>
    exact .bind (takeCell_engaged hR (hgive key' rfl)) fun _ =>
      .bind ((destroy_cellular _).mirrors hfits) fun _ => .pure _
  | release key' =>
    exact .bind (cell_engaged hR key') fun _ => .bind ((sharedSlot_cellular _).mirrors hfits) fun _ =>
      .bind (takeCell_engaged hR (hgive key' rfl)) fun _ =>
      .bind ((releaseHandle_cellular _).mirrors hfits) fun _ => .pure _
  | intoInner key' new =>
    exact .bind (cell_engaged hR key') fun _ => .bind ((innerCell_cellular _).mirrors hfits) fun _ =>
      .bind (takeCell_engaged hR (hgive key' (.inl rfl))) fun _ =>
      .bind (keepCell_engaged hR (hgive new (.inr rfl)) _ _) fun _ => .pure _

theorem dump_engaged (hown : ∀ e₀, e = some e₀ → ∃ id a, e₀.cell = .handle id a) :
    Mirrored R dump := by
  have hfits : R.Fits Likeness.apart := hR ▸ Likeness.engaged_apart
  have hview (i : KeptId) : Mirrored R (kept i >>= viewCell) := by
    by_cases hi : i = k
    · subst hi hR
      rintro s t ⟨rfl, h⟩
      rw [bind_apply, bind_apply]
      cases e with
      | none =>
        have hnone : (s.engaged i w).thread.kept.get? i = none := by
          rw [← Option.map_eq_none_iff (f := Kept.cell), State.engaged_cell, h.kept]
          rfl
        rw [kept_none h.kept, kept_none hnone]
        exact .fail ⟨rfl, h⟩
      | some e₀ =>
        obtain ⟨id, a, hc⟩ := hown e₀ rfl
        have hsame : viewCell e₀.engaged = viewCell e₀ := by
          unfold viewCell
          rw [Kept.engaged_exclusive hc, Kept.engaged_cell]
        rw [kept_some h.kept, kept_some (State.engaged_self h.kept), done_bind, done_bind, hsame]
        exact (viewCell_cellular (fun _ => trivial) e₀).mirrors hfits _ _ ⟨rfl, h⟩
    · exact .bind (kept_engaged hR hi) fun e₁ =>
        (viewCell_cellular (fun _ => trivial) e₁).mirrors hfits
  refine Mirrored.read (k := fun s => (s.thread.cells.entries.mapM fun p => do
      return (p.1, ← viewCell (← kept p.2))) >>= fun cells => pure (Answer.dump cells
        s.thread.claims.entries (s.thread.known.map fun o => (o, s.thread.ledger.count o))))
    (fun s t h => ?_) fun s => .bind (.mapM (fun p => ?_) _) fun _ => .pure _
  · subst hR
    rw [h.1]
    rfl
  · have hpart := Mirrored.bind (hview p.2) fun v => .pure (R := R) (p.1, v)
    rwa [bind_assoc] at hpart

/-- What an operation does that is not in the way. -/
theorem perform_engaged (hgive : ∀ key', op.GivesAway key' → e.isSome → key' ≠ key)
    (hown : ∀ e₀, e = some e₀ → op.Uses key → ∃ id a, e₀.cell = .handle id a)
    (h : R.ended s t) : (unwinding (perform op) s).Mirrors R Eq (unwinding (perform op) t) := by
  have hfits : R.Fits Likeness.apart := hR ▸ Likeness.engaged_apart
  by_cases hop : op.OnKept
  · refine Mirrored.unwinding hfits ?_ s t h
    cases op with
    | cell op => exact performCell_engaged hR hgive hown
    | dump => exact dump_engaged hR fun e₀ he => hown e₀ he trivial
    | _ => exact hop.elim
  · have hcell (c : Cell) : Likeness.apart.LooksAt c ∧ Likeness.apart.Reads c ∧
        Likeness.apart.Changes c := by
      cases c with
      | own => exact ⟨trivial, trivial, trivial⟩
      | handle => exact ⟨trivial, ⟨trivial, trivial⟩, trivial⟩
    have hin : Cellular.In Likeness.apart (perform op) s.HandledAs :=
      perform_apart hop (fun _ _ _ => trivial) (fun _ => ⟨fun _ _ _ => trivial, fun _ _ => trivial⟩)
        (fun _ => ⟨trivial, fun _ _ _ => trivial⟩) (fun _ _ _ _ => trivial) (fun _ => trivial)
        (fun _ c _ => (hcell c).2.1) (fun _ c _ => (hcell c).1) fun _ c _ => (hcell c).2.2
    obtain ⟨b, hb, hcell⟩ := unwinding_in hin
    have hm := hcell.mirrors hfits s t h
    have ht : s.HandledAs t := by
      subst hR
      rw [h.1]
      rfl
    rwa [← hb s rfl, ← hb t ht] at hm

end Operations

end Action

/-! ## Scripts -/

namespace State

theorem hook?_engaged (k : KeptId) (w : List Thread) (g : Signal) (s : State) :
    (s.engaged k w).hook? g = s.hook? g := by
  unfold hook?
  cases g.realm <;> rfl

theorem hooked_engaged (k : KeptId) (w : List Thread) (g : Signal) (s : State) :
    ((s.engaged k w).eraseHook g).note (.hook g) =
      ((s.eraseHook g).note (.hook g)).engaged k w := by
  unfold eraseHook
  cases g.realm <;> rfl

theorem startThread_engaged (k : KeptId) (w : List Thread) (s : State) :
    (s.engaged k w).startThread = s.startThread.engaged k ((s.engaged k w).thread :: w) := by
  rw [engaged_eq, engaged_eq]
  rfl

/-- On its own thread the number stands for nothing, so there is no note to leave out. -/
theorem endThread_engaged {w' : List Thread} (h : t.thread.kept.get? k = none) :
    (t.engaged k w').endThread (s.engaged k w) = (t.endThread s).engaged k w := by
  rw [engaged_eq, engaged_eq, engaged_eq, Table.modify_absent h]
  rfl

namespace Hosts

theorem hooked (h : s.Hosts k key e) (g : Signal) :
    ((s.eraseHook g).note (.hook g)).Hosts k key e := by
  unfold eraseHook
  cases g.realm <;> exact h.same le_rfl rfl rfl

theorem startThread (h : s.Hosts k key e) : s.startThread.Hosts k key none :=
  ⟨h.young, rfl, fun _ => ⟨fun h => (by cases h), fun h => (by cases h.1)⟩⟩

theorem endThread (h : s.Hosts k key e) (ht : t.Hosts k key none) :
    (t.endThread s).Hosts k key e :=
  ⟨ht.young, h.kept, h.keyed⟩

end Hosts

end State

/-- Nothing that begins is in the way of the operation that changes the kept cell. -/
abbrev Script.Spares (n : Nat) (L : List SlotId) (k : KeptId) (body : Script) (s : State) : Prop :=
  Script.Begins (fun _ op u => ¬ op.Disturbs k u) n L body s

section Scripts

variable {L : List SlotId} {body : Script} {g : Signal}

/-- An operation does the same with the note and without, with all that it sets off, if nothing of
that is in the way. -/
def StepEngaged (n : Nat) : Prop :=
  ∀ L k key w e op s, s.Hosts k key e → Script.Spares n L k [op] (s.engaged k w) →
    Outcome.Mirrors (.engaged k key w e) Eq (step n op s) (step n op (s.engaged k w))

theorem runNested_engaged (h : StepEngaged n) (hs : s.Hosts k key e)
    (hb : body.Spares n L k (s.engaged k w)) :
    SameEnd (fun s t => t = s.engaged k w ∧ s.Hosts k key e) State.Resembles
      (runNested (step n) body s) (runNested (step n) body (s.engaged k w)) := by
  induction body generalizing s with
  | nil => exact .ok ⟨rfl, hs⟩
  | cons op ops ih =>
    have hop := h L k key w e op s hs hb.head
    have htail := fun r t => hb.tail (r := r) (t := t)
    rw [runNested, runNested]
    generalize step n op s = x, step n op (s.engaged k w) = y at hop htail
    cases hop with
    | done hv h' =>
      obtain ⟨rfl, h'⟩ := h'
      obtain rfl := hv
      exact ih (h'.same le_rfl rfl rfl) (htail _ _ rfl)
    | fail h' =>
      obtain ⟨rfl, h'⟩ := h'
      exact ih (h'.same le_rfl rfl rfl) (htail _ _ rfl)
    | halt h' => exact .error h'

theorem react_engaged (h : StepEngaged n) (hs : s.Hosts k key e)
    (hb : ∀ body, (s.engaged k w).hook? g = some body →
      body.Spares n L k (((s.engaged k w).eraseHook g).note (.hook g))) :
    SameEnd (fun s t => t = s.engaged k w ∧ s.Hosts k key e) State.Resembles
      (react (step n) g s) (react (step n) g (s.engaged k w)) := by
  rw [react, react]
  rw [State.hook?_engaged, State.hooked_engaged] at *
  cases hg : s.hook? g with
  | none => exact .ok ⟨rfl, hs⟩
  | some body => exact runNested_engaged h (hs.hooked g) (hb body hg)

/-- **Beside an operation in progress everything goes the same way** as without it, unless it is in
the way. -/
theorem step_engaged (n : Nat) : StepEngaged n := by
  induction n with
  | zero => exact fun _ k _ w _ _ s _ _ => .halt (s.resembles_engaged k w)
  | succ n ih =>
    intro L k key w e op s hs hb
    by_cases hop : ∃ body, op = .thread body
    · obtain ⟨body, rfl⟩ := hop
      have hbody := hb.thread
      rw [State.startThread_engaged] at hbody
      have hrun := runNested_engaged ih hs.startThread hbody
      rw [step, step, runThread, runThread, State.startThread_engaged]
      generalize runNested (step n) body s.startThread = x,
        runNested (step n) body (s.startThread.engaged k _) = y at hrun
      cases hrun with
      | ok h =>
        obtain ⟨rfl, h⟩ := h
        exact .done rfl ⟨State.endThread_engaged h.kept, hs.endThread h⟩
      | error h => exact .halt h
    · have hne : ∀ body, op ≠ .thread body := fun body hb => hop ⟨body, hb⟩
      have hfree : ¬ op.Disturbs k (s.engaged k w) := hb.first
      have hcourse := Action.perform_engaged (R := .engaged k key w e) rfl
        (fun key' (hgive : op.GivesAway key') he hkey => hfree ?_) (fun e₀ he huse => ?_) ⟨rfl, hs⟩
      · rw [step_perform hne, step_perform hne]
        refine hcourse.settle fun g u v _ hv huv => ?_
        obtain ⟨rfl, e', he'⟩ := huv
        exact (react_engaged ih he' fun body hbody => hb.hooked hv hbody).mono fun u' v' h =>
          ⟨⟨h.1, e', h.2⟩, h.2.kept.trans he'.kept.symm⟩
      · exact ⟨key, (hs.keyed key).2 ⟨he, rfl⟩, .inl (hkey ▸ hgive)⟩
      · cases hc : e₀.cell with
        | handle id a => exact ⟨id, a, rfl⟩
        | own form id =>
          subst he
          refine absurd ⟨key, (hs.keyed key).2 ⟨rfl, rfl⟩, .inr ⟨huse, _,
            State.engaged_self hs.kept, ?_⟩⟩ hfree
          unfold Kept.engaged
          rw [hc]

end Scripts

end ClaimCells
