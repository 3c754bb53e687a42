import ClaimCells.Run
import Mathlib.Tactic

/-!
# Moves of claims and cells

An operation changes the state in small indivisible moves. Each move takes a claim, a variable,
a handle or a kept cell from one place to another; between two signals of an operation nothing
else happens. What every operation does is said in these moves, and what holds of all runs is
then shown move by move.

**In the arms.** A cell that was made and is not kept yet, or that was taken away from its key
and is not ended yet, is in no table. The operation at work has it in its arms; the moves carry
the list of such cells along.

**Deeds.** `Move l s ds l' s'` says that a move with the deeds `ds` leads from the arms `l` and the
state `s` to `l'` and `s'`; `Moves` is a sequence of moves. The deeds are those that the journal
tells of.
-/

namespace ClaimCells

/-! ## State changes -/

namespace State

/-- Takes a claim into the hands. -/
def hold (s : State) (c : Claim) : State :=
  s.inThread fun t => { t with hands := c :: t.hands }

/-- Lets a claim out of the hands. -/
def letGo (s : State) (c : Claim) : State :=
  s.inThread fun t => { t with hands := t.hands.erase c }

/-- Takes a claim into the hands, if there is one. -/
def holdAny (s : State) (c : Option Claim) : State :=
  s.inThread fun t => { t with hands := c.toList ++ t.hands }

/-- Lets a claim out of the hands, if there is one. -/
def letGoAny (s : State) (c : Option Claim) : State :=
  s.inThread fun t => { t with hands := c.elim t.hands t.hands.erase }

def setLedger (s : State) (l : Ledger) : State :=
  s.inThread ({ · with ledger := l })

/-- Puts counters in place. -/
def tune (s : State) (p : Profiler) : State :=
  { s with profiler := p }.note (.tuned p)

def setValue (s : State) (id : SlotId) (value : Option ObjectId) : State :=
  { s with slots := s.slots.modify id ({ · with value }) }.note (.did (.set id value))

/-- Changes the flags of a kept cell. -/
def flag (s : State) (k : KeptId) (f : Kept → Kept) : State :=
  s.inThread fun t => { t with kept := t.kept.modify k f }

/-- Reports an event. -/
def emit (s : State) (e : Event) : State :=
  s.note (.event e (s.writes e))

/-- Writes a deed into the journal. -/
def did (s : State) (d : Deed) : State :=
  s.note (.did d)

/-- Makes a slot, which takes its claim out of the hands. -/
def made (s : State) (v : Slot) (p : Profiler) : State :=
  (({ s with profiler := p, next := s.next + 1, slots := s.slots.insert s.next v }.emit
    (.constructed v.kind v.name v.value.isSome)).did (.made s.next v)).letGoAny
      (v.value.map (⟨v.realm, ·⟩))

/-- Puts the slot that was just made behind its first handle. -/
def shared (s : State) (id : SlotId) : State :=
  { s with sharing := s.sharing.insert id { handles := 1 } }.did (.shared id)

/-- The report that a handle is given up, if there is one. -/
def announcement (s : State) (aloud : Bool) (name : String) (handles : Nat) : Journal :=
  if aloud then
    [.event (.released name (handles - 1)) (s.writes (.released name (handles - 1)))]
  else []

def announce (s : State) (aloud : Bool) (name : String) (handles : Nat) : State :=
  { s with journal := s.announcement aloud name handles ++ s.journal }

end State

/-- The claim that a slot owns. -/
def Slot.claim? (v : Slot) : Option Claim :=
  v.value.map (⟨v.realm, ·⟩)

/-- The counters after a slot was made. -/
def Profiler.recordMade (p : Profiler) (k : CellKind) (bound : Bool) : Option Profiler :=
  (p.record k .constructed).bind fun p => if bound then p.record k .bound else some p

/-- The counters after a slot was bound. -/
def Profiler.recordBound (p : Profiler) (k : CellKind) (rebound : Bool) : Option Profiler :=
  (p.record k .bound).bind fun p => if rebound then p.record k .released else some p

/-- Some event cannot be counted any more. -/
def Profiler.Full (p : Profiler) : Prop :=
  ∃ k e, p.record k e = none

/-- The event that is counted when a claim leaves a slot. -/
def UnbindReason.event : UnbindReason → ClaimEvent
  | .release => .released
  | .transfer => .transferred

/-- Entries that tell nothing of a claim or a cell. -/
def Entry.idle : Entry → Bool
  | .hook _ | .answered _ => true
  | .event (.constructed ..) _ | .event (.assigned ..) _ | .event (.unbound ..) _ => false
  | .event (.destroyedBound ..) _ | .event (.retained ..) _ => false
  | .event (.released ..) _ | .event (.freed ..) _ => false
  | .event .. => true
  | _ => false

/-! ## Moves -/

/-- Changes that concern no claim, cell or counter. -/
structure Aside (s s' : State) : Prop where
  ledger : s'.thread.ledger = s.thread.ledger
  known : ∀ o ∈ s.thread.known, o ∈ s'.thread.known
  hands : s'.thread.hands = s.thread.hands
  claims : s'.thread.claims = s.thread.claims
  cells : s'.thread.cells = s.thread.cells
  kept : s'.thread.kept = s.thread.kept
  waiting : s'.waiting = s.waiting
  ended : s'.ended = s.ended
  slots : s'.slots = s.slots
  sharing : s'.sharing = s.sharing
  next : s'.next = s.next
  handles : s'.handles = s.handles
  profiler : s'.profiler = s.profiler
  build : s'.build = s.build
  journal : ∃ es, s'.journal = es ++ s.journal ∧ ∀ e ∈ es, e.idle = true

/-- What claims, cells and counters live in. -/
def State.holdings (s : State) :=
  (s.thread.ledger, s.thread.known, s.thread.hands, s.thread.claims, s.thread.cells, s.thread.kept,
    s.waiting, s.ended, s.slots, s.sharing, s.next, s.handles, s.profiler, s.build)

theorem Aside.noting {s s' : State} {es : Journal} (h : s'.holdings = s.holdings)
    (hj : s'.journal = es ++ s.journal) (hes : ∀ e ∈ es, e.idle = true) : Aside s s' := by
  simp only [State.holdings, Prod.mk.injEq] at h
  obtain ⟨h₁, hk, h₂, h₃, h₄, h₅, h₆, h₇, h₈, h₉, h₁₀, h₁₁, h₁₂, h₁₃⟩ := h
  exact ⟨h₁, fun o ho => hk ▸ ho, h₂, h₃, h₄, h₅, h₆, h₇, h₈, h₉, h₁₀, h₁₁, h₁₂, h₁₃, es, hj, hes⟩

theorem Aside.silent {s s' : State} (h : s'.holdings = s.holdings) (hj : s'.journal = s.journal) :
    Aside s s' :=
  .noting h (hj.trans (List.nil_append _).symm) fun _ he => nomatch he

/-- One more number may be used as an object. -/
theorem Aside.knowing (s : State) (o : ObjectId) :
    Aside s (s.inThread fun t => { t with known := o :: t.known }) :=
  ⟨rfl, fun _ => List.mem_cons_of_mem o, rfl, rfl, rfl, rfl, rfl, rfl, rfl, rfl, rfl, rfl, rfl, rfl,
    [], rfl, List.forall_mem_nil _⟩

/-- The cell with a number. -/
def State.keptCell? (s : State) (k : KeptId) : Option Cell :=
  (s.thread.kept.get? k).map Kept.cell

/-- A slot that a kept cell may have: its objects are those of the ledger, and a cell that has it to
itself is no shared one, and a temporary just when the slot is one. -/
structure Cell.Fits (c : Cell) (v : Slot) : Prop where
  counted : v.realm = .counted
  unshared : ∀ form id, c = .own form id → v.kind ≠ .shared
  temporary : ∀ form id, c = .own form id → (form = .temporary ↔ v.kind = .temp)

/-- A handle is the first of its cell, and speaks as the activation that owns the variable. -/
def Cell.First (s : State) (c : Cell) : Prop :=
  ∀ id a, c = .handle id a →
    a = .locally ∧ ∃ sh, s.sharing.get? id = some sh ∧ sh.handles = 1

/-- A cell agrees with its parent: a retained handle leads to the cell of the handle it was retained
from, and speaks as a nested activation; a handle without parent is the first of its cell. -/
def Descends (s : State) (cell? : Nat → Option Cell) (parent : Option Nat) (c : Cell) : Prop :=
  match parent with
  | some k => c.access = .free ∧ ∃ p, cell? k = some p ∧ p.slot = c.slot
  | none => c.First s

/-- The same cell, of which something else is noted. Only one with a slot of its own is ever had by
an operation for itself. -/
structure Kept.Noted (e e' : Kept) : Prop where
  cell : e'.cell = e.cell
  exclusive : e'.exclusive = e.exclusive ∨ ∃ form id, e.cell = .own form id

theorem Kept.Noted.symm {e e' : Kept} (h : e.Noted e') : e'.Noted e :=
  ⟨h.cell.symm, h.exclusive.imp Eq.symm fun hown => h.cell ▸ hown⟩

/-- The indivisible moves. -/
inductive Move (l : List Cell) (s : State) : List Deed → List Cell → State → Prop
  | aside {s' : State} (h : Aside s s') : Move l s [] l s'
  | tuned (p : Profiler) : Move l s [] l (s.tune p)
  /-- An event is counted of which no more comes, but perhaps that a counter is full. -/
  | counted {k : CellKind} {e : ClaimEvent} {p : Profiler} (hp : s.profiler.record k e = some p)
      (he : e = .unboundAccess ∨ p.Full) : Move l s [] l { s with profiler := p }
  -- claims and the ledger
  | allocated : Move l s [] l
      ((((s.inThread fun t => { t with
          ledger := t.ledger.allocate.2, known := t.ledger.allocate.1 :: t.known }).note
            (.allocated s.thread.ledger.allocate.1))).hold ⟨.counted, s.thread.ledger.allocate.1⟩)
  | gained {o : ObjectId} {k : Ledger} (h : s.thread.ledger.acquire o = .ok k) :
      Move l s [] l (((s.setLedger k).hold ⟨.counted, o⟩).note (.acquired o))
  | gainedNative (o : ObjectId) (f : Library) :
      Move l s [] l ((s.hold ⟨.native, o⟩).note (.called f .acquired o))
  | refusedGain {o : ObjectId} {m : Misuse} (h : s.thread.ledger.acquire o = .error m) :
      Move l s [] l (s.note (.refused m))
  | released {o : ObjectId} {k : Ledger} (hc : ⟨.counted, o⟩ ∈ s.thread.hands)
      (h : s.thread.ledger.release o = .ok k) :
      Move l s [] l (((s.letGo ⟨.counted, o⟩).setLedger k).note (.released o))
  | releasedNative {o : ObjectId} (f : Library) (hc : ⟨.native, o⟩ ∈ s.thread.hands) :
      Move l s [] l ((s.letGo ⟨.native, o⟩).note (.called f .released o))
  | lost {o : ObjectId} {m : Misuse} (hc : ⟨.counted, o⟩ ∈ s.thread.hands)
      (h : s.thread.ledger.release o = .error m) :
      Move l s [] l ((s.letGo ⟨.counted, o⟩).note (.refused m))
  | lostNative {o : ObjectId} (hc : ⟨.native, o⟩ ∈ s.thread.hands) :
      Move l s [] l ((s.letGo ⟨.native, o⟩).emit (.violated .functionsMissing))
  | adopted (c : Claim) : Move l s [] l ((s.note (.adopted c)).hold c)
  | disowned {c : Claim} (hc : c ∈ s.thread.hands) :
      Move l s [] l ((s.note (.disowned c)).letGo c)
  -- kept claims
  | taken {key : String} {o : ObjectId} (h : s.thread.claims.get? key = some o) :
      Move l s [] l
        ((s.inThread fun t => { t with claims := t.claims.erase key }).hold ⟨.counted, o⟩)
  | handed (key : String) {o : ObjectId} (hc : ⟨.counted, o⟩ ∈ s.thread.hands) :
      Move l s [.handed key o] l
        ((((s.letGo ⟨.counted, o⟩).inThread fun t =>
          { t with claims := t.claims.insert key o }).holdAny
          ((s.thread.claims.get? key).map (⟨.counted, ·⟩))).did (.handed key o))
  -- variables
  | made {v : Slot} {p : Profiler} (form : Form) (hv : v.kind ≠ .shared)
      (hc : ∀ c ∈ v.claim?, c ∈ s.thread.hands)
      (hp : s.profiler.recordMade v.kind v.value.isSome = some p) :
      Move l s [.made s.next v] (.own form s.next :: l) (s.made v p)
  | madeShared {v : Slot} {p : Profiler} (hv : v.kind = .shared)
      (hc : ∀ c ∈ v.claim?, c ∈ s.thread.hands)
      (hp : s.profiler.recordMade v.kind v.value.isSome = some p) :
      Move l s [.made s.next v, .shared s.next] (.handle s.next .locally :: l)
        ((s.made v p).shared s.next)
  | bound {id : SlotId} {v : Slot} {o : ObjectId} {p : Profiler}
      (hv : s.slots.get? id = some v) (hc : ⟨v.realm, o⟩ ∈ s.thread.hands)
      (hp : s.profiler.recordBound v.kind v.value.isSome = some p) :
      Move l s [.set id (some o)] l
        (((({ s with profiler := p }.letGo ⟨v.realm, o⟩).setValue id (some o)).holdAny
          v.claim?).emit (.assigned v.kind v.name v.value.isSome))
  | boundFull {id : SlotId} {v : Slot} {o : ObjectId} {p : Profiler}
      (hv : s.slots.get? id = some v) (hc : ⟨v.realm, o⟩ ∈ s.thread.hands) (hp : p.Full) :
      Move l s [.set id (some o)] l
        ((({ s with profiler := p }.letGo ⟨v.realm, o⟩).setValue id (some o)).holdAny v.claim?)
  | emptied {id : SlotId} {v : Slot} {o : ObjectId} {p : Profiler} (r : UnbindReason)
      (hv : s.slots.get? id = some v) (ho : v.value = some o)
      (hp : s.profiler.record v.kind r.event = some p) :
      Move l s [.set id none] l
        (({ s with profiler := p }.setValue id none).hold ⟨v.realm, o⟩ |>.emit
          (.unbound v.kind v.name r))
  | emptiedFull {id : SlotId} {v : Slot} {o : ObjectId}
      (hv : s.slots.get? id = some v) (ho : v.value = some o) (hp : s.profiler.Full) :
      Move l s [.set id none] l ((s.setValue id none).hold ⟨v.realm, o⟩)
  /-- A cell with a slot of its own takes another outer shape. -/
  | reshaped {id : SlotId} {form : Form} (form' : Form) (hl : .own form id ∈ l) :
      Move l s [] (.own form' id :: l.erase (.own form id)) s
  | ended {id : SlotId} {v : Slot} {form : Form} (hl : .own form id ∈ l)
      (hv : s.slots.get? id = some v) (ho : v.value = none) :
      Move l s [.ended id] (l.erase (.own form id))
        ({ s with slots := s.slots.erase id }.did (.ended id))
  | endedBound {id : SlotId} {v : Slot} {form : Form} {o : ObjectId} {p : Profiler}
      (hl : .own form id ∈ l) (hv : s.slots.get? id = some v) (ho : v.value = some o)
      (hp : s.profiler.record v.kind .released = some p) :
      Move l s [.ended id] (l.erase (.own form id))
        ((({ s with profiler := p, slots := s.slots.erase id }.did (.ended id)).hold
          ⟨v.realm, o⟩).emit (.destroyedBound v.kind v.name))
  | endedFull {id : SlotId} {v : Slot} {form : Form} {o : ObjectId}
      (hl : .own form id ∈ l) (hv : s.slots.get? id = some v) (ho : v.value = some o)
      (hp : s.profiler.Full) :
      Move l s [.ended id] (l.erase (.own form id))
        (({ s with slots := s.slots.erase id }.did (.ended id)).hold ⟨v.realm, o⟩)
  -- handles
  | retained {id : SlotId} {sh : Sharing} {v : Slot} (hs : s.sharing.get? id = some sh)
      (hv : s.slots.get? id = some v) :
      Move l s [.retained id] (.handle id .free :: l)
        (({ s with sharing := s.sharing.modify id fun c => { c with handles := c.handles + 1 } }.did
          (.retained id)).emit (.retained v.name (sh.handles + 1)))
  | dropped {id : SlotId} {a : Access} {sh : Sharing} {v : Slot} (aloud : Bool)
      (hl : .handle id a ∈ l) (hs : s.sharing.get? id = some sh)
      (hv : s.slots.get? id = some v) (hn : sh.handles ≠ 1) :
      Move l s [.dropped id] (l.erase (.handle id a))
        ({ s.announce aloud v.name sh.handles with
            sharing := s.sharing.modify id fun c => { c with handles := c.handles - 1 }
          }.did (.dropped id))
  | freed {id : SlotId} {a : Access} {sh : Sharing} {v : Slot} {p : Profiler} (aloud : Bool)
      (hl : .handle id a ∈ l) (hs : s.sharing.get? id = some sh) (hn : sh.handles = 1)
      (hv : s.slots.get? id = some v) (hp : s.profiler.record .shared .cellFreed = some p) :
      Move l s [.dropped id] (.own .plain id :: l.erase (.handle id a))
        (({ s.announce aloud v.name sh.handles with
            profiler := p
            sharing := (s.sharing.modify id fun c => { c with handles := c.handles - 1 }).erase id
          }.did (.dropped id)).emit (.freed v.name v.value.isSome))
  | freedFull {id : SlotId} {a : Access} {sh : Sharing} {v : Slot} (aloud : Bool)
      (hl : .handle id a ∈ l) (hs : s.sharing.get? id = some sh) (hn : sh.handles = 1)
      (hv : s.slots.get? id = some v) (hp : s.profiler.Full) :
      Move l s [.dropped id] (.own .plain id :: l.erase (.handle id a))
        ({ s.announce aloud v.name sh.handles with
            sharing := (s.sharing.modify id fun c => { c with handles := c.handles - 1 }).erase id
          }.did (.dropped id))
  | locked (id : SlotId) (f : Sharing → Sharing)
      (hf : ∀ sh, s.sharing.get? id = some sh → (f sh).handles = sh.handles) :
      Move l s [] l { s with sharing := s.sharing.modify id f }
  -- kept cells and native handles
  | kept (key : String) {c : Cell} {parent : Option KeptId} (hl : c ∈ l)
      (hr : ∀ v, s.slots.get? c.slot = some v → c.Fits v)
      (hd : Descends s s.keptCell? parent c) :
      Move l s [] (l.erase c)
        ({ s with next := s.next + 1 }.inThread (fun t =>
            { t with cells := t.cells.insert key s.next, kept := t.kept.insert s.next { cell := c } })
          |>.note (.opened s.next parent))
  | unkept {k : KeptId} {e : Kept} (hk : s.thread.kept.get? k = some e) (hu : e.users = 0)
      (hn : ∀ key, s.thread.cells.get? key ≠ some k) :
      Move l s [] (e.cell :: l) (s.inThread fun t => { t with kept := t.kept.erase k })
  | parted {key : String} {k : KeptId} {e : Kept} (hc : s.thread.cells.get? key = some k)
      (hk : s.thread.kept.get? k = some e) (hu : e.users = 0) :
      Move l s [] (e.cell :: l)
        (s.inThread fun t => { t with cells := t.cells.erase key, kept := t.kept.erase k })
  | flagged {k : KeptId} (f : Kept → Kept)
      (hf : ∀ e, s.thread.kept.get? k = some e → e.Noted (f e)) :
      Move l s [] l (s.flag k f)
  | given {id : SlotId} {a : Access} {parent : Option HandleId} (hl : .handle id a ∈ l)
      (hr : ∀ v, s.slots.get? id = some v → v.realm = .native)
      (hd : Descends s s.handles.get? parent (.handle id a)) :
      Move l s [] (l.erase (.handle id a))
        ({ s with next := s.next + 1, handles := s.handles.insert s.next (.handle id a) }.note
          (.opened s.next parent))
  | givenBack {h : HandleId} {c : Cell} (key : String) (hh : s.handles.get? h = some c) :
      Move l s [] (c :: l)
        { s with handles := s.handles.erase h, handleKeys := s.handleKeys.erase key }

/-! ## What lasts

A slot keeps its realm, kind and name as long as it exists, and its number is not used again. -/

/-- The later state has no slot that the earlier one had not, young ones apart. -/
structure Lasting (s s' : State) : Prop where
  next : s.next ≤ s'.next
  slots : ∀ id v', id < s.next → s'.slots.get? id = some v' →
    ∃ v, s.slots.get? id = some v ∧ v.realm = v'.realm ∧ v.kind = v'.kind ∧ v.name = v'.name

namespace Lasting

variable {s s' s'' : State}

theorem refl (s : State) : Lasting s s :=
  ⟨le_rfl, fun _ v' _ h => ⟨v', h, rfl, rfl, rfl⟩⟩

theorem trans (h : Lasting s s') (h' : Lasting s' s'') : Lasting s s'' := by
  refine ⟨h.next.trans h'.next, fun id v'' hid hv'' => ?_⟩
  obtain ⟨v', hv', hr', hk', hn'⟩ := h'.slots id v'' (hid.trans_le h.next) hv''
  obtain ⟨v, hv, hr, hk, hn⟩ := h.slots id v' hid hv'
  exact ⟨v, hv, hr.trans hr', hk.trans hk', hn.trans hn'⟩

theorem of_eq (hn : s'.next = s.next) (hs : s'.slots = s.slots) : Lasting s s' :=
  ⟨hn.ge, fun _ v' _ h => ⟨v', hs ▸ h, rfl, rfl, rfl⟩⟩

theorem of_erase {id : SlotId} (hn : s'.next = s.next) (hs : s'.slots = s.slots.erase id) :
    Lasting s s' := by
  refine ⟨hn.ge, fun i v' _ h => ⟨v', ?_, rfl, rfl, rfl⟩⟩
  rw [hs, Table.get?_erase] at h
  split at h
  · cases h
  · exact h

theorem of_setValue {id : SlotId} {value : Option ObjectId} (hn : s'.next = s.next)
    (hs : s'.slots = (s.setValue id value).slots) : Lasting s s' := by
  refine ⟨hn.ge, fun i v' _ h => ?_⟩
  rw [hs] at h
  change (s.slots.modify id _).get? i = some v' at h
  rw [Table.get?_modify] at h
  split at h
  · next hi =>
    obtain ⟨v, hv, rfl⟩ := Option.map_eq_some_iff.1 h
    exact ⟨v, hi ▸ hv, rfl, rfl, rfl⟩
  · exact ⟨v', h, rfl, rfl, rfl⟩

end Lasting

theorem Move.lasting {l l' : List Cell} {s s' : State} {ds : List Deed}
    (m : Move l s ds l' s') : Lasting s s' := by
  cases m with
  | aside h => exact .of_eq h.next h.slots
  | made | madeShared =>
    refine ⟨Nat.le_succ _, fun id v' hid h => ⟨v', ?_, rfl, rfl, rfl⟩⟩
    exact (Table.get?_insert_ne _ _ hid.ne).symm.trans h
  | bound | boundFull => exact .of_setValue rfl rfl
  | emptied | emptiedFull => exact .of_setValue rfl rfl
  | ended | endedBound | endedFull => exact .of_erase rfl rfl
  | kept | given => exact ⟨Nat.le_succ _, fun _ v' _ h => ⟨v', h, rfl, rfl, rfl⟩⟩
  | _ => exact .of_eq rfl rfl

/-- Only the end of a thread changes what other threads there are. -/
theorem Move.waiting {l l' : List Cell} {s s' : State} {ds : List Deed}
    (m : Move l s ds l' s') : s'.waiting = s.waiting ∧ s'.ended = s.ended := by
  cases m with
  | aside h => exact ⟨h.waiting, h.ended⟩
  | _ => exact ⟨rfl, rfl⟩

theorem Move.build {l l' : List Cell} {s s' : State} {ds : List Deed}
    (m : Move l s ds l' s') : s'.build = s.build := by
  cases m with
  | aside h => exact h.build
  | _ => rfl

theorem deeds_idle {es : Journal} (h : ∀ e ∈ es, e.idle = true) : es.deeds = [] := by
  refine List.filterMap_eq_nil_iff.2 fun e he => ?_
  have h1 := h e he
  cases e <;> first | rfl | exact absurd h1 (by simp [Entry.idle])

/-- The journal tells of the deeds. -/
theorem Move.deeds {l l' : List Cell} {s s' : State} {ds : List Deed}
    (m : Move l s ds l' s') : s'.journal.deeds = ds.reverse ++ s.journal.deeds := by
  cases m with
  | aside h =>
    obtain ⟨es, hj, hes⟩ := h.journal
    rw [hj, Journal.deeds, List.filterMap_append]
    exact congrArg (· ++ _) (deeds_idle hes)
  | dropped aloud | freed aloud | freedFull aloud => cases aloud <;> rfl
  | _ => rfl

/-- A sequence of moves. -/
inductive Moves : List Cell → State → List Deed → List Cell → State → Prop
  | refl (l : List Cell) (s : State) : Moves l s [] l s
  | cons {l l' l'' : List Cell} {s s' s'' : State} {ds ds' : List Deed}
      (h : Move l s ds l' s') (hs : Moves l' s' ds' l'' s'') : Moves l s (ds ++ ds') l'' s''

namespace Moves

variable {l l' l'' : List Cell} {s s' s'' : State} {ds ds' : List Deed}

theorem single (h : Move l s ds l' s') : Moves l s ds l' s' := by
  simpa using Moves.cons h (.refl l' s')

theorem trans (h : Moves l s ds l' s') (h' : Moves l' s' ds' l'' s'') :
    Moves l s (ds ++ ds') l'' s'' := by
  induction h with
  | refl => exact h'
  | cons hm _ ih => rw [List.append_assoc]; exact .cons hm (ih h')

theorem deeds (h : Moves l s ds l' s') : s'.journal.deeds = ds.reverse ++ s.journal.deeds := by
  induction h with
  | refl => rfl
  | cons hm _ ih => rw [ih, hm.deeds, List.reverse_append, List.append_assoc]

theorem waiting (h : Moves l s ds l' s') : s'.waiting = s.waiting ∧ s'.ended = s.ended := by
  induction h with
  | refl => exact ⟨rfl, rfl⟩
  | cons hm _ ih => exact ⟨ih.1.trans hm.waiting.1, ih.2.trans hm.waiting.2⟩

theorem build (h : Moves l s ds l' s') : s'.build = s.build := by
  induction h with
  | refl => rfl
  | cons hm _ ih => exact ih.trans hm.build

theorem lasting (h : Moves l s ds l' s') : Lasting s s' := by
  induction h with
  | refl => exact .refl _
  | cons hm _ ih => exact hm.lasting.trans ih

end Moves

end ClaimCells
