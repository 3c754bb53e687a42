import ClaimCells.Proofs.Lateness
import ClaimCells.Proofs.Variables
import ClaimCells.Proofs.Lifetimes

/-!
# Operations that fail early

A variable that has no value to give, an object that could not be produced and a claim that is
refused are found before an operation on cells or claims changes anything. Such a failure leaves
nothing but a count of the attempt, or the word about the refusal, and afterwards an operation does
not fail that way any more.

Main results: `course_spares`, `step_leaves`.
-/

namespace ClaimCells

variable {α β : Type} {s t : State} {f : Failure} {op : Op} {c? : Option Cell}

/-! ## Early failures -/

/-- Verbs that need a value in the variable. -/
def Verb.seeks : Verb → Bool
  | .read | .readOwned _ | .clear | .take _ => true
  | _ => false

/-- The cell that an operation needs a value in, as it is accessed. -/
def Op.sought (s : State) : Op → Option Cell
  | .cell (.use key bound verb) => if verb.seeks then (s.cellOf key).map (·.via bound) else none
  | .native (.read h) | .native (.clear h) | .native (.readOwned h) | .native (.take h) => s.behind h
  | _ => none

/-- Calls that fail as operations on cells do, and leave no message to their thread instead. -/
def NativeOp.Fails : NativeOp → Prop
  | .install .. | .read _ | .clear _ => False
  | _ => True

/-- Operations on objects, claims and cells. -/
def Op.OnCells : Op → Prop
  | .object _ | .cell _ => True
  | .native op => op.Fails
  | _ => False

/-- What an early failure leaves of a state. -/
inductive Failure.Leaves (c? : Option Cell) (s : State) : Failure → State → Prop
  /-- The attempt is counted for the kind of the variable. -/
  | unbound {c : Cell} {v : Slot} {p : Profiler} (hc : c? = some c) (hown : ∀ id, c ≠ .own .temporary id)
      (hv : s.slots.get? c.slot = some v) (hnone : v.value = none)
      (hp : s.profiler.record v.kind .unboundAccess = some p) :
      Leaves c? s (.cell (.unbound c.access v.name)) { s with profiler := p }
  /-- A panic says so of a temporary. -/
  | unassigned {id : SlotId} {v : Slot} {p : Profiler} (hc : c? = some (.own .temporary id))
      (hv : s.slots.get? id = some v) (hnone : v.value = none)
      (hp : s.profiler.record v.kind .unboundAccess = some p) (written : Bool) :
      Leaves c? s (.panic (.invariant .temporaryTake)) { s with
        profiler := p
        journal := .event (.violated .temporaryTake) written :: s.journal }
  | produced (hc : c? = none) (e : Cause) : Leaves c? s (.cell (.objectRuntime e)) s
  /-- A kept claim that was to be copied is kept again. -/
  | refused {m : Misuse} (hm : m.Acquires) (claims : Table String ObjectId)
      (hclaims : ∀ key, claims.get? key = s.thread.claims.get? key) (es : Journal)
      (hes : ∀ e ∈ es, ∃ key o, e = .did (.handed key o)) :
      Leaves c? s (.panic (.misuse m)) { s with
        thread := { s.thread with claims }
        journal := es ++ .refused m :: s.journal }

namespace Act

/-- If the course fails early then at once, and leaves no more than that of the state. -/
def Spares (c? : Option Cell) (s : State) : Act α → Prop
  | done _ t => t.misses = s.misses
  | halt .. => True
  | fail f t => (f.Early → f.Leaves c? s t) ∧ (¬ f.Early → t.misses = s.misses)
  | send _ t next => t.misses = s.misses ∧ ∀ t', Late t' (next t')

variable {x : Act α}

theorem Late.settle (h : x.Late s) {react : Signal → State → Except (Halt × State) State}
    (he : x.settle react = .ended (.error f) t) : ¬ f.Early := by
  induction x generalizing s with
  | done | halt => cases he
  | fail f' t' =>
    cases he
    exact h.1
  | send g u next ih =>
    rw [Act.settle] at he
    split at he
    · next t' _ => exact ih t' (h.2 t') he
    · cases he

/-- A run that fails early has done nothing but that. -/
theorem Spares.settle (h : x.Spares c? s) {react : Signal → State → Except (Halt × State) State}
    (hf : f.Early) (he : x.settle react = .ended (.error f) t) : f.Leaves c? s t := by
  cases x with
  | done | halt => cases he
  | fail f' t' =>
    cases he
    exact h.1 hf
  | send g u next =>
    rw [Act.settle] at he
    split at he
    · next t' _ => exact absurd hf ((h.2 t').settle he)
    · cases he

theorem Late.spares (h : x.Late s) : x.Spares c? s := by
  cases x with
  | done | send => exact h
  | halt => trivial
  | fail => exact ⟨fun he => absurd he h.1, fun _ => h.2⟩

/-- Once the first part is done nothing fails early any more. -/
theorem Spares.bind {k : α → State → Act β} (h : x.Spares c? s) (hk : ∀ a t, (k a t).Late t) :
    (x.bind k).Spares c? s := by
  cases x with
  | done a t => exact ((hk a t).before h).spares
  | fail | halt => exact h
  | send g t next => exact ⟨h.1, fun t' => (h.2 t').bind hk⟩

/-- What is done about a failure, early or not. -/
theorem Spares.tried {k : Except Failure α → State → Act β} (ht : t.misses = s.misses)
    (h : x.Spares c? t)
    (hk : ∀ r t, (∀ f, r = .error f → ¬ f.Early) → (k r t).Late t)
    (hearly : ∀ f u, f.Early → f.Leaves c? t u → (k (.error f) u).Spares c? s) :
    (x.attempt.bind k).Spares c? s := by
  cases x with
  | done a u => exact ((hk (.ok a) u fun _ hf => by cases hf).before (Eq.trans h ht)).spares
  | fail f u =>
    by_cases he : f.Early
    · exact hearly f u he (h.1 he)
    · exact ((hk (.error f) u fun f' hf' => by cases hf'; exact he).before ((h.2 he).trans ht)).spares
  | halt => trivial
  | send g u next => exact ⟨h.1.trans ht, fun t' => (h.2 t').tried hk⟩

end Act

/-- The action fails early at once, if at all, and leaves no more than that of the state. -/
def Action.Spares (c? : Option Cell) (a : Action α) : Prop :=
  ∀ s, (a s).Spares c? s

/-! ## What is left is what was there -/

theorem State.letGo_hold (s : State) (c : Claim) : (s.hold c).letGo c = s := by
  show { s with thread := { s.thread with hands := (c :: s.thread.hands).erase c } } = s
  rw [List.erase_cons_head]

namespace Failure.Leaves

theorem hands (h : f.Leaves c? s t) : t.thread.hands = s.thread.hands := by
  cases h <;> rfl

theorem keys (h : f.Leaves c? s t) : t.thread.cells = s.thread.cells := by
  cases h <;> rfl

/-- What was noted of a kept cell is taken back. -/
theorem flagged {k : KeptId} {e : Kept} {g b : Kept → Kept} (h : f.Leaves c? (s.flag k g) t)
    (hk : s.thread.kept.get? k = some e) (hg : b (g e) = e) : f.Leaves c? s (t.flag k b) := by
  have hback : (s.thread.kept.modify k g).modify k b = s.thread.kept := by
    rw [Table.modify_modify, Table.modify_congr hk (g := id) hg, Table.modify_id]
  cases h with
  | @unbound c v p hc hown hv hnone hp =>
    show Leaves c? s _ { s with
      thread := { s.thread with kept := (s.thread.kept.modify k g).modify k b }
      profiler := p }
    rw [hback]
    exact @unbound c? s _ _ _ hc hown hv hnone hp
  | @unassigned i v p hc hv hnone hp written =>
    show Leaves c? s _ { s with
      thread := { s.thread with kept := (s.thread.kept.modify k g).modify k b }
      profiler := p
      journal := .event (.violated .temporaryTake) written :: s.journal }
    rw [hback]
    exact @unassigned c? s _ _ _ hc hv hnone hp written
  | produced hc e =>
    rw [State.flag_back hk hg]
    exact .produced hc e
  | @refused m hm claims hclaims es hes =>
    show Leaves c? s _ { s with
      thread := { s.thread with claims, kept := (s.thread.kept.modify k g).modify k b }
      journal := es ++ .refused m :: s.journal }
    rw [hback]
    exact @refused c? s m hm claims hclaims es hes

/-- A call from native code comes back. -/
theorem returned (h : f.Leaves c? s.calling t) : f.Leaves c? s t.returned := by
  cases h with
  | unbound hc hown hv hnone hp => exact @unbound c? s _ _ _ hc hown hv hnone hp
  | unassigned hc hv hnone hp written => exact @unassigned c? s _ _ _ hc hv hnone hp written
  | produced hc e => exact .produced hc e
  | @refused m hm claims hclaims es hes => exact @refused c? s m hm claims hclaims es hes

/-- The lock is given back. -/
theorem given {id : SlotId} {sh : Sharing} {g b : Sharing → Sharing}
    (h : f.Leaves c? { s with sharing := s.sharing.modify id g } t)
    (hsh : s.sharing.get? id = some sh) (hg : b (g sh) = sh) :
    f.Leaves c? s { t with sharing := t.sharing.modify id b } := by
  have hback : (s.sharing.modify id g).modify id b = s.sharing := by
    rw [Table.modify_modify, Table.modify_congr hsh (g := fun sh => sh) hg]
    exact Table.modify_id _ _
  cases h with
  | @unbound c v p hc hown hv hnone hp =>
    show Leaves c? s _ { s with profiler := p, sharing := (s.sharing.modify id g).modify id b }
    rw [hback]
    exact @unbound c? s _ _ _ hc hown hv hnone hp
  | @unassigned i v p hc hv hnone hp written =>
    show Leaves c? s _ { s with
      profiler := p
      sharing := (s.sharing.modify id g).modify id b
      journal := .event (.violated .temporaryTake) written :: s.journal }
    rw [hback]
    exact @unassigned c? s _ _ _ hc hv hnone hp written
  | produced hc e =>
    show Leaves c? s _ { s with sharing := (s.sharing.modify id g).modify id b }
    rw [hback]
    exact .produced hc e
  | @refused m hm claims hclaims es hes =>
    show Leaves c? s _ { s with
      thread := { s.thread with claims }
      sharing := (s.sharing.modify id g).modify id b
      journal := es ++ .refused m :: s.journal }
    rw [hback]
    exact @refused c? s m hm claims hclaims es hes

end Failure.Leaves

namespace Action.Spares

/-! ## Spared states -/

theorem late {a : Action α} (ha : Late a) : Spares c? a :=
  fun s => (ha s).spares

theorem bind {a : Action α} {k : α → Action β} (ha : Spares c? a) (hk : ∀ x, Late (k x)) :
    Spares c? (a >>= k) :=
  fun s => (ha s).bind fun x t => hk x t

end Action.Spares

namespace Act.Spares

open Action

theorem early (he : f.Early) (h : f.Leaves c? s t) : (.fail f t : Act α).Spares c? s :=
  ⟨fun _ => h, fun hf => absurd he hf⟩

theorem refusal (he : ¬ f.Early) : (.fail f s : Act α).Spares c? s :=
  ⟨fun h => absurd h he, fun _ => rfl⟩

/-- What comes before changes nothing. -/
theorem still {a : Action α} {k : α → Action β} (ha : Action.Late a) (hs : (a s).Still s)
    (hk : ∀ x, a s = .done x s → (k x s).Spares c? s) : ((a >>= k) s).Spares c? s := by
  have hlate := ha s
  show ((a s).bind k).Spares c? s
  cases hx : a s with
  | done x t =>
    rw [hx] at hs
    obtain rfl : t = s := hs
    exact hk x hx
  | fail f t =>
    rw [hx] at hlate
    exact hlate.spares
  | halt => trivial
  | send =>
    rw [hx] at hs
    exact hs.elim

/-- Nothing is in the hands that would have to be given up. -/
theorem unwinding {a : Action α} (h : (a s).Spares c? s) :
    (Action.unwinding a s).Spares c? s := by
  cases hx : a s with
  | done x t =>
    rw [hx] at h
    rw [unwinding_done hx]
    exact h
  | fail f t =>
    rw [hx] at h
    by_cases he : f.Early
    · rw [unwinding_fail hx (h.1 he).hands]
      exact h
    · refine Act.Late.spares ?_
      simp only [Action.unwinding, bind_apply, thread_apply, done_bind, attempt_apply, hx, fail_attempt]
      exact ((Action.Late.bind (.forM (fun _ => .cleanUp (.release _)) _) fun _ => .fail he) t).before
        (h.2 he)
  | halt =>
    rw [unwinding_halt hx]
    trivial
  | send g t next =>
    rw [hx] at h
    simp only [Action.unwinding, bind_apply, thread_apply, done_bind, attempt_apply, hx]
    refine ⟨h.1, fun t' => (h.2 t').tried fun r u hr => ?_⟩
    cases r with
    | ok => exact rfl
    | error f =>
      exact (Action.Late.bind (.forM (fun _ => .cleanUp (.release _)) _) fun _ => .fail (hr f rfl)) u

end Act.Spares

namespace Action.Spares

/-- While something is noted of a kept cell. -/
theorem flagging {a : Action α} {k : KeptId} {e : Kept} {g b : Kept → Kept} (ha : Spares c? a)
    (hk : s.thread.kept.get? k = some e) (hg : b (g e) = e) : ((do
      setKept k g
      let result ← attempt (unwinding a)
      setKept k b
      ofExcept result : Action α) s).Spares c? s := by
  refine Act.Spares.tried (t := s.flag k g) rfl (Act.Spares.unwinding (ha _)) (fun r t hr => ?_)
    fun f t he hf => ?_
  · exact (Late.bind (.setKept _ _) fun _ => .ofExcept hr) t
  · exact .early he (hf.flagged hk hg)

theorem kept_still (k : KeptId) (s : State) : (kept k s).Still s := by
  show (demand _ (s.thread.kept.get? k) s).Still s
  cases s.thread.kept.get? k <;> rfl

theorem of_kept {k : KeptId} {e : Kept} (h : kept k s = .done e s) : s.thread.kept.get? k = some e := by
  change demand Failure.noSuchCell (s.thread.kept.get? k) s = .done e s at h
  cases hk : s.thread.kept.get? k with
  | none => rw [hk] at h; cases h
  | some e' => rw [hk] at h; cases h; rfl

theorem looking {a : Action α} (ha : Spares c? a) (k : KeptId) : Spares c? (looking k a) := by
  refine fun s => .still (.kept k) (kept_still k s) fun e he => ?_
  have hflag := flagging (g := fun e => { e with readers := e.readers + 1 })
    (b := fun e => { e with readers := e.readers - 1 }) ha (of_kept he) rfl
  show ((ite _ _ _ : Action α) s).Spares c? s
  split
  · exact .refusal fun h => h
  · exact hflag

theorem changing {a : Action α} (ha : Spares c? a) (k : KeptId) : Spares c? (changing k a) := by
  refine fun s => .still (.kept k) (kept_still k s) fun e he => ?_
  obtain ⟨c, users, readers, exclusive⟩ := e
  cases c with
  | handle => exact looking ha k s
  | own form i =>
    show ((ite _ _ _ : Action α) s).Spares c? s
    split
    · exact .refusal fun h => h
    · next hfree =>
      refine flagging (g := fun e => { e with exclusive := true }) (b := fun e => { e with exclusive := false })
        ha (of_kept he) ?_
      obtain rfl : exclusive = false := by
        cases exclusive with
        | false => rfl
        | true => exact absurd rfl hfree
      rfl

/-- Keeps the cell with a key alive, and finds the key again. -/
theorem withCell {key : String} {b : KeptId → Cell → Action α}
    (hb : ∀ k c, s.cellOf key = some c → Spares c? (b k c)) : (withCell key b s).Spares c? s := by
  refine .still (.keptId key) ?_ fun k hk => .still (.kept k) (kept_still k s) fun e he => ?_
  · show (demand _ (s.thread.cells.get? key) s).Still s
    cases s.thread.cells.get? key <;> rfl
  have hkept := of_kept he
  have hcells : s.thread.cells.get? key = some k := by
    cases hc : s.thread.cells.get? key with
    | none => rw [keptId_none hc] at hk; cases hk
    | some k' => rw [keptId_some hc] at hk; cases hk; rfl
  have hcell : s.cellOf key = some e.cell := by
    rw [State.cellOf, hcells, Option.bind_some, hkept]
    rfl
  refine Act.Spares.tried (t := s.flag k Kept.entered) rfl (Act.Spares.unwinding (hb k e.cell hcell _))
    (fun r t hr => Late.conclude (.leave k) hr t) fun f t he hf => ?_
  have hleave := leave_keyed (show t.thread.cells.get? key = some k by rw [hf.keys]; exact hcells)
  have hback := hf.flagged (b := fun e => { e with users := e.users - 1 }) hkept rfl
  cases f with
  | panic p =>
    simp only [conclude, cleanUp, bind_apply, attempt_apply, hleave, done_attempt, done_bind, pure_apply]
    exact .early he hback
  | _ =>
    simp only [conclude, bind_apply, hleave, done_bind]
    exact .early he hback

/-! ## Values and claims -/

/-- The attempt is counted, and an error says so. -/
theorem unboundAccess {c : Cell} {v : Slot} (hown : ∀ id, c ≠ .own .temporary id)
    (hv : s.slots.get? c.slot = some v) (hnone : v.value = none) :
    ((record v.kind .unboundAccess >>= fun _ => unboundError c : Action α) s).Spares (some c) s := by
  rw [bind_apply]
  cases hp : s.profiler.record v.kind .unboundAccess with
  | none =>
    rw [record_none hp, raise_bind]
    exact ((Late.raise fun h => h : Late (raise .overflow : Action α)) s).spares
  | some p =>
    rw [record_some hp, done_bind]
    have hslot : slot c.slot { s with profiler := p } = .done v { s with profiler := p } := slot_some hv
    have herror : (unboundError c { s with profiler := p } : Act α) =
        .fail (.cell (.unbound c.access v.name)) { s with profiler := p } := by
      rw [unboundError, bind_apply, hslot]
      rfl
    rw [herror]
    exact .early trivial (.unbound rfl hown hv hnone hp)

/-- What is done with the value of a variable. -/
theorem withValue {c : Cell} {v : Slot} {k : ObjectId → Action α} (hv : s.slots.get? c.slot = some v)
    (hk : ∀ o, Spares (some c) (k o)) : ((valueIn c v >>= k) s).Spares (some c) s := by
  cases ho : v.value with
  | some o =>
    have hvalue : valueIn c v = pure o := by
      simp only [valueIn, ho]
    rw [hvalue, pure_bind]
    exact hk o s
  | none =>
    have hcount : (record v.kind .unboundAccess >>= fun _ => unboundError c) >>= k =
        (record v.kind .unboundAccess >>= fun _ => (unboundError c : Action α)) := by
      rw [bind_assoc]
      refine congrArg _ (funext fun _ => ?_)
      rw [unboundError, bind_assoc]
      rfl
    have hvalue : valueIn c v = violate .temporaryRead ∨ (∀ id, c ≠ .own .temporary id) ∧
        valueIn c v = record v.kind .unboundAccess >>= fun _ => unboundError c := by
      simp only [valueIn, ho]
      cases c with
      | handle => exact .inr ⟨fun _ h => (by cases h), rfl⟩
      | own form i =>
        cases form with
        | temporary => exact .inl rfl
        | plain | parameter => exact .inr ⟨fun _ h => (by cases h), rfl⟩
    obtain h | ⟨hown, h⟩ := hvalue
    · rw [h, bind_apply, violate_bind]
      exact ((Late.violate (fun h => by cases h) : Late (violate .temporaryRead : Action α)) s).spares
    · rw [h, hcount]
      exact unboundAccess hown hv ho

/-- A claim is refused, or there is nothing to refuse any more. -/
theorem gain (c : Claim) : Spares c? (gain c) := by
  obtain ⟨realm, o⟩ := c
  intro s
  cases realm with
  | counted =>
    show ((settleLedger (s.thread.ledger.acquire o) s).bind _).Spares c? s
    cases hl : s.thread.ledger.acquire o with
    | ok l => exact rfl
    | error m =>
      rw [settleLedger_error, raise_bind]
      obtain h | ⟨h', h⟩ := raise_eq Unit (.misuse m) (s.note (.refused m))
      · rw [h]
        exact ⟨fun hm => .refused hm s.thread.claims (fun _ => rfl) [] (List.forall_mem_nil _), fun _ => rfl⟩
      · rw [h]
        trivial
  | native => exact late (Late.bind .functions fun _ => .bind (.hold _) fun _ => .note _) s

theorem acquire (c : Claim) : Spares c? (acquire c) :=
  bind (gain c) fun _ => .send _

theorem of_slot {id : SlotId} {v : Slot} (h : slot id s = .done v t) : s.slots.get? id = some v := by
  change demand Failure.noSuchCell (s.slots.get? id) s = .done v t at h
  cases hv : s.slots.get? id with
  | none => rw [hv] at h; cases h
  | some v' => rw [hv] at h; cases h; rfl

theorem acquireValue (c : Cell) : Spares (some c) (acquireValue c) :=
  fun s => .still (.slot _) (slot_still _ s) fun _ hv =>
    withValue (of_slot hv) fun _ => bind (acquire _) fun _ => .pure _

theorem read (c : Cell) : Spares (some c) (read c) := by
  intro s
  have hvalue : ∀ v, slot c.slot s = .done v s → (valueIn c v s).Spares (some c) s := fun v hv => by
    have h := withValue (k := pure) (of_slot hv) fun o => late (.pure o)
    rwa [bind_pure] at h
  cases c with
  | own => exact .still (.slot _) (slot_still _ s) hvalue
  | handle id a =>
    rw [Action.read, look, bind_assoc]
    exact .still (.lockForReading id) (lockForReading_still id s) fun _ _ =>
      .still (.slot id) (slot_still id s) hvalue

theorem reading {a : Action α} (ha : Spares c? a) (id : SlotId) : Spares c? (reading id a) := by
  refine fun s => .still (.lockForReading id) (lockForReading_still id s) fun _ hlock => ?_
  obtain ⟨sh, hsh⟩ : ∃ sh, s.sharing.get? id = some sh := by
    cases hsh : s.sharing.get? id with
    | some sh => exact ⟨sh, rfl⟩
    | none =>
      rw [lockForReading, bind_apply, sharing_none hsh] at hlock
      cases hlock
  refine Act.Spares.tried
    (t := { s with sharing := s.sharing.modify id fun c => { c with readers := c.readers + 1 } }) rfl (ha _)
    (fun r t hr => (Late.bind (.setSharing _ _) fun _ => .ofExcept hr) t) fun f t he hf => ?_
  exact .early he (hf.given (b := fun c => { c with readers := c.readers - 1 }) hsh rfl)

theorem readOwned : ∀ c : Cell, Spares (some c) (readOwned c)
  | .own .. => acquireValue _
  | .handle id a => reading (acquireValue (.handle id a)) id

theorem assignBorrowed (c : Cell) (o : ObjectId) : Spares c? (assignBorrowed c o) :=
  fun s => .still (.slot _) (slot_still _ s) fun _ _ =>
    (bind (acquire _) fun _ => .assign c o : Spares c? _) s

/-- The attempt is counted, and a panic says that a temporary was not assigned. -/
theorem unassigned {id : SlotId} {v : Slot} (hv : s.slots.get? id = some v) (hnone : v.value = none) :
    ((record v.kind .unboundAccess >>= fun _ => violate .temporaryTake : Action α) s).Spares
      (some (.own .temporary id)) s := by
  rw [bind_apply]
  cases hp : s.profiler.record v.kind .unboundAccess with
  | none =>
    rw [record_none hp, raise_bind]
    exact ((Late.raise fun h => h : Late (raise .overflow : Action α)) s).spares
  | some p =>
    rw [record_some hp, done_bind, violate, bind_apply, emit_apply, done_bind]
    generalize hu : State.emit { s with profiler := p } _ = u
    obtain h | ⟨h', h⟩ := raise_eq α (.invariant .temporaryTake) u
    · rw [h, ← hu]
      exact .early rfl (.unassigned rfl hv hnone hp _)
    · rw [h]
      trivial

/-- A claim is taken out of a variable, or there is none. -/
theorem unbinding {c : Cell} {reason : UnbindReason} {k : Option Claim → Action α}
    (hsome : ∀ x, Late (k (some x)))
    (hnone : ∀ v, s.slots.get? c.slot = some v → v.value = none →
      ((record v.kind .unboundAccess >>= fun _ => k none) s).Spares (some c) s) :
    ((unbind c.slot reason >>= k) s).Spares (some c) s := by
  simp only [unbind, bind_assoc]
  refine .still (.slot _) (slot_still _ s) fun v hv => ?_
  cases ho : v.value with
  | none =>
    simp only [bind_assoc, pure_bind]
    exact hnone v (of_slot hv) ho
  | some o =>
    simp only [bind_assoc, pure_bind]
    refine late (Late.bind (.setValue _ _) fun _ => .bind (.hold _) fun _ => .bind (.record ?_) fun _ =>
      .bind (.emit _) fun _ => hsome _) s
    cases reason <;> exact nofun

theorem clear (c : Cell) : Spares (some c) (clear c) := by
  have hlast {c : Cell} {k : Option Claim → Action Bool} (hown : ∀ id, c ≠ .own .temporary id)
      (hsome : ∀ x, Late (k (some x))) (hnone : k none = unboundError c) :
      Spares (some c) (lockToChange c >>= fun _ => unbind c.slot .release >>= k) := fun s =>
    .still (.lockToChange c) (lockToChange_still c s) fun _ _ =>
      unbinding hsome fun v hv hempty => hnone ▸ unboundAccess hown hv hempty
  have hgiven (x : Claim) : Late (release x >>= fun _ => pure true) := .bind (.release x) fun _ => .pure _
  cases c with
  | handle id a => exact hlast (fun _ h => by cases h) hgiven rfl
  | own form id =>
    cases form with
    | temporary =>
      -- Nothing is unbound unless there is a value.
      refine fun s => .still (.slot _) (slot_still _ s) fun v hv => ?_
      cases ho : v.value with
      | none => exact late (.pure _) s
      | some o =>
        refine unbinding (c := .own .temporary id) (fun _ => .bind (.releaseAny _) fun _ => .pure _)
          fun v' hv' hnone => ?_
        obtain rfl : v = v' := Option.some.inj ((of_slot hv).symm.trans hv')
        rw [hnone] at ho
        cases ho
    | plain => exact hlast (fun _ h => by cases h) hgiven rfl
    | parameter => exact hlast (fun _ h => by cases h) hgiven rfl

theorem take (c : Cell) : Spares (some c) (take c) := by
  refine fun s => .still (.lockToChange c) (lockToChange_still c s) fun _ _ =>
    unbinding (fun _ => .pure _) fun v hv hnone => ?_
  cases c with
  | handle => exact unboundAccess (fun _ h => by cases h) hv hnone
  | own form i =>
    cases form with
    | temporary => exact unassigned hv hnone
    | plain | parameter => exact unboundAccess (fun _ h => by cases h) hv hnone

/-! ## Operations -/

theorem requireKnown_still (o : ObjectId) (s : State) : (requireKnown o s).Still s := by
  by_cases hk : o ∈ s.thread.known
  · rw [requireKnown_some hk]
    rfl
  · rw [requireKnown_none hk]
    rfl

/-- An object that must be known. -/
theorem known {o : ObjectId} {k : Unit → Action α} (hk : ∀ x, Spares c? (k x)) :
    Spares c? (requireKnown o >>= k) :=
  fun s => .still (.requireKnown o) (requireKnown_still o s) fun x _ => hk x s

theorem usePart (bound : Bool) (verb : Verb) (id : KeptId) (whole : Cell) :
    Spares (if verb.seeks then some (whole.via bound) else none) (usePart bound verb id whole) := by
  cases verb with
  | name => exact late (.bind (.looking (.slot _) id) fun _ => .pure _)
  | state | isBound => exact late (.bind (.looking (.look _) id) fun _ => .pure _)
  | read =>
    exact bind (looking (read _) id) fun _ => .pure _
  | readOwned new =>
    exact looking (bind (readOwned _) fun _ => .bind (.keepClaim _ _) fun _ => .pure _) id
  | assign claim =>
    exact late (.changing (.bind (.takeClaim _) fun _ => .bind (.assign _ _) fun _ => .pure _) id)
  | assignBorrowed o =>
    exact changing (known fun _ => bind (assignBorrowed _ o) fun _ => .pure _) id
  | clear =>
    exact bind (changing (clear _) id) fun _ => .pure _
  | take new =>
    exact changing (bind (take _) fun _ => .bind (.keepClaim _ _) fun _ => .pure _) id
  | debug => exact late (.bind (.looking (.debugText _ _) id) fun _ => .pure _)
  | refcount => exact late (.bind (.sharedSlot _) fun _ => .bind (.sharing _) fun _ => .pure _)
  | sameAs other =>
    exact late (.bind (.sharedSlot _) fun _ => .bind (.cell _) fun _ => .bind (.sharedSlot _) fun _ =>
      .pure _)
  | retain new =>
    exact late (.bind (.sharedSlot _) fun _ => .bind (.retain _) fun _ => .bind (.keepCell _ _ _)
      fun _ => .pure _)

theorem keepNew (c : Claim) (key : String) : Spares c? (keepNew c key) :=
  bind (acquire c) fun _ => .bind (.keepClaim _ _) fun _ => .pure _

/-- A claim that is copied is kept again, whether there is a copy or not. -/
theorem duplicate (key new : String) : Spares c? (performObject (.duplicate key new)) := by
  intro s
  cases hc : s.thread.claims.get? key with
  | none =>
    rw [performObject, bind_apply, takeClaim_none hc]
    exact .refusal fun h => h
  | some o =>
    let w := s.inThread fun t => { t with claims := t.claims.erase key }
    let u := w.hold ⟨.counted, o⟩
    have hrun : performObject (.duplicate key new) s = ((Action.acquire ⟨.counted, o⟩ u).attempt.bind fun r =>
        (Action.keepClaim key o >>= fun _ => ofExcept r >>= fun _ => Action.keepClaim new o >>= fun _ =>
          (pure (.object o) : Action Answer))) := by
      rw [performObject, bind_apply, takeClaim_some hc]
      rfl
    have hlate : ∀ r : Except Failure Unit, (∀ f, r = .error f → ¬ f.Early) → Late (Action.keepClaim key o >>= fun _ =>
        ofExcept r >>= fun _ => Action.keepClaim new o >>= fun _ => (pure (.object o) : Action Answer)) :=
      fun r hr => .bind (.keepClaim _ _) fun _ => .bind (.ofExcept hr) fun _ =>
        .bind (.keepClaim _ _) fun _ => .pure _
    rw [hrun]
    cases hl : u.thread.ledger.acquire o with
    | ok l =>
      have hacquire : Action.acquire ⟨.counted, o⟩ u =
          .send ⟨.counted, .acquired, o⟩ (((u.setLedger l).hold ⟨.counted, o⟩).note (.acquired o))
            (.done ()) := by
        show ((settleLedger (u.thread.ledger.acquire o) u).bind _).bind _ = _
        rw [hl]
        rfl
      rw [hacquire]
      exact ⟨rfl, fun t => hlate (.ok ()) (fun _ h => by cases h) t⟩
    | error m =>
      have hacquire : Action.acquire ⟨.counted, o⟩ u = raise (.misuse m) (u.note (.refused m)) := by
        show ((settleLedger (u.thread.ledger.acquire o) u).bind _).bind _ = _
        rw [hl, settleLedger_error, raise_bind, raise_bind]
      rw [hacquire]
      obtain h | ⟨h', h⟩ := raise_eq Unit (.misuse m) (u.note (.refused m))
      · have hkeep : Action.keepClaim key o (u.note (.refused m)) = .done () { s with
            thread := { s.thread with claims := (s.thread.claims.erase key).insert key o }
            journal := .did (.handed key o) :: .refused m :: s.journal } := by
          have hold : (u.note (.refused m)).thread.claims.get? key = none := Table.get?_erase_self _ _
          have hgone : (u.note (.refused m)).letGo ⟨.counted, o⟩ = w.note (.refused m) :=
            State.letGo_hold (w.note (.refused m)) _
          simp only [Action.keepClaim, bind_apply, thread_apply, done_bind, hold, letGo_apply, hgone,
            inThread_apply, did_apply, pure_apply]
          rfl
        rw [h, fail_attempt, done_bind, bind_apply, hkeep, done_bind]
        refine ⟨fun hm => .refused hm _ (fun key' => ?_) [.did (.handed key o)] ?_, fun _ => rfl⟩
        · rw [Table.get?_insert, Table.get?_erase]
          split
          · next hkey => rw [hkey, hc]
          · rfl
        · exact fun e he => ⟨key, o, List.mem_singleton.1 he⟩
      · rw [h]
        trivial

theorem performObject (op : ObjectOp) : Spares c? (performObject op) := by
  cases op with
  | allocate key =>
    refine late (.bind .allocate fun c => ?_)
    cases key with
    | none => exact .bind (.disown c) fun _ => .pure _
    | some key => exact .bind (.keepClaim _ _) fun _ => .pure _
  | tryAllocate fault key =>
    refine late (.bind ?_ fun _ => .bind (.keepClaim _ _) fun _ => .pure _)
    cases fault with
    | none => exact .allocate
    | some c => exact .fail fun h => h
  | «foreign» => exact late (.bind (.makeKnown _) fun _ => .pure _)
  | acquire o =>
    exact known fun _ => bind (bind (gain _) fun _ => .bind (.disown _) fun _ => .send _) fun _ => .pure _
  | release => exact late (.bind (.requireKnown _) fun _ => .bind (.adopt _) fun _ =>
      .bind (.release _) fun _ => .pure _)
  | inspect => exact late (.bind (.requireKnown _) fun _ => .thread fun _ => .pure _)
  | claim o new key =>
    cases new with
    | true => exact known fun _ => keepNew _ _
    | false => exact late (.bind (.requireKnown _) fun _ => .bind (.adopt _) fun _ =>
        .bind (.keepClaim _ _) fun _ => .pure _)
  | dropClaim => exact late (.bind (.takeClaim _) fun _ => .bind (.release _) fun _ => .pure _)
  | intoOwned => exact late (.bind (.takeClaim _) fun _ => .bind (.disown _) fun _ => .pure _)
  | duplicate key new => exact duplicate key new
  | borrow | claimDebug => exact late (.bind (.claimed _) fun _ => .pure _)
  | borrowEq => exact late (.bind (.claimed _) fun _ => .bind (.claimed _) fun _ => .pure _)

/-- A new cell is kept, unless there is no value for it. -/
theorem make (how : Making) : Spares none (make how) := by
  have hborrowed (name : String) (o : ObjectId) : Spares none (adoptBorrowed name o) :=
    bind (acquire _) fun _ => .makeOwn _ _ _
  have hproduce (fault : Option Cause) : Spares none (produceInitial fault) := by
    cases fault with
    | none => exact late (.bind .allocate fun _ => .pure _)
    | some c => exact fun s => .early trivial (.produced rfl c)
  cases how with
  | plain | parameter => exact late (.bind (.takeInitial _) fun _ => .makeOwn _ _ _)
  | plainTry => exact bind (hproduce _) fun _ => .makeOwn _ _ _
  | parameterBorrowed name o => exact known fun _ => hborrowed name o
  | parameterAdopt name o mode =>
    show Spares none (decoded OwnershipMode.decoder (.value mode) >>= fun m => Action.requireKnown o >>=
      fun _ => adoptArgument name o m)
    unfold decoded
    split
    · next m _ =>
      refine known fun _ => ?_
      cases m with
      | owned => exact late (.bind (.adopt _) fun _ => .makeOwn _ _ _)
      | borrowed => exact hborrowed name o
    · exact late (Late.fail fun h => h)
  | temporary => exact late (.makeOwn _ _ _)
  | shared => exact late (.bind (.takeInitial _) fun _ => .makeShared _ _ _)
  | sharedTry => exact bind (hproduce _) fun _ => .makeShared _ _ _

theorem performCell (op : CellOp) (s : State) :
    (performCell op s).Spares ((Op.cell op).sought s) s := by
  cases op with
  | make key how =>
    exact (bind (make how) fun c => .bind (.keepCell key c none) fun _ => .pure _ : Spares none _) s
  | use key bound verb =>
    have hpart (k : KeptId) (c : Cell) (hc : s.cellOf key = some c) :
        Spares ((Op.cell (.use key bound verb)).sought s) (Action.usePart bound verb k c) := by
      rw [Op.sought, hc]
      exact usePart bound verb k c
    exact withCell hpart
  | drop key =>
    exact (late (.bind (.takeCell key) fun _ => .bind (.destroy _) fun _ => .pure _) : Spares none _) s
  | release key =>
    exact (late (.bind (.cell key) fun _ => .bind (.sharedSlot _) fun _ => .bind (.takeCell key) fun _ =>
      .bind (.releaseHandle _) fun _ => .pure _) : Spares none _) s
  | intoInner key new =>
    exact (late (.bind (.cell key) fun _ => .bind (.innerCell _) fun _ => .bind (.takeCell key) fun _ =>
      .bind (.keepCell _ _ _) fun _ => .pure _) : Spares none _) s

/-! ## Native code -/

/-- What a call does comes back to the caller. -/
theorem nativeCall {a : Action α} (h : (a s.calling).Spares c? s.calling) :
    (nativeCall a s).Spares c? s := by
  rw [nativeCall_apply]
  refine Act.Spares.tried (t := s.calling) rfl h (fun r t hr => ?_) fun f t he hf => ?_
  · exact Act.Late.before (t := t.returned) rfl (Late.ofExcept hr _)
  · exact .early he hf.returned

/-- The cell behind a live handle. -/
theorem someHandle {h : Option String} {k : Cell → Action α}
    (hk : ∀ c, s.behind h = some c → (k c s).Spares c? s) : ((someHandle h >>= k) s).Spares c? s := by
  cases h with
  | none => exact .refusal fun h => h
  | some key =>
    show ((handle key >>= k) s).Spares c? s
    rw [bind_apply]
    rcases handle_cases key s with ⟨i, c, hi, he⟩ | he
    · rw [he, done_bind]
      refine hk c ?_
      rw [State.behind, Option.bind_some, hi.1, Option.bind_some, hi.2]
    · rw [he, fail_bind]
      exact .refusal fun h => h

theorem handOver {a : Action Claim} (h : Spares c? a) : Spares c? (handOver a) :=
  bind h fun _ => .bind (.disown _) fun _ => .pure _

theorem performNative (op : NativeOp) (hop : op.Fails) (s : State) :
    (performNative op s).Spares ((Op.native op).sought s) s := by
  refine nativeCall ?_
  cases op with
  | install | read | clear => exact hop.elim
  | readOwned h =>
    refine someHandle fun c hc => ?_
    rw [show (Op.native (.readOwned h)).sought s = some c from hc]
    exact handOver (readOwned c) _
  | take h =>
    refine someHandle fun c hc => ?_
    rw [show (Op.native (.take h)).sought s = some c from hc]
    exact handOver (take c) _
  | assignBorrowed h o =>
    exact someHandle fun c _ => (bind (assignBorrowed c o) fun _ => .pure _ : Spares none _) _
  | create => exact late (.bind (.createHandle _ _ _) fun _ => .pure _) _
  | retain h =>
    have hparent : Late (h.mapM handleId) := by
      cases h with
      | none => exact .pure _
      | some key => exact .bind (.handleId key) fun _ => .pure _
    exact late (.bind (.handleOrNull _) fun _ => .bind (.retain _) fun _ => .bind hparent fun _ =>
      .bind (.giveHandle _ _ _) fun _ => .pure _) _
  | release h =>
    cases h with
    | some => exact late (.bind (.takeHandle _) fun _ => .bind (.releaseHandle _) fun _ => .pure _) _
    | none => exact late (.violate fun h => by cases h) _
  | assign h o =>
    rw [callNative_assign]
    refine late (.bind ?_ fun _ => .ite (.violate fun h => by cases h) (.bind (.handleOrNull _) fun _ =>
      .bind (.adopt _) fun _ => .bind (.assign _ _) fun _ => .pure _)) _
    cases h with
    | none => exact .pure ()
    | some key => exact .bind (.handle key) fun _ => .pure ()
  | isBound => exact late (.bind (.handleOrNull _) fun _ => .bind (.look _) fun _ => .pure _) _
  | lastError => exact late (.thread fun t => by cases t.lastError <;> exact .pure _) _
  | clearError =>
    exact (late (.bind (.modify _ fun _ => rfl) fun _ => .pure Answer.nothing) : Spares none _) _
  | acquire =>
    exact late (.bind (.bind (.gainNative _) fun _ => .bind (.disown _) fun _ => .send _) fun _ => .pure _) _
  | drop => exact late (.bind (.adopt _) fun _ => .bind (.release _) fun _ => .pure _) _
  | name => exact late (.bind (.handleSlot _) fun _ => .bind (.slot _) fun _ => .pure _) _
  | refcount => exact late (.bind (.handleSlot _) fun _ => .bind (.sharing _) fun _ => .pure _) _
  | sameAs => exact late (.bind (.handleSlot _) fun _ => .bind (.handleSlot _) fun _ => .pure _) _
  | debug => exact late (.bind (.someHandle _) fun _ => .bind (.debugText _ _) fun _ => .pure _) _

end Action.Spares

/-- **An operation on cells that fails early leaves no trace** but a count, or the word that a claim
was refused. -/
theorem course_spares (hop : op.OnCells) (s : State) : (op.course s).Spares (op.sought s) s := by
  refine Act.Spares.unwinding ?_
  cases op with
  | object op => exact Action.Spares.performObject op s
  | cell op => exact Action.Spares.performCell op s
  | native op => exact Action.Spares.performNative op hop s
  | _ => exact hop.elim

theorem step_leaves {n : Nat} {s' : State} (hop : op.OnCells) (hf : f.Early)
    (he : step n op s = .ended (.error f) s') : f.Leaves (op.sought s) s s' := by
  have hthread : ∀ body, op ≠ .thread body := by
    rintro body rfl
    exact hop
  cases n with
  | zero => cases he
  | succ n =>
    rw [step_perform hthread] at he
    exact (course_spares hop s).settle hf he

end ClaimCells
