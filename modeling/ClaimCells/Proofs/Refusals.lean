import ClaimCells.Proofs.Locks
import ClaimCells.Proofs.Undisturbed

/-!
# Locks that are refused

An operation that wants to change a shared cell asks for its lock before it does anything else, but
that it takes up, or acquires, the claim that is to be assigned. So when the lock is held it breaks
off with nothing changed, and gives up the claim that it has in hand.

Main results: `using_relocks`, `borrowing_relocks` and `calling_relocks`, for a lock that a read in
progress holds.
-/

namespace ClaimCells

open Act (Outcome)

variable {α β γ : Type} {s s' s₁ s₂ t u : State} {L : List SlotId} {id : SlotId} {a : Access}
  {c? : Option Claim} {key : String} {k : KeptId} {e : Kept} {o : ObjectId}

/-! ## Handles are used together -/

/-- Only cells with a slot of their own are ever had by an operation for itself. -/
def State.Open (s : State) : Prop :=
  ∀ t ∈ s.thread :: s.waiting, ∀ k e, t.kept.get? k = some e → e.exclusive = true →
    ∃ form id, e.cell = .own form id

theorem State.Open.fewer (h : s.Open) (hw : t.waiting = s.waiting)
    (hk : ∀ k e, t.thread.kept.get? k = some e → e.exclusive = true →
      (∃ form id, e.cell = .own form id) ∨ s.thread.kept.get? k = some e) : t.Open := by
  intro r hr k e he hx
  rcases List.mem_cons.1 hr with rfl | hr
  · obtain hown | hs := hk k e he hx
    · exact hown
    · exact h s.thread List.mem_cons_self k e hs hx
  · exact h r (List.mem_cons_of_mem _ (hw ▸ hr)) k e he hx

theorem State.Open.move {l l' : List Cell} {ds : List Deed} (h : s.Open) (m : Move l s ds l' t) :
    t.Open := by
  refine h.fewer (Moves.single m).waiting.1 fun k e he hx => ?_
  cases m with
  | aside ha => exact .inr (ha.kept ▸ he)
  | kept key =>
    replace he := (Table.get?_insert _ _ _ _).symm.trans he
    split at he
    · cases he
      cases hx
    · exact .inr he
  | unkept | parted =>
    replace he := (Table.get?_erase _ _ _).symm.trans he
    split at he
    · cases he
    · exact .inr he
  | @flagged i f hf =>
    replace he := (Table.get?_modify _ _ _ _).symm.trans he
    split at he
    · next hki =>
      obtain ⟨e', he', rfl⟩ := Option.map_eq_some_iff.1 he
      subst hki
      have hnoted := hf e' he'
      obtain hsame | ⟨form, id, hown⟩ := hnoted.exclusive
      · obtain ⟨form, id, hown⟩ := h s.thread List.mem_cons_self k e' he' (hsame ▸ hx)
        exact .inl ⟨form, id, hnoted.cell.trans hown⟩
      · exact .inl ⟨form, id, hnoted.cell.trans hown⟩
    · exact .inr he
  | dropped aloud | freed aloud | freedFull aloud => cases aloud <;> exact .inr he
  | _ => exact .inr he

theorem Stable.open : Stable State.Open where
  move _ m h := h.move m
  startThread {s} h t ht k e he := by
    rcases List.mem_cons.1 ht with rfl | ht
    · cases he
    · exact h t ht k e he
  endThread _ hw h t ht := h t (List.mem_cons_of_mem _ (hw ▸ ht))

/-- What nothing breaks, and no taking of turns, holds wherever a run comes to. -/
theorem Amid.stable {P : State → Prop} (hP : Stable P)
    (hstart : ∀ build profiling environment file, P (.start build profiling environment file))
    (hswitch : ∀ {s t ts}, (t :: ts).Perm (s.thread :: s.waiting) → P s → P (s.switch t ts))
    (h : Amid L s) : P s := by
  induction h with
  | start => exact hstart _ _ _ _
  | ended h he ih => exact step_respects hP _ _ _ _ _ h.sound ih he
  | answered r h ih => exact (answered_aside r _).stable hP h.sound ih
  | @signalled L s t n op g h hg ih =>
    have hl := step_lawful n
    exact ((Action.performing_does op h.sound).sends (react_lawful hl) hP
      (react_respects hl hP (step_respects hP n)) h.sound ih hg).2
  | hooked g h ih => exact (hook_aside g _).stable hP h.sound ih
  | threaded _ ih => exact hP.startThread ih
  | switched _ hp ih => exact hswitch hp ih

theorem Amid.open (h : Amid L s) : s.Open := by
  refine h.stable .open (fun _ _ _ _ t ht k e he => ?_) fun hp h t ht => h t (hp.mem_iff.1 ht)
  rcases List.mem_cons.1 ht with rfl | ht
  · cases he
  · cases ht

/-! ## Courses that can end one way only -/

theorem Act.tried_assoc (x : Act α) (k : Except Failure α → State → Act β)
    (k' : Except Failure β → State → Act γ) : (x.attempt.bind k).attempt.bind k' =
      x.attempt.bind fun r t => (k r t).attempt.bind k' := by
  induction x with
  | done | fail | halt => rfl
  | send g t next ih => exact congrArg (Act.send g t) (funext ih)

/-- Wherever the course ends, whatever state it is resumed in, `P` holds of its result. -/
def Act.Ends (P : Except Failure α → Prop) : Act α → Prop
  | done a _ => P (.ok a)
  | fail f _ => P (.error f)
  | halt .. => True
  | send _ _ next => ∀ t, Ends P (next t)

/-- The result of an action that a lock was refused. -/
abbrev Relocked (r : Except Failure α) : Prop :=
  r = .error (.panic .relocked)

namespace Act.Ends

variable {x : Act α} {P : Except Failure α → Prop}

theorem bind {P' : Except Failure β → Prop} {k : α → State → Act β} (h : x.Ends P)
    (hk : ∀ a, P (.ok a) → ∀ t, (k a t).Ends P') (hf : ∀ f, P (.error f) → P' (.error f)) :
    (x.bind k).Ends P' := by
  induction x with
  | done a t => exact hk a h t
  | fail f t => exact hf f h
  | halt => trivial
  | send g t next ih => exact fun t' => ih t' (h t')

theorem tried {P' : Except Failure β → Prop} {k : Except Failure α → State → Act β} (h : x.Ends P)
    (hk : ∀ r, P r → ∀ t, (k r t).Ends P') : (x.attempt.bind k).Ends P' := by
  induction x with
  | done a t => exact hk _ h t
  | fail f t => exact hk _ h t
  | halt => trivial
  | send g t next ih => exact fun t' => ih t' (h t')

theorem imp {P' : Except Failure α → Prop} (h : x.Ends P) (hP : ∀ r, P r → P' r) : x.Ends P' := by
  induction x with
  | done | fail => exact hP _ h
  | halt => trivial
  | send g t next ih => exact fun t' => ih t' (h t')

theorem settle {react : Signal → State → Except (Halt × State) State} {r : Except Failure α}
    (h : x.Ends P) (he : x.settle react = .ended r t) : P r := by
  induction x with
  | done | fail =>
    cases he
    exact h
  | halt => cases he
  | send g u next ih =>
    rw [Act.settle] at he
    split at he
    · next u' hu' => exact ih u' (h u') he
    · cases he

theorem any (x : Act α) : x.Ends fun _ => True := by
  induction x with
  | send g t next ih => exact ih
  | _ => trivial

/-- A refusal stays one. -/
theorem refused {k : α → State → Act β} (h : x.Ends Relocked) : (x.bind k).Ends Relocked :=
  h.bind (fun a ha => by cases ha) fun f hf => congrArg Except.error (Except.error.inj hf)

end Act.Ends

namespace Action

open Act (Ends)

theorem cleanUp_ends (b : Action Unit) (s : State) : (cleanUp b s).Ends (· = .ok ()) := by
  refine (Ends.any (b s)).tried fun r _ t => ?_
  cases r with
  | ok => exact rfl
  | error => trivial

theorem forM_ends {f : Claim → Action Unit} (hf : ∀ c s, (f c s).Ends (· = .ok ())) :
    ∀ (cs : List Claim) (s : State), (cs.forM f s).Ends (· = .ok ())
  | [], _ => rfl
  | c :: cs, s => (hf c s).bind (fun _ _ t => forM_ends hf cs t) fun _ hp => by cases hp

/-- What is done about a failure before it goes on. -/
def unwound (before : Nat) : Except Failure α → Action α
  | .ok x => pure x
  | .error f => do
    let hands := (← thread).hands
    (hands.take (hands.length - before)).forM fun c => cleanUp (release c)
    fail f

theorem unwinding_apply (b : Action α) (s : State) :
    unwinding b s = (b s).attempt.bind (unwound s.thread.hands.length) := by
  refine congrArg (b s).attempt.bind (funext fun r => ?_)
  cases r <;> rfl

theorem unwound_ends (before : Nat) (t : State) :
    (unwound before (.error (.panic .relocked)) t : Act α).Ends Relocked :=
  (forM_ends (fun c s => cleanUp_ends (release c) s) _ t).bind (fun _ _ _ => rfl) fun _ h => by
    cases h

theorem conclude_ends (b : Action Unit) (t : State) :
    (conclude (.error (.panic .relocked)) b t : Act α).Ends Relocked :=
  (cleanUp_ends b t).bind (fun _ _ _ => rfl) fun _ h => by cases h

/-! ## What stands around an action that a lock is refused -/

end Action

/-- Variables, the counts of handles and those of the profiler are as they were. -/
def State.Intact (s t : State) : Prop :=
  (t.slots, t.sharing, t.profiler) = (s.slots, s.sharing, s.profiler)

/-- States that agree in all that is said of a refusal. -/
structure State.Agrees (s t : State) : Prop where
  intact : s.Intact t
  ledger : t.thread.ledger = s.thread.ledger
  functions : t.functions = s.functions
  journal : t.journal = s.journal

/-- The same keys stand for cells, and the same claims are in hand. -/
def State.Alongside (s t : State) : Prop :=
  (t.thread.cells, t.thread.hands) = (s.thread.cells, s.thread.hands)

theorem State.Agrees.refl (s : State) : s.Agrees s :=
  ⟨rfl, rfl, rfl, rfl⟩

theorem State.Agrees.trans (h : s.Agrees t) (h' : t.Agrees u) : s.Agrees u :=
  ⟨Eq.trans h'.intact h.intact, h'.ledger.trans h.ledger, h'.functions.trans h.functions,
    h'.journal.trans h.journal⟩

/-- With one more operation that looks at it. -/
def Kept.looked (e : Kept) : Kept :=
  { e with readers := e.readers + 1 }

namespace Action

/-- What is to be done about the end of an action that is begun in `s₂`, as a part of one that is
begun in `s`. It passes failures on, and when nothing happened between it leaves the state as it
was. -/
structure Frames (s₂ s : State) (K : Except Failure α → State → Act β) : Prop where
  alongside : s.Alongside s₂
  back : ∀ f, K (.error f) s₂ = .fail f s
  passes : ∀ f t, s.Alongside t → ∃ t', K (.error f) t = .fail f t' ∧ s.Alongside t' ∧ t.Agrees t'
  refused : ∀ t, (K (.error (.panic .relocked)) t).Ends Relocked

/-- The course `y` is that of `x`, begun in `s₂`, and of what is to be done after it. -/
def Framed (s₂ s : State) (x : Act α) (y : Act β) : Prop :=
  ∃ K : Except Failure α → State → Act β, Frames s₂ s K ∧ y = x.attempt.bind K

namespace Framed

variable {x : Act α} {y : Act β} {z : Act γ}

theorem trans (h : Framed s₂ s₁ x y) (h' : Framed s₁ s y z) : Framed s₂ s x z := by
  obtain ⟨K, hK, rfl⟩ := h
  obtain ⟨K', hK', rfl⟩ := h'
  refine ⟨fun r t => (K r t).attempt.bind K', ⟨?_, fun f => ?_, fun f t ht => ?_, fun t => ?_⟩,
    Act.tried_assoc x K K'⟩
  · exact Eq.trans hK.alongside hK'.alongside
  · rw [hK.back]
    exact hK'.back f
  · obtain ⟨u, hu, hside, hagree⟩ := hK.passes f t (Eq.trans ht hK'.alongside.symm)
    obtain ⟨v, hv, hside', hagree'⟩ := hK'.passes f u (Eq.trans hside hK'.alongside)
    rw [hu]
    exact ⟨v, hv, hside', hagree.trans hagree'⟩
  · exact (hK.refused t).tried fun r hr t' => hr ▸ hK'.refused t'

theorem bind (h : Framed s₂ s x y) (k : β → State → Act γ) : Framed s₂ s x (y.bind k) := by
  obtain ⟨K, hK, rfl⟩ := h
  refine ⟨fun r t => (K r t).bind k, ⟨hK.alongside, fun f => ?_, fun f t ht => ?_,
    fun t => (hK.refused t).refused⟩, Act.bind_assoc _ _ _⟩
  · rw [hK.back]
    rfl
  · obtain ⟨u, hu, hside, hagree⟩ := hK.passes f t ht
    rw [hu]
    exact ⟨u, rfl, hside, hagree⟩

/-- Claims in hand are given up when the action fails. -/
theorem unwinding (b : Action α) (s : State) : Framed s s (b s) (unwinding b s) := by
  have hnothing (f : Failure) (t : State) (ht : t.thread.hands = s.thread.hands) :
      (unwound s.thread.hands.length (.error f) t : Act α) = .fail f t := by
    simp only [unwound, bind_apply, thread_apply, done_bind, ht, Nat.sub_self, List.take_zero]
    rfl
  refine ⟨_, ⟨rfl, fun f => hnothing f s rfl, fun f t ht => ⟨t, ?_, ht, .refl t⟩,
    fun t => unwound_ends _ t⟩, unwinding_apply b s⟩
  exact hnothing f t (congrArg Prod.snd ht :)

end Framed

section Kept

variable {b : KeptId → Cell → Action α}

/-- Looking at a cell that nobody has for himself. -/
theorem looking_framed (b : Action α) (hk : s.thread.kept.get? k = some e)
    (hx : e.exclusive = false) :
    ∃ f : Kept → Kept, (∀ e, (f e).cell = e.cell ∧ (f e).users = e.users) ∧
      Framed (s.flag k f) s (Action.unwinding b (s.flag k f)) (looking k b s) := by
  have hback : (s.flag k Kept.looked).flag k (fun e => { e with readers := e.readers - 1 }) = s :=
    State.flag_back hk rfl
  refine ⟨Kept.looked, fun _ => ⟨rfl, rfl⟩,
    fun r => setKept k (fun e => { e with readers := e.readers - 1 }) >>= fun _ => ofExcept r,
    ⟨rfl, fun f => congrArg (Act.fail f) hback,
      fun f t ht => ⟨_, rfl, ht, rfl, rfl, rfl, rfl⟩, fun t => rfl⟩, ?_⟩
  rw [looking, bind_apply, kept_some hk, done_bind, ite_apply,
    if_neg (by rw [hx]; exact Bool.false_ne_true)]
  rfl

theorem changing_framed (b : Action α) (hk : s.thread.kept.get? k = some e)
    (hx : e.exclusive = false) (hc : e.cell = .handle id a) :
    ∃ f : Kept → Kept, (∀ e, (f e).cell = e.cell ∧ (f e).users = e.users) ∧
      Framed (s.flag k f) s (Action.unwinding b (s.flag k f)) (changing k b s) := by
  have hlook : changing k b s = looking k b s := by
    obtain ⟨c, users, readers, exclusive⟩ := e
    obtain rfl : c = .handle id a := hc
    rw [changing, bind_apply, kept_some hk, done_bind]
  rw [hlook]
  exact looking_framed b hk hx

/-- A failure is passed on when the use of a cell ends without anything else to do. -/
theorem conclude_passes {a : Action Unit} (h : a s = .done () t) (f : Failure) :
    (conclude (.error f) a s : Act α) = .fail f t := by
  cases f <;>
    simp only [conclude, cleanUp, bind_apply, attempt_apply, h, done_attempt, done_bind,
      pure_apply, fail_apply, ofExcept_error]

/-- Using a cell under its key. -/
theorem withCell_framed (hcells : s.thread.cells.get? key = some k)
    (hk : s.thread.kept.get? k = some e) :
    Framed (s.flag k Kept.entered) s (b k e.cell (s.flag k Kept.entered)) (withCell key b s) := by
  -- the key still stands for the cell, so there is nothing to give up
  have hleave {t : State} (ht : t.thread.cells = s.thread.cells) : leave k t =
      .done () (t.flag k fun e => { e with users := e.users - 1 }) :=
    leave_keyed (by rw [ht]; exact hcells)
  have hback : (s.flag k Kept.entered).flag k (fun e => { e with users := e.users - 1 }) = s :=
    State.flag_back hk rfl
  refine (Framed.unwinding (b k e.cell) _).trans ⟨fun r => conclude r (leave k),
    ⟨rfl, fun f => ?_, fun f t ht => ?_, fun t => conclude_ends (leave k) t⟩, ?_⟩
  · exact (conclude_passes (hleave (t := s.flag k Kept.entered) rfl) f).trans
      (congrArg (Act.fail f) hback)
  · exact ⟨_, conclude_passes (hleave (congrArg Prod.fst ht :)) f, ht, rfl, rfl, rfl, rfl⟩
  · rw [withCell, bind_apply, keptId_some hcells, done_bind, bind_apply, kept_some hk, done_bind,
      bind_apply, setKept_apply, done_bind]
    rfl

end Kept

end Action

/-! ## Giving up the claim that was to be assigned -/

/-- A claim was given up, and nothing else was noted. -/
def State.Spent (s : State) (c : Claim) (t : State) : Prop :=
  match c.realm with
  | .counted => s.thread.ledger.release c.object = .ok t.thread.ledger ∧
      t.journal = .released c.object :: s.journal
  | .native => t.thread.ledger = s.thread.ledger ∧
      ∃ f, s.functions = some f ∧ t.journal = .called f.release .released c.object :: s.journal

/-- A claim cannot be given up. -/
def State.Withholds (s : State) (c : Claim) : Prop :=
  match c.realm with
  | .counted => ∃ m, s.thread.ledger.release c.object = .error m
  | .native => s.functions = none

/-- How everything ends when a lock is refused: the panic is fatal in a call from native code, and
elsewhere a claim in hand that cannot be given up is a second one. -/
def State.BreaksOff (s : State) (c? : Option Claim) (h : Halt) (t : State) : Prop :=
  s.Intact t ∧ (h = .fatal .relocked ∧ t.thread.nativeDepth ≠ 0 ∨
    h = .aborted ∧ ∃ c, c? = some c ∧ s.Withholds c)

/-- A claim in hand is given up when a lock is refused, and then the hands are as they were when the
operation began. -/
def State.HandsBack (s₀ s : State) (c? : Option Claim) (g : Signal) (t : State) : Prop :=
  ∃ c, c? = some c ∧ g = ⟨c.realm, .released, c.object⟩ ∧ s.Intact t ∧ s.Spent c t ∧
    s₀.thread.hands = t.thread.hands

/-- When no script is set off, the course comes to a refusal and does nothing else. -/
def Act.Fades (s₀ s : State) : Act α → Prop
  | fail f t => f = .panic .relocked ∧ s₀.Alongside t ∧ s.Agrees t
  | send _ t next => s.Agrees t ∧ (next t).Fades s₀ s
  | _ => False

/-- What a course does that began in `s₀` and to which a lock is refused in the state `s`, with a
claim in hand or none. It fails at once, and leaves the state as it was, unless there is a claim to
give up before. -/
def Act.Relocks (s₀ s : State) (c? : Option Claim) : Act α → Prop
  | done .. => False
  | fail f t => f = .panic .relocked ∧ c? = none ∧ t = s
  | halt h t => s.BreaksOff c? h t
  | send g t next => s₀.HandsBack s c? g t ∧ (∀ t', (next t').Ends Relocked) ∧
      (s.thread.cells = s₀.thread.cells → (next t).Fades s₀ t)

namespace State.Agrees

variable {s₀ : State} {h : Halt} {g : Signal}

theorem breaksOff (hs : s.Agrees t) (hu : t.BreaksOff c? h u) : s.BreaksOff c? h u := by
  refine ⟨Eq.trans hu.1 hs.intact, hu.2.imp_right (And.imp_right fun ⟨c, hc, hw⟩ => ⟨c, hc, ?_⟩)⟩
  unfold State.Withholds at hw ⊢
  rwa [← hs.ledger, ← hs.functions]

theorem handsBack (hs : s.Agrees t) (hu : s₀.HandsBack t c? g u) : s₀.HandsBack s c? g u := by
  obtain ⟨c, hc, hg, hi, hspent, hhands⟩ := hu
  refine ⟨c, hc, hg, Eq.trans hi hs.intact, ?_, hhands⟩
  unfold State.Spent at hspent ⊢
  rwa [← hs.ledger, ← hs.functions, ← hs.journal]

end State.Agrees

theorem Act.Fades.framed {s₀ : State} {x : Act α} {K : Except Failure α → State → Act β}
    (h : x.Fades s₀ t) (hK : ∀ f u, s₀.Alongside u →
      ∃ u', K (.error f) u = .fail f u' ∧ s.Alongside u' ∧ u.Agrees u') :
    (x.attempt.bind K).Fades s t := by
  induction x with
  | done | halt => exact h.elim
  | fail f u =>
    obtain ⟨rfl, hside, hagree⟩ := h
    obtain ⟨v, hv, hside', hagree'⟩ := hK _ u hside
    show (K _ u).Fades s t
    rw [hv]
    exact ⟨rfl, hside', hagree.trans hagree'⟩
  | send g u next ih => exact ⟨h.1, ih u h.2⟩

namespace Act.Relocks

variable {s₀ : State} {x : Act α} {y : Act β} {c : Claim}

theorem of_agrees (h : x.Relocks s₀ t (some c)) (hs : s.Agrees t)
    (hc : t.thread.cells = s.thread.cells) : x.Relocks s₀ s (some c) := by
  cases x with
  | done => exact h
  | fail => cases h.2.1
  | halt => exact hs.breaksOff h
  | send => exact ⟨hs.handsBack h.1, h.2.1, fun hcells => h.2.2 (hc.trans hcells)⟩

/-- What is to be done about the refusal does not matter to a course that gives up a claim. -/
theorem tried {K : Except Failure α → State → Act β} (h : x.Relocks s₂ s (some c))
    (hK : Action.Frames s₂ s₀ K) : (x.attempt.bind K).Relocks s₀ s (some c) := by
  have hcells : s₂.thread.cells = s₀.thread.cells := congrArg Prod.fst hK.alongside
  have hhands : s₂.thread.hands = s₀.thread.hands := congrArg Prod.snd hK.alongside
  cases x with
  | done => exact h.elim
  | fail => cases h.2.1
  | halt => exact h
  | send =>
    obtain ⟨⟨c', hc, hg, hi, hs, hback⟩, hends, hfades⟩ := h
    refine ⟨⟨c', hc, hg, hi, hs, hhands.symm.trans hback⟩,
      fun t => (hends t).tried fun r hr t' => hr ▸ hK.refused t', fun hside => ?_⟩
    refine (hfades (hside.trans hcells.symm)).framed fun f u hu => hK.passes f u ?_
    exact Eq.trans hu hK.alongside

/-- Nor does what stands around it. -/
theorem framed (h : x.Relocks s₂ s₂ c?) (hf : Action.Framed s₂ s x y) (hs : s.Agrees s₂) :
    y.Relocks s s c? := by
  obtain ⟨K, hK, rfl⟩ := hf
  cases c? with
  | some c => exact (h.tried hK).of_agrees hs (congrArg Prod.fst hK.alongside :)
  | none =>
    cases x with
    | done => exact h.elim
    | fail f u =>
      obtain ⟨rfl, -, rfl⟩ := h
      show (K _ u).Relocks s s none
      rw [hK.back]
      exact ⟨rfl, rfl, rfl⟩
    | halt h' u => exact hs.breaksOff h
    | send g u next =>
      obtain ⟨⟨c', hc, -⟩, -⟩ := h
      cases hc

end Act.Relocks

namespace Action

/-- A claim is given up before anything else is done, and nothing is done after it but to tell of
it. Or it cannot be given up. -/
theorem release_spends (c : Claim) (hd : u.thread.nativeDepth = 0) :
    (∃ t next, release c u = .send ⟨c.realm, .released, c.object⟩ t next ∧ u.Intact t ∧
      u.Spent c t ∧ t.thread.cells = u.thread.cells ∧
      t.thread.hands = u.thread.hands.erase c ∧
      (next t = .done () t ∨ ∃ g, next t = .send g t (.done ()))) ∨
    u.Withholds c ∧ ∃ f t, release c u = .fail f t ∧ u.Intact t := by
  obtain ⟨realm, o⟩ := c
  cases realm with
  | counted =>
    cases hl : u.thread.ledger.release o with
    | ok l =>
      have hl' : (u.letGo ⟨.counted, o⟩).thread.ledger.release o = .ok l := hl
      generalize ht : ((u.letGo ⟨.counted, o⟩).setLedger l).note (.released o) = t
      refine .inl ⟨t, fun v =>
        (if v.thread.ledger.isFreed o then send ⟨.counted, .freed, o⟩ else pure ()) v, ?_,
        ht ▸ rfl, ht ▸ ⟨hl, rfl⟩, ht ▸ rfl, ht ▸ rfl, ?_⟩
      · rw [← ht]
        simp only [release, bind_apply, letGo_apply, thread_apply, done_bind, hl']
        rfl
      · dsimp only
        rw [ite_apply]
        split
        · exact .inr ⟨_, rfl⟩
        · exact .inl rfl
    | error m =>
      exact .inr ⟨⟨m, hl⟩, _, _, release_refused hl hd, rfl⟩
  | native =>
    cases hf : u.functions with
    | some f =>
      have hf' : functions (u.letGo ⟨.native, o⟩) = .done f (u.letGo ⟨.native, o⟩) :=
        functions_some hf
      refine .inl ⟨(u.letGo ⟨.native, o⟩).note (.called f.release .released o), .done (), ?_, rfl,
        ⟨rfl, f, hf, rfl⟩, rfl, rfl, .inl rfl⟩
      simp only [release, bind_apply, letGo_apply, done_bind, hf']
      rfl
    | none =>
      have hf' : functions (u.letGo ⟨.native, o⟩) =
          violate .functionsMissing (u.letGo ⟨.native, o⟩) := by
        rw [functions, bind_apply, get_apply, done_bind]
        simp only [show (u.letGo ⟨.native, o⟩).functions = none from hf]
      have hd' : ((u.letGo ⟨.native, o⟩).emit (.violated .functionsMissing)).thread.nativeDepth =
        0 := hd
      refine .inr ⟨hf, .panic (.invariant .functionsMissing),
        (u.letGo ⟨.native, o⟩).emit (.violated .functionsMissing), ?_, rfl⟩
      simp only [release, bind_apply, letGo_apply, done_bind, hf', violate_bind]
      rw [violate, bind_apply, emit_apply, done_bind, raise_caught hd']

variable {s₀ : State} {H : List Claim}

/-- **A claim in hand is given up** when a lock was refused, where a panic can be caught. -/
theorem unwound_relocks (hh : u.thread.hands = c?.toList ++ H) (hH : s₀.thread.hands = H)
    (hd : u.thread.nativeDepth = 0) :
    (unwound H.length (.error (.panic .relocked)) u : Act α).Relocks s₀ u c? := by
  have htop : u.thread.hands.take (u.thread.hands.length - H.length) = c?.toList := by
    rw [hh, List.length_append, Nat.add_sub_cancel, List.take_left]
  have hgive : unwound H.length (.error (.panic .relocked)) u =
      ((c?.toList.forM fun c => cleanUp (release c)) u).bind fun _ t =>
        (.fail (.panic .relocked) t : Act α) := by
    rw [← htop]
    rfl
  have hends := unwound_ends (α := α) H.length u
  rw [hgive] at hends ⊢
  cases c? with
  | none => exact ⟨rfl, rfl, rfl⟩
  | some c =>
    rw [Option.toList_some, show ([c].forM fun c => cleanUp (release c)) =
      cleanUp (release c) >>= fun _ => pure () from rfl, bind_apply, cleanUp, bind_apply,
      attempt_apply] at hends ⊢
    obtain ⟨t, next, hr, hi, hs, hcells, hhands, hnext⟩ | ⟨hw, f, t, hr, hi⟩ := release_spends c hd
    · have hback : t.thread.hands = H := by
        rw [hhands, hh]
        exact List.erase_cons_head _ _
      rw [hr] at hends ⊢
      refine ⟨⟨c, rfl, rfl, hi, hs, hH.trans hback.symm⟩, hends, fun hside => ?_⟩
      have hside' : s₀.Alongside t := Prod.ext (hcells.trans hside) (hback.trans hH.symm)
      obtain hnext | ⟨g, hnext⟩ := hnext
      · show ((((next t).attempt.bind _).bind _).bind _).Fades s₀ t
        rw [hnext]
        exact ⟨rfl, hside', .refl t⟩
      · show ((((next t).attempt.bind _).bind _).bind _).Fades s₀ t
        rw [hnext]
        exact ⟨.refl t, rfl, hside', .refl t⟩
    · rw [hr]
      exact ⟨hi, .inr ⟨rfl, c, rfl, hw⟩⟩

/-- **The lock is refused with a claim in hand, or with none.** -/
theorem raise_relocks (hh : u.thread.hands = c?.toList ++ H) (hH : s₀.thread.hands = H) :
    ((raise .relocked u : Act α).attempt.bind (unwound H.length)).Relocks s₀ u c? := by
  by_cases hd : u.thread.nativeDepth = 0
  · rw [raise_caught hd]
    exact unwound_relocks hh hH hd
  · rw [raise_calling hd]
    exact ⟨rfl, .inl ⟨rfl, hd⟩⟩

/-- What a claim in hand does in a part of an operation that a lock is refused. -/
theorem unwinding_relocks {b : Action α} (hb : b s = raise .relocked u)
    (hh : u.thread.hands = c?.toList ++ s.thread.hands) (hu : s.Agrees u)
    (hc : u.thread.cells = s.thread.cells) (hn : c? = none → u = s) :
    (unwinding b s).Relocks s s c? := by
  have h : ((raise .relocked u : Act α).attempt.bind (unwound s.thread.hands.length)).Relocks
      s u c? := raise_relocks hh rfl
  rw [unwinding_apply, hb]
  cases c? with
  | none =>
    obtain rfl := hn rfl
    exact h
  | some c => exact h.of_agrees hu hc

/-! ## Asking for a lock that is held -/

end Action

/-- A read in progress holds the lock of the cell. -/
def State.Refuses (s : State) (id : SlotId) : Prop :=
  s.build.mode = .plain ∧ ∃ sh, s.sharing.get? id = some sh ∧ sh.readers ≠ 0

theorem State.Locked.refuses (hl : s.Locked L) (hm : s.build.mode = .plain) (hid : id ∈ L)
    (hsh : (s.sharing.get? id).isSome) : s.Refuses id := by
  obtain ⟨sh, hsh⟩ := Option.isSome_iff_exists.1 hsh
  refine ⟨hm, sh, hsh, ?_⟩
  rw [hl.count id sh hsh]
  exact (List.count_pos_iff.2 hid).ne'

namespace Action

theorem lockForChange_refused (h : s.Refuses id) : lockForChange id s = raise .relocked s := by
  obtain ⟨hm, sh, hsh, hr⟩ := h
  simp only [lockForChange, bind_apply, sharing_some hsh, done_bind, ite_apply, get_apply, hm]
  rw [if_pos hr]

/-- **A held lock refuses every change**, before anything is done. -/
theorem assign_refused (h : s.Refuses id) (a : Access) (o : ObjectId) :
    assign (.handle id a) o s = raise .relocked s := by
  show (lockForChange id s).bind _ = _
  rw [lockForChange_refused h, raise_bind]

theorem clear_refused (h : s.Refuses id) (a : Access) :
    clear (.handle id a) s = raise .relocked s := by
  show (lockForChange id s).bind _ = _
  rw [lockForChange_refused h, raise_bind]

theorem take_refused (h : s.Refuses id) (a : Access) :
    take (.handle id a) s = raise .relocked s := by
  show (lockForChange id s).bind _ = _
  rw [lockForChange_refused h, raise_bind]

end Action

theorem Cell.handle_of_shared {c : Cell} (h : c.shared? = some id) : ∃ a, c = .handle id a := by
  cases c with
  | own => cases h
  | handle i a =>
    cases h
    exact ⟨a, rfl⟩

/-- One more claim can be had. -/
def State.Grants (s : State) (c : Claim) : Prop :=
  match c.realm with
  | .counted => ∃ l, s.thread.ledger.acquire c.object = .ok l
  | .native => s.functions.isSome

/-- The claim that the operation assigns, and has before it asks for a lock. -/
def Op.offered? (s : State) : Op → Option Claim
  | .cell (.use _ _ (.assign claim)) => (s.thread.claims.get? claim).map (⟨.counted, ·⟩)
  | .native (.assign _ o) => some ⟨.native, o⟩
  | _ => none

/-- The claim that the operation acquires in order to assign it. -/
def Op.borrowed? : Op → Option Claim
  | .cell (.use _ _ (.assignBorrowed o)) => some ⟨.counted, o⟩
  | .native (.assignBorrowed _ o) => some ⟨.native, o⟩
  | _ => none

/-- The operation comes as far as to ask for the lock: the claim that it assigns is there, or can be
had. -/
def Op.Ready (s : State) : Op → Prop
  | .cell (.use _ _ (.assign claim)) => (s.thread.claims.get? claim).isSome
  | .cell (.use _ _ (.assignBorrowed o)) => o ∈ s.thread.known ∧ s.Grants ⟨.counted, o⟩
  | .native (.assign _ o) => o ≠ 0
  | .native (.assignBorrowed _ o) => s.Grants ⟨.native, o⟩
  | _ => True

namespace Action

open Act (Relocks)

/-- A claim that can be had is acquired, and nothing else is done. -/
theorem acquire_granted {c : Claim} (h : s.Grants c) :
    ∃ u, acquire c s = .send ⟨c.realm, .acquired, c.object⟩ u (.done ()) ∧
      u.thread.hands = c :: s.thread.hands ∧ u.thread.kept = s.thread.kept ∧ s.Intact u ∧
      u.build = s.build := by
  obtain ⟨realm, o⟩ := c
  cases realm with
  | counted =>
    obtain ⟨l, hl⟩ := h
    refine ⟨((s.setLedger l).hold ⟨.counted, o⟩).note (.acquired o), ?_, rfl, rfl, rfl, rfl⟩
    simp only [acquire, gain, bind_apply, thread_apply, done_bind, show
      s.thread.ledger.acquire o = .ok l from hl]
    rfl
  | native =>
    obtain ⟨f, hf⟩ := Option.isSome_iff_exists.1 h
    refine ⟨(s.hold ⟨.native, o⟩).note (.called f.acquire .acquired o), ?_, rfl, rfl, rfl, rfl⟩
    simp only [acquire, gain, bind_apply, functions_some hf, done_bind]
    rfl

theorem assignBorrowed_apply {c : Cell} {v : Slot} (hv : s.slots.get? c.slot = some v)
    (o : ObjectId) :
    assignBorrowed c o s = (acquire ⟨v.realm, o⟩ s).bind fun _ => assign c o := by
  rw [assignBorrowed, bind_apply, slot_some hv, done_bind]
  rfl

section Kept

variable {bound : Bool} {verb : Verb}

/-- What stands around the change of a shared cell under its key. -/
theorem changing_course (bound : Bool) (verb : Verb) {b : Action β} (tail : β → Action Answer)
    (hcells : s.thread.cells.get? key = some k) (hk : s.thread.kept.get? k = some e)
    (hx : e.exclusive = false) (hc : e.cell = .handle id a)
    (hpart : usePart bound verb k e.cell = changing k b >>= tail) :
    ∃ f : Kept → Kept, (∀ e, (f e).cell = e.cell ∧ (f e).users = e.users) ∧
      Framed ((s.flag k Kept.entered).flag k f) s
        (unwinding b ((s.flag k Kept.entered).flag k f))
        ((Op.cell (.use key bound verb)).course s) := by
  have hk' : (s.flag k Kept.entered).thread.kept.get? k = some e.entered := by
    rw [State.flag_kept, if_pos rfl, hk, Option.map_some]
  obtain ⟨f, hkeeps, hf⟩ := changing_framed b hk' hx hc
  have hwith := withCell_framed (b := usePart bound verb) hcells hk
  rw [hpart, bind_apply] at hwith
  exact ⟨f, hkeeps, ((hf.bind _).trans hwith).trans (.unwinding (perform _) s)⟩

/-- A change that a lock is refused with a claim in hand, or with none, does nothing else. -/
theorem changing_relocks {b : Action β} (tail : β → Action Answer) {u : State → State}
    (hcells : s.thread.cells.get? key = some k) (hk : s.thread.kept.get? k = some e)
    (hx : e.exclusive = false) (hc : e.cell = .handle id a)
    (hpart : usePart bound verb k e.cell = changing k b >>= tail)
    (hb : ∀ f : Kept → Kept, b ((s.flag k Kept.entered).flag k f) =
      raise .relocked (u ((s.flag k Kept.entered).flag k f)))
    (hu : ∀ t, (u t).thread.hands = c?.toList ++ t.thread.hands ∧ t.Agrees (u t) ∧
      (u t).thread.cells = t.thread.cells)
    (hn : c? = none → ∀ t, u t = t) :
    ((Op.cell (.use key bound verb)).course s).Relocks s s c? := by
  obtain ⟨f, -, hf⟩ := changing_course bound verb tail hcells hk hx hc hpart
  obtain ⟨hhands, hagree, hside⟩ := hu ((s.flag k Kept.entered).flag k f)
  refine Relocks.framed (unwinding_relocks (hb f) hhands hagree hside fun hnone => ?_) hf
    ⟨rfl, rfl, rfl, rfl⟩
  rw [hn hnone]

/-- The shared cell that a key stands for. -/
theorem shared_of_key (h : (s.cellOf key).bind Cell.shared? = some id) (ho : s.Open) :
    ∃ k e a, s.thread.cells.get? key = some k ∧ s.thread.kept.get? k = some e ∧
      e.cell = .handle id a ∧ e.exclusive = false := by
  obtain ⟨c, hc, hshared⟩ := Option.bind_eq_some_iff.1 h
  obtain ⟨e, he, rfl⟩ := Option.map_eq_some_iff.1 hc
  obtain ⟨k, hkey, hk⟩ := Option.bind_eq_some_iff.1 he
  obtain ⟨a, ha⟩ := e.cell.handle_of_shared hshared
  refine ⟨k, e, a, hkey, hk, ha, Bool.eq_false_iff.2 fun hx => ?_⟩
  obtain ⟨form, i, hown⟩ := ho s.thread List.mem_cons_self k e hk hx
  rw [ha] at hown
  cases hown

theorem via_handle (id : SlotId) (a : Access) (bound : Bool) :
    ∃ a', (Cell.handle id a).via bound = .handle id a' := by
  cases bound
  · exact ⟨a, rfl⟩
  · exact ⟨.free, rfl⟩

/-- **An operation that changes a cell by its key breaks off** when the lock is held. -/
theorem using_relocks (h : (Op.cell (.use key bound verb)).ChangesShared s id) (ho : s.Open)
    (hr : s.Refuses id) (hready : (Op.cell (.use key bound verb)).Ready s)
    (hb : (Op.cell (.use key bound verb)).borrowed? = none) :
    ((Op.cell (.use key bound verb)).course s).Relocks s s
      ((Op.cell (.use key bound verb)).offered? s) := by
  obtain ⟨hchange, k, e, a, hkey, hk, hc, hx⟩ := h.imp_right fun hcell => shared_of_key hcell ho
  obtain ⟨a', ha'⟩ := via_handle id a bound
  cases verb with
  | assign claim =>
    obtain ⟨o, hclaim⟩ := Option.isSome_iff_exists.1 hready
    have hoffer : (Op.cell (.use key bound (.assign claim))).offered? s = some ⟨.counted, o⟩ := by
      rw [Op.offered?, hclaim]
      rfl
    rw [hoffer]
    refine changing_relocks pure
      (b := takeClaim claim >>= fun o => assign (e.cell.via bound) o >>= fun _ => pure .nothing)
      (u := fun t =>
        (t.inThread fun t => { t with claims := t.claims.erase claim }).hold ⟨.counted, o⟩)
      hkey hk hx hc (by rw [bind_pure]; rfl) (fun f => ?_)
      (fun t => ⟨rfl, ⟨rfl, rfl, rfl, rfl⟩, rfl⟩) fun hn => by cases hn
    have htake := takeClaim_some (s := (s.flag k Kept.entered).flag k f) hclaim
    rw [bind_apply, htake, done_bind, hc, ha', bind_apply, assign_refused, raise_bind]
    exact hr
  | clear =>
    refine changing_relocks _ (b := clear (e.cell.via bound)) (u := fun t => t) hkey hk hx hc rfl
      (fun f => ?_) (fun t => ⟨rfl, .refl t, rfl⟩) fun _ _ => rfl
    rw [hc, ha', clear_refused]
    exact hr
  | take new =>
    refine changing_relocks pure
      (b := take (e.cell.via bound) >>= fun claim => keepClaim new claim.object >>= fun _ =>
        pure (.object claim.object)) (u := fun t => t) hkey hk hx hc (by rw [bind_pure]; rfl)
      (fun f => ?_) (fun t => ⟨rfl, .refl t, rfl⟩) fun _ _ => rfl
    rw [hc, ha', bind_apply, take_refused, raise_bind]
    exact hr
  | assignBorrowed => cases hb
  | _ => exact hchange.elim

/-- **An operation that acquires the claim to assign** asks for the lock after that. The cell is in
use meanwhile. -/
theorem borrowing_relocks (h : (Op.cell (.use key bound (.assignBorrowed o))).ChangesShared s id)
    (hs : Sound [] s) (ho : s.Open)
    (hready : (Op.cell (.use key bound (.assignBorrowed o))).Ready s) :
    ∃ u next, (Op.cell (.use key bound (.assignBorrowed o))).course s =
        .send ⟨.counted, .acquired, o⟩ u next ∧ s.Intact u ∧ u.build = s.build ∧
      (∃ k e a, u.thread.kept.get? k = some e ∧ e.cell = .handle id a ∧ e.users ≠ 0) ∧
      ∀ t, t.thread.hands = u.thread.hands → t.Refuses id →
        (next t).Relocks s t (some ⟨.counted, o⟩) := by
  obtain ⟨k, e, a, hkey, hk, hc, hx⟩ := shared_of_key h.2 ho
  obtain ⟨hknown, hgrants⟩ := hready
  obtain ⟨a', ha'⟩ := via_handle id a bound
  obtain ⟨v, hv, hrealm⟩ := hs.slot_of_kept hk
  obtain ⟨f, hkeeps, hf⟩ := changing_course bound (.assignBorrowed o) pure
    (b := requireKnown o >>= fun _ => assignBorrowed (e.cell.via bound) o >>= fun _ =>
      pure .nothing) hkey hk hx hc (by rw [bind_pure]; rfl)
  generalize hw : (s.flag k Kept.entered).flag k f = w at hf
  have hslot : w.slots.get? (e.cell.via bound).slot = some v := by
    rw [← hw, Cell.slot_via]
    exact hv
  obtain ⟨u, hgo, hhands, hkept, hintact, hbuild⟩ :=
    acquire_granted (s := w) (c := ⟨.counted, o⟩) (hw ▸ hgrants)
  rw [unwinding_apply, bind_apply, requireKnown_some (hw ▸ hknown), done_bind, bind_apply,
    assignBorrowed_apply hslot, hrealm, hgo] at hf
  obtain ⟨K, hK, hcourse⟩ := hf
  refine ⟨u, _, hcourse, hintact.trans (hw ▸ rfl), hbuild.trans (hw ▸ rfl),
    ⟨k, f e.entered, a, ?_, ?_, ?_⟩, fun t hh hr => ?_⟩
  · rw [hkept, ← hw, State.flag_kept, if_pos rfl, State.flag_kept, if_pos rfl, hk]
    rfl
  · exact (hkeeps e.entered).1.trans hc
  · rw [(hkeeps e.entered).2]
    exact Nat.succ_ne_zero _
  · have hasks : (((assign (e.cell.via bound) o t).bind fun _ =>
        (pure .nothing : Action Answer)).attempt.bind (unwound w.thread.hands.length)).Relocks
        w t (some ⟨.counted, o⟩) := by
      rw [hc, ha', assign_refused hr, raise_bind]
      have hown : t.thread.hands = (some ⟨.counted, o⟩ : Option Claim).toList ++ w.thread.hands :=
        hh.trans hhands
      exact raise_relocks hown rfl
    exact hasks.tried hK

end Kept

section Native

variable {h : Option String} {op : NativeOp}

/-- What stands around a call from native code. -/
theorem nativeCall_framed (op : NativeOp) (s : State) :
    Framed s.calling s (callNative op s.calling) ((Op.native op).course s) := by
  have hcall : Framed s.calling s (callNative op s.calling) (nativeCall (callNative op) s) :=
    ⟨fun r t => ofExcept r t.returned, ⟨rfl, fun f => rfl,
      fun f t ht => ⟨t.returned, rfl, ht, rfl, rfl, rfl, rfl⟩, fun t => rfl⟩, rfl⟩
  exact hcall.trans (.unwinding (nativeCall (callNative op)) s)

theorem handle_behind {c : Cell} (hb : s.behind h = some c) :
    handleOrNull h s.calling = .done c s.calling ∧ someHandle h s.calling = .done c s.calling := by
  obtain ⟨key, rfl, hkey⟩ := Option.bind_eq_some_iff.1 hb
  obtain ⟨i, hi, hc⟩ := Option.bind_eq_some_iff.1 hkey
  have hgo : handle key s.calling = .done c s.calling := handle_some (i := i) ⟨hi, hc⟩
  exact ⟨hgo, hgo⟩

theorem assign_behind {c : Cell} (hb : s.behind h = some c) (o : ObjectId) :
    callNative (.assign h o) s.calling = (if o = 0 then violate .nullAssignment else
      adopt ⟨.native, o⟩ >>= fun _ => assign c o >>= fun _ => pure Answer.nothing) s.calling := by
  obtain ⟨hnull, -⟩ := handle_behind hb
  obtain ⟨key, rfl⟩ : ∃ key, h = some key := by
    cases h with
    | none => cases hb
    | some key => exact ⟨key, rfl⟩
  have hfirst : discard (handle key) s.calling = .done () s.calling := by
    show (handle key s.calling).bind _ = _
    rw [show handle key s.calling = _ from hnull]
    rfl
  rw [callNative_assign, bind_apply]
  change ((discard (handle key) s.calling).bind _) = _
  rw [hfirst, done_bind]
  split
  · rfl
  · rw [bind_apply, hnull, done_bind]

theorem assignBorrowed_behind {c : Cell} {v : Slot} (hb : s.behind h = some c)
    (hv : s.slots.get? c.slot = some v) (o : ObjectId) :
    callNative (.assignBorrowed h o) s.calling = ((acquire ⟨v.realm, o⟩ s.calling).bind fun _ =>
      assign c o).bind fun _ => (pure Answer.nothing : Action Answer) := by
  rw [callNative, bind_apply, (handle_behind hb).2, done_bind, bind_apply,
    assignBorrowed_apply (s := s.calling) hv]

/-- The shared cell that a call is made for. -/
theorem native_of_changesShared (hc : (Op.native op).ChangesShared s id) :
    op.Changes ∧ ∃ h a, op.handle? = some h ∧ s.behind h = some (.handle id a) := by
  obtain ⟨hchange, hcell⟩ := hc
  obtain ⟨c, hc, hshared⟩ := Option.bind_eq_some_iff.1 hcell
  obtain ⟨h, hh, hb⟩ := Option.bind_eq_some_iff.1 hc
  obtain ⟨a, rfl⟩ := c.handle_of_shared hshared
  exact ⟨hchange, h, a, hh, hb⟩

theorem slot_behind (hs : Sound [] s) {c : Cell} (hb : s.behind h = some c) :
    ∃ v, s.slots.get? c.slot = some v ∧ v.realm = .native := by
  obtain ⟨key, -, hkey⟩ := Option.bind_eq_some_iff.1 hb
  obtain ⟨i, -, hi⟩ := Option.bind_eq_some_iff.1 hkey
  exact hs.slot_of_handle hi

/-- **A call that changes a shared cell is fatal** when the lock is held. -/
theorem calling_relocks (hc : (Op.native op).ChangesShared s id) (hr : s.Refuses id)
    (hready : (Op.native op).Ready s) (hb : (Op.native op).borrowed? = none) :
    ((Op.native op).course s).Relocks s s ((Op.native op).offered? s) := by
  obtain ⟨hchange, h, a, hh, hat⟩ := native_of_changesShared hc
  -- wherever the call asks for the lock it is in progress
  have hfatal {u : State} (hd : u.thread.nativeDepth ≠ 0) (hu : s.Intact u)
      (hcall : callNative op s.calling = raise .relocked u) :
      ((Op.native op).course s).Relocks s s ((Op.native op).offered? s) := by
    obtain ⟨K, -, hcourse⟩ := nativeCall_framed op s
    rw [hcall, raise_calling hd] at hcourse
    rw [hcourse]
    exact ⟨hu, .inl ⟨rfl, hd⟩⟩
  have hd : s.calling.thread.nativeDepth ≠ 0 := Nat.succ_ne_zero _
  obtain ⟨hnull, hsome⟩ := handle_behind hat
  cases op with
  | assign _ o =>
    cases hh
    refine hfatal (u := (s.calling.note (.adopted ⟨.native, o⟩)).hold ⟨.native, o⟩) hd rfl ?_
    rw [assign_behind hat, if_neg hready, bind_apply, adopt_apply, done_bind, bind_apply,
      assign_refused, raise_bind]
    exact hr
  | clear =>
    cases hh
    refine hfatal (u := s.calling) hd rfl ?_
    rw [callNative, bind_apply, hnull, done_bind, bind_apply, orLastError, bind_apply,
      attempt_apply, clear_refused, raise_calling hd]
    · rfl
    · exact hr
  | take =>
    cases hh
    refine hfatal (u := s.calling) hd rfl ?_
    rw [callNative, bind_apply, hsome, done_bind, handOver, bind_apply, take_refused, raise_bind]
    exact hr
  | assignBorrowed => cases hb
  | _ => exact hchange.elim

/-- **A call that acquires the claim to assign** asks for the lock after that. Where the scripts
that ran meanwhile have ended the call, the panic can be caught. -/
theorem calling_borrowed_relocks (hc : (Op.native (.assignBorrowed h o)).ChangesShared s id)
    (hs : Sound [] s) (hready : (Op.native (.assignBorrowed h o)).Ready s) :
    ∃ u next, (Op.native (.assignBorrowed h o)).course s = .send ⟨.native, .acquired, o⟩ u next ∧
      s.Intact u ∧ u.build = s.build ∧
      ∀ t, t.thread.hands = u.thread.hands → t.Refuses id →
        (next t).Relocks s t (some ⟨.native, o⟩) := by
  obtain ⟨-, _, a, hh, hat⟩ := native_of_changesShared hc
  cases hh
  obtain ⟨v, hv, hrealm⟩ := slot_behind hs hat
  obtain ⟨u, hgo, hhands, -, hintact, hbuild⟩ :=
    acquire_granted (s := s.calling) (c := ⟨.native, o⟩) hready
  have hcourse : (Op.native (.assignBorrowed h o)).course s =
      ((callNative (.assignBorrowed h o) s.calling).attempt.bind
        fun r t => (ofExcept r : Action Answer) t.returned).attempt.bind
          (unwound s.thread.hands.length) := unwinding_apply _ s
  rw [assignBorrowed_behind hat hv, hrealm, hgo] at hcourse
  refine ⟨u, _, hcourse, hintact, hbuild, fun t hh hr => ?_⟩
  have hasks : (assign (.handle id a) o t).bind (fun _ => (pure .nothing : Action Answer)) =
      raise .relocked t := by
    rw [assign_refused hr, raise_bind]
  show (((((assign (.handle id a) o t).bind fun _ => (pure .nothing : Action Answer)).attempt.bind
    fun r t => (ofExcept r : Action Answer) t.returned)).attempt.bind
      (unwound s.thread.hands.length)).Relocks s t _
  rw [hasks]
  by_cases hd : t.thread.nativeDepth = 0
  · rw [raise_caught hd]
    have hown : t.returned.thread.hands =
        (some ⟨.native, o⟩ : Option Claim).toList ++ s.thread.hands := hh.trans hhands
    have hdepth : t.returned.thread.nativeDepth = 0 := by
      show t.thread.nativeDepth - 1 = 0
      rw [hd]
    exact (unwound_relocks hown rfl hdepth).of_agrees ⟨rfl, rfl, rfl, rfl⟩ rfl
  · rw [raise_calling hd]
    exact ⟨rfl, .inl ⟨rfl, hd⟩⟩

end Native

end Action

end ClaimCells
