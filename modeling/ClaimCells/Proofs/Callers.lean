import ClaimCells.Proofs.Functions
import ClaimCells.Proofs.Messages

/-!
# Threads that call

Any number of threads make calls from native code. A call is done in one piece up to its signal;
while it waits there, every thread may call, its own too. The past tells of each handle how it
speaks of which variable, and of each thread which of its calls was the last that found no value.

Main result: `last_errors`, the message that is left to a thread is that of this call.
-/

namespace ClaimCells

variable {s t : State} {i : Nat} {op : NativeOp}

/-! ## Callers -/

/-- Where a course comes to first: a state, what it does after the signal that it sends there, and
the reply when it is at its end. -/
def Act.pause : Act Answer → Option (State × Option (State → Act Answer) × Option Reply)
  | done a t => some (t, none, some (.ok a))
  | fail f t => some (t, none, some (.error f))
  | send _ t next => some (t, some next, none)
  | halt .. => none

/-- A thread, and what its calls in progress do after their signals, innermost first. -/
structure Caller where
  thread : Thread := {}
  calls : List (State → Act Answer) := []

/-- A call that was made, with its reply if that came at once. -/
structure PastCall where
  caller : Nat
  op : NativeOp
  reply : Option Reply

/-- Threads that call, what they share, and the calls that they made, newest first. -/
structure Callers where
  state : State
  all : List Caller
  past : List PastCall

namespace Callers

/-- The state as a thread finds it. -/
def view (P : Callers) (i : Nat) (c : Caller) : State :=
  P.state.switch c.thread ((P.all.eraseIdx i).map Caller.thread)

/-- A thread came to another state, with these calls in progress. -/
def went (P : Callers) (i : Nat) (t : State) (calls : List (State → Act Answer)) : Callers :=
  { P with state := t, all := P.all.set i ⟨t.thread, calls⟩ }

/-- What threads come to that begin, make exported calls through live handles, and go on with
them. -/
inductive Reached : Callers → Prop
  | start (build : Build) (profiling : Bool) (environment : Table String Text.Utf8.Bytes)
      (file : FileContent) : Reached ⟨.start build profiling environment file, [{}], []⟩
  | joined {P : Callers} (h : Reached P) :
      Reached ⟨P.state.startThread, P.all ++ [{ thread := P.state.startThread.thread }], P.past⟩
  | called {P : Callers} {i : Nat} {c : Caller} {op : NativeOp} {t : State}
      {next : Option (State → Act Answer)} {reply : Option Reply} (h : Reached P)
      (hc : P.all[i]? = some c) (hop : op.Exported) (hlive : op.Live P.state)
      (hx : ((Op.native op).course (P.view i c)).pause = some (t, next, reply)) :
      Reached { P.went i t (next.toList ++ c.calls) with past := ⟨i, op, reply⟩ :: P.past }
  | resumed {P : Callers} {i : Nat} {c : Caller} {k : State → Act Answer}
      {ks : List (State → Act Answer)} {t : State} {next : Option (State → Act Answer)}
      {reply : Option Reply} (h : Reached P) (hc : P.all[i]? = some c) (hk : c.calls = k :: ks)
      (hx : (k (P.view i c)).pause = some (t, next, reply)) :
      Reached (P.went i t (next.toList ++ ks))

end Callers

/-! ## What the past tells -/

namespace PastCall

/-- The call found no value. -/
def Failed (m : PastCall) : Prop :=
  (∃ h, m.op = .read h ∧ m.reply = some (.ok (.pointer none))) ∨
    ∃ h, m.op = .clear h ∧ m.reply = some (.ok (.flag false))

/-- How the handle with a key speaks of its variable, and the name that this was made with. -/
def handle : List PastCall → String → Option (Access × Option Text.Utf8.Bytes)
  | [], _ => none
  | m :: past, key =>
    match m.op with
    | .create k name _ => if k = some key then some (.locally, name) else handle past key
    | .retain h k =>
      if k = some key then (h.bind (handle past)).map fun x => (.free, x.2) else handle past key
    | .release h => if h = some key then none else handle past key
    | _ => handle past key

/-- The message about a variable without value. -/
def complaint (x : Access × Option Text.Utf8.Bytes) : String :=
  (CellError.unbound x.1 (Action.nativeName x.2)).message

/-- The message that its thread has after the call. -/
def leaves (past : List PastCall) (m : PastCall) (before : Option String) : Option String :=
  match m.op, m.reply with
  | .read h, some (.ok (.pointer none)) | .clear h, some (.ok (.flag false)) =>
    (h.bind (handle past)).map complaint
  | .clearError, _ => none
  | _, _ => before

/-- The message that a thread has. -/
def message (i : Nat) : List PastCall → Option String
  | [] => none
  | m :: past => if m.caller = i then m.leaves past (message i past) else message i past

theorem message_none {past : List PastCall} (h : ∀ m ∈ past, m.caller ≠ i) :
    message i past = none := by
  induction past with
  | nil => rfl
  | cons m past ih =>
    rw [message, if_neg (h m List.mem_cons_self)]
    exact ih fun m hm => h m (List.mem_cons_of_mem _ hm)

/-- Every call that failed went through a handle that was given out. -/
def Traced (past : List PastCall) : Prop :=
  ∀ newer m older, past = newer ++ m :: older → m.Failed →
    ∃ key x, m.op.handle? = some (some key) ∧ handle older key = some x

variable {m : PastCall} {past newer older : List PastCall} {before : Option String}

theorem Failed.leaves {key : String} {x : Access × Option Text.Utf8.Bytes} (h : m.Failed)
    (hm : m.op.handle? = some (some key)) (hx : handle past key = some x) :
    m.leaves past before = some (complaint x) := by
  obtain ⟨caller, op, reply⟩ := m
  obtain ⟨_, rfl, rfl⟩ | ⟨_, rfl, rfl⟩ := h
  · cases hm
    exact congrArg (Option.map complaint) hx
  · cases hm
    exact congrArg (Option.map complaint) hx

theorem leaves_of_not_failed (h : ¬ m.Failed) (hc : m.op ≠ .clearError) :
    m.leaves past before = before := by
  unfold leaves
  split
  · next ho hr => exact absurd (.inl ⟨_, ho, hr⟩) h
  · next ho hr => exact absurd (.inr ⟨_, ho, hr⟩) h
  · next ho => exact absurd ho hc
  · rfl

/-- The last call that failed, and was not cleared since, leaves the message. -/
theorem message_of_last (hm : m.caller = i)
    (hnewer : ∀ m' ∈ newer, m'.caller = i → ¬ m'.Failed ∧ m'.op ≠ .clearError) :
    message i (newer ++ m :: older) = m.leaves older (message i older) := by
  induction newer with
  | nil => exact if_pos hm
  | cons m' newer ih =>
    have ih := ih fun m' h => hnewer m' (List.mem_cons_of_mem _ h)
    rw [List.cons_append, message]
    split
    · next hi =>
      obtain ⟨hf, hc⟩ := hnewer m' List.mem_cons_self hi
      rw [leaves_of_not_failed hf hc, ih]
    · exact ih

/-- Where there is a message there is such a call. -/
theorem exists_of_message (h : message i past ≠ none) : ∃ newer m older,
    past = newer ++ m :: older ∧ m.caller = i ∧ m.Failed ∧
      ∀ m' ∈ newer, m'.caller = i → ¬ m'.Failed ∧ m'.op ≠ .clearError := by
  induction past with
  | nil => exact absurd rfl h
  | cons m past ih =>
    have hcons (hm : m.caller = i → ¬ m.Failed ∧ m.op ≠ .clearError)
        (hp : message i past ≠ none) : ∃ newer m' older, m :: past = newer ++ m' :: older ∧
          m'.caller = i ∧ m'.Failed ∧
          ∀ m' ∈ newer, m'.caller = i → ¬ m'.Failed ∧ m'.op ≠ .clearError := by
      obtain ⟨newer, m', older, rfl, hi, hf, hnewer⟩ := ih hp
      refine ⟨m :: newer, m', older, rfl, hi, hf, fun n hn => ?_⟩
      rcases List.mem_cons.1 hn with rfl | hn
      · exact hm
      · exact hnewer n hn
    rw [message] at h
    split at h
    · next hi =>
      by_cases hf : m.Failed
      · exact ⟨[], m, past, rfl, hi, hf, fun _ hn => absurd hn List.not_mem_nil⟩
      · have hc : m.op ≠ .clearError := fun hc => h (by unfold leaves; rw [hc])
        rw [leaves_of_not_failed hf hc] at h
        exact hcons (fun _ => ⟨hf, hc⟩) h
    · next hi => exact hcons (fun h => absurd h hi) h

/-- A call that failed leaves a message until it is cleared. -/
theorem message_ne_none (ht : Traced (newer ++ m :: older)) (hm : m.caller = i) (hf : m.Failed)
    (hnewer : ∀ m' ∈ newer, m'.caller = i → m'.op ≠ .clearError) :
    message i (newer ++ m :: older) ≠ none := by
  induction newer with
  | nil =>
    obtain ⟨key, x, hkey, hx⟩ := ht [] m older rfl hf
    rw [List.nil_append, message, if_pos hm, hf.leaves hkey hx]
    nofun
  | cons m' newer ih =>
    have ih := ih (fun n m o h => ht (m' :: n) m o (congrArg (m' :: ·) h))
      fun m' h => hnewer m' (List.mem_cons_of_mem _ h)
    rw [List.cons_append, message]
    split
    · next hi =>
      by_cases hf' : m'.Failed
      · obtain ⟨key, x, hkey, hx⟩ := ht [] m' (newer ++ m :: older) rfl hf'
        rw [hf'.leaves hkey hx]
        nofun
      · rwa [leaves_of_not_failed hf' (hnewer m' List.mem_cons_self hi)]
    · exact ih

end PastCall

/-! ## Calls up to their signals -/

/-- What a call has done when it comes to its end or its signal. -/
structure NativeOp.Paused (op : NativeOp) (s t : State) (next : Option (State → Act Answer))
    (reply : Option Reply) : Prop where
  alive : ¬ op.Fatal s
  message : t.thread.lastError = op.message s
  hands : op.Hands s t
  trades : op.Trades s t
  waiting : t.waiting = s.waiting
  ended : t.ended = s.ended
  lasting : Lasting s t
  sound : Sound [] t
  unlocked : t.Locked []
  next : ∀ k ∈ next, ∀ u, k u = .done (op.answer s) u.returned
  answer : ∀ r ∈ reply, r = .ok (op.answer s)
  signal : reply = none → op.Releases s

/-- A course leads by moves to where it comes to first. -/
theorem Act.Does.paused {x : Act Answer} {Q : Post Answer} {next : Option (State → Act Answer)}
    {reply : Option Reply} (h : x.Does Q [] [] s) (hQ : ∀ ds l r s', Q ds l r s' → l = [])
    (hx : x.pause = some (t, next, reply)) : ∃ ds, Moves [] s ds [] t := by
  cases x with
  | done a u | fail f u =>
    obtain ⟨ds, l, m, hq⟩ := h
    cases hx
    obtain rfl := hQ _ _ _ _ hq
    exact ⟨ds, m⟩
  | send g u k =>
    obtain ⟨ds, m, -⟩ := h
    cases hx
    exact ⟨ds, m⟩
  | halt => cases hx

/-- And no lock is held there. -/
theorem Act.Holds.paused {x : Act Answer} {W : Signal → List SlotId}
    {next : Option (State → Act Answer)} {reply : Option Reply} (h : x.Holds True W [] s)
    (hW : ∀ g, W g = []) (hx : x.pause = some (t, next, reply)) : t.Locked [] := by
  cases x with
  | done => cases hx; exact h.1
  | fail => cases hx; exact h.1.1
  | send g =>
    cases hx
    have hlocked := h.1.1
    rwa [hW g] at hlocked
  | halt => cases hx

theorem NativeOp.Hands.returned (h : op.Hands s t) : op.Hands s t.returned := by
  cases op <;> exact h

theorem NativeOp.Trades.returned (h : op.Trades s t) : op.Trades s t.returned := by
  have htraded {vs o} (h : s.Traded vs o t) : s.Traded vs o t.returned :=
    ⟨h.slots, h.kept, h.givenUp⟩
  cases op with
  | create => exact htraded h
  | assign | clear =>
    obtain ⟨c, hc, h⟩ := h
    exact ⟨c, hc, htraded h⟩
  | release =>
    obtain ⟨c, hc, h⟩ := h
    refine ⟨c, hc, ?_⟩
    split at h
    · next hone =>
      rw [if_pos hone]
      exact htraded h
    · next hone =>
      rw [if_neg hone]
      exact htraded h
  | _ => exact htraded h

/-- **How a call comes to its end or its signal.** -/
theorem course_paused {next : Option (State → Act Answer)} {reply : Option Reply}
    (hs : Sound [] s) (hu : s.Locked []) (hop : op.Exported) (hlive : op.Live s)
    (hx : ((Op.native op).course s).pause = some (t, next, reply)) :
    op.Paused s t next reply := by
  have hgoes := course_exported hs hu hop hlive
  have hholds : ((Op.native op).course s).Holds True _ [] s :=
    course_holds hs hu fun _ _ _ => trivial
  obtain ⟨ds, m⟩ := (Action.performing_does (.native op) hs).paused (fun _ _ _ _ h => h.1) hx
  have halive : ¬ op.Fatal s := fun hf => by
    obtain ⟨p, u, hu⟩ := hgoes.halts hf
    rw [hu] at hx
    cases hx
  have hrest (hm : t.thread.lastError = op.message s) (hh : op.Hands s t) (htr : op.Trades s t)
      (hnext : ∀ k ∈ next, ∀ u, k u = .done (op.answer s) u.returned)
      (hreply : ∀ r ∈ reply, r = .ok (op.answer s)) (hsig : reply = none → op.Releases s) :
      op.Paused s t next reply :=
    { alive := halive, message := hm, hands := hh, trades := htr, waiting := m.waiting.1
      ended := m.waiting.2, lasting := m.lasting, sound := m.sound hs, next := hnext
      answer := hreply, signal := hsig
      unlocked := hholds.paused (Op.window_eq_nil hop.not_readsOwned) hx }
  obtain ⟨_ | g, u, hu, hleaves⟩ | ⟨-, u, hu⟩ := hgoes.answers halive
  · rw [show (Op.native op).course s = _ from hu] at hx
    cases hx
    exact hrest hleaves.message hleaves.hands.returned hleaves.trades.returned nofun (by simp) nofun
  · rw [show (Op.native op).course s = _ from hu] at hx
    cases hx
    refine hrest hleaves.message hleaves.hands hleaves.trades ?_ nofun fun _ => hleaves.signal rfl
    rintro _ ⟨⟩
    exact fun _ => rfl
  · rw [hu] at hx
    cases hx

/-! ## Handles in the past -/

variable {past : List PastCall} {key : String} {kept : Option String} {c c' : Cell}

theorem State.behind_some : s.behind (some key) = some c ↔ ∃ k, s.Reaches key k c := by
  rw [State.behind, Option.bind_some]
  exact Option.bind_eq_some_iff

/-- After a handle was given out, a key leads to that one or where it did. -/
theorem State.Gives.behind (hy : ∀ key k, s.handleKeys.get? key = some k → k < s.next)
    (hg : s.Gives kept c t) :
    (∀ key k, t.handleKeys.get? key = some k → k < t.next) ∧
    ∀ key c', t.behind (some key) = some c' →
      kept = some key ∧ c' = c ∨ kept ≠ some key ∧ s.behind (some key) = some c' := by
  obtain ⟨k, hle, hlt, hhandles, hkeys⟩ := hg
  have hkey : ∀ key k', t.handleKeys.get? key = some k' →
      kept = some key ∧ k' = k ∨ kept ≠ some key ∧ s.handleKeys.get? key = some k' := by
    intro key k' hk'
    rw [hkeys] at hk'
    cases kept with
    | none => exact .inr ⟨nofun, hk'⟩
    | some key' =>
      change (s.handleKeys.insert key' k).get? key = some k' at hk'
      rw [Table.get?_insert] at hk'
      split at hk'
      · next he => exact .inl ⟨congrArg some he.symm, (Option.some.inj hk').symm⟩
      · next he => exact .inr ⟨fun h => he (Option.some.inj h).symm, hk'⟩
  refine ⟨fun key k' hk' => ?_, fun key c' hb => ?_⟩
  · obtain ⟨-, rfl⟩ | ⟨-, hold⟩ := hkey key k' hk'
    · exact hlt
    · exact ((hy key k' hold).trans_le hle).trans hlt
  · obtain ⟨k', hk', hc'⟩ := State.behind_some.1 hb
    rw [hhandles] at hc'
    obtain ⟨he, rfl⟩ | ⟨he, hold⟩ := hkey key k' hk'
    · rw [Table.get?_insert_self] at hc'
      exact .inl ⟨he, (Option.some.inj hc').symm⟩
    · rw [Table.get?_insert_ne _ _ ((hy key k' hold).trans_le hle).ne] at hc'
      exact .inr ⟨he, State.behind_some.2 ⟨k', hold, hc'⟩⟩

/-- Why a key leads to a cell after a call: the call gave out the handle, or the key led there
before and was not taken away. -/
def NativeOp.Led (s : State) (key : String) (c : Cell) : NativeOp → Prop
  | .create kept _ _ => kept = some key ∧ c = .handle s.next .locally ∨
    kept ≠ some key ∧ s.behind (some key) = some c
  | .retain h kept => (kept = some key ∧ ∃ parent, s.behind h = some parent ∧
      c = .handle parent.slot .free) ∨ kept ≠ some key ∧ s.behind (some key) = some c
  | .release h => h ≠ some key ∧ s.behind (some key) = some c
  | _ => s.behind (some key) = some c

/-- Where keys lead after a call. -/
theorem NativeOp.Paused.led {next : Option (State → Act Answer)} {reply : Option Reply}
    (hp : op.Paused s t next reply) (hy : ∀ key k, s.handleKeys.get? key = some k → k < s.next) :
    (∀ key k, t.handleKeys.get? key = some k → k < t.next) ∧
    ∀ key c, t.behind (some key) = some c → op.Led s key c := by
  have hsame (hh : t.handles = s.handles ∧ t.handleKeys = s.handleKeys) :
      (∀ key k, t.handleKeys.get? key = some k → k < t.next) ∧
      ∀ key c, t.behind (some key) = some c → s.behind (some key) = some c := by
    refine ⟨fun key k hk => (hy key k (hh.2 ▸ hk)).trans_le hp.lasting.next, fun key c hb => ?_⟩
    rwa [State.behind, hh.1, hh.2] at hb
  have hhands := hp.hands
  cases op with
  | create kept name o => exact hhands.behind hy
  | retain handle kept =>
    obtain ⟨parent, hparent, hg⟩ := hhands
    obtain ⟨hyoung, hkeys⟩ := hg.behind hy
    exact ⟨hyoung, fun key c hb => (hkeys key c hb).imp_left fun h => ⟨h.1, parent, hparent, h.2⟩⟩
  | release handle =>
    obtain ⟨key₀, k₀, rfl, hk₀, hhandles, hkeys⟩ := hhands
    have hkey : ∀ key k, t.handleKeys.get? key = some k →
        key₀ ≠ key ∧ s.handleKeys.get? key = some k := by
      intro key k hk
      rw [hkeys, Table.get?_erase] at hk
      split at hk
      · cases hk
      · next hne => exact ⟨fun he => hne he.symm, hk⟩
    refine ⟨fun key k hk => (hy key k (hkey key k hk).2).trans_le hp.lasting.next,
      fun key c hb => ?_⟩
    obtain ⟨k, hk, hc⟩ := State.behind_some.1 hb
    obtain ⟨hne, hold⟩ := hkey key k hk
    rw [hhandles, Table.get?_erase] at hc
    split at hc
    · cases hc
    · exact ⟨fun he => hne (Option.some.inj he), State.behind_some.2 ⟨k, hold, hc⟩⟩
  | _ => exact hsame hhands

/-- The past tells how the handles speak that have a key, and of which variable. -/
structure State.Recalls (s : State) (past : List PastCall) : Prop where
  young : ∀ key k, s.handleKeys.get? key = some k → k < s.next
  handles : ∀ key c, s.behind (some key) = some c → ∃ v name,
    s.slots.get? c.slot = some v ∧ v.name = Action.nativeName name ∧
      PastCall.handle past key = some (c.access, name)

namespace State.Recalls

/-- A handle that was there before leads to a variable of the same name. -/
theorem before (h : s.Recalls past) (hs : Sound [] s) (ht : Sound [] t) (hl : Lasting s t)
    (hb : s.behind (some key) = some c) (hb' : t.behind (some key) = some c) : ∃ v name,
    t.slots.get? c.slot = some v ∧ v.name = Action.nativeName name ∧
      PastCall.handle past key = some (c.access, name) := by
  obtain ⟨v, name, hv, hn, hh⟩ := h.handles key c hb
  obtain ⟨k, -, hk⟩ := State.behind_some.1 hb'
  obtain ⟨v', hlent⟩ := ht.lent hk
  obtain ⟨v₀, hv₀, -, -, hname⟩ := hl.slots c.slot v' (hs.youngSlots _ _ hv) hlent.slot
  cases hv.symm.trans hv₀
  exact ⟨v', name, hlent.slot, hname.symm.trans hn, hh⟩

theorem called {next : Option (State → Act Answer)} {reply : Option Reply} (h : s.Recalls past)
    (hs : Sound [] s) (hp : op.Paused s t next reply) : t.Recalls (⟨i, op, reply⟩ :: past) := by
  obtain ⟨hyoung, hled⟩ := hp.led h.young
  refine ⟨hyoung, fun key c hb => ?_⟩
  have hkept (hold : s.behind (some key) = some c)
      (hpast : PastCall.handle (⟨i, op, reply⟩ :: past) key = PastCall.handle past key) :
      ∃ v name, t.slots.get? c.slot = some v ∧ v.name = Action.nativeName name ∧
        PastCall.handle (⟨i, op, reply⟩ :: past) key = some (c.access, name) := by
    rw [hpast]
    exact h.before hs hp.sound hp.lasting hold hb
  have hkey := hled key c hb
  have htrades := hp.trades
  cases op with
  | create kept name o =>
    obtain ⟨rfl, rfl⟩ | ⟨hne, hold⟩ := hkey
    · have hslot := Table.get?_insert_self s.slots s.next
        ⟨.native, .shared, Action.nativeName name, if o = 0 then none else some o⟩
      rw [← htrades.slots] at hslot
      exact ⟨_, name, hslot, rfl, if_pos rfl⟩
    · exact hkept hold (if_neg hne)
  | retain handle kept =>
    obtain ⟨rfl, parent, hparent, rfl⟩ | ⟨hne, hold⟩ := hkey
    · cases handle with
      | none => cases hparent
      | some key' =>
        obtain ⟨v, name, hv, hn, hh⟩ := h.handles key' parent hparent
        obtain ⟨k, -, hk⟩ := State.behind_some.1 hb
        obtain ⟨v', hlent⟩ := hp.sound.lent hk
        obtain ⟨v₀, hv₀, -, -, hname⟩ :=
          hp.lasting.slots parent.slot v' (hs.youngSlots _ _ hv) hlent.slot
        cases hv.symm.trans hv₀
        have hpast : PastCall.handle (⟨i, .retain (some key') (some key), reply⟩ :: past) key =
            (PastCall.handle past key').map fun x => (.free, x.2) := if_pos rfl
        refine ⟨v', name, hlent.slot, hname.symm.trans hn, ?_⟩
        rw [hpast, hh]
        rfl
    · exact hkept hold (if_neg hne)
  | release handle => exact hkept hkey.2 (if_neg hkey.1)
  | _ => exact hkept hkey rfl

/-- What is said of a variable without value, as the past tells it. -/
theorem complaint {h : Option String} (hr : s.Recalls past)
    (hlive : ∀ key, h = some key → ∃ k c, s.Reaches key k c) (hn : h ≠ none) :
    ∃ x, h.bind (PastCall.handle past) = some x ∧ s.complaint h =
      if (s.objectBehind h).isSome then none else some (PastCall.complaint x) := by
  obtain ⟨key, rfl⟩ := Option.ne_none_iff_exists'.1 hn
  obtain ⟨k, c, hk⟩ := hlive key rfl
  have hb := State.behind_some.2 ⟨k, hk⟩
  obtain ⟨v, name, hv, hname, hh⟩ := hr.handles key c hb
  refine ⟨_, hh, ?_⟩
  simp only [State.complaint, State.objectBehind, State.slotBehind, hb, Option.bind_eq_bind,
    Option.bind_some, hv, hname, Action.nativeText_unbound]
  cases v.value <;> rfl

/-- The message after a call is the one that the past tells of. -/
theorem leaves {next : Option (State → Act Answer)} {reply : Option Reply} (h : s.Recalls past)
    (hlive : op.Live s) (hp : op.Paused s t next reply) :
    PastCall.leaves past ⟨i, op, reply⟩ s.thread.lastError = op.message s ∧
      (PastCall.Failed ⟨i, op, reply⟩ →
        ∃ key x, op.handle? = some (some key) ∧ PastCall.handle past key = some x) := by
  have hfound (handle : Option String) (hop : op.handle? = some handle) :
      ∃ key x, handle = some key ∧ PastCall.handle past key = some x ∧ s.complaint handle =
        if (s.objectBehind handle).isSome then none else some (PastCall.complaint x) := by
    obtain ⟨x, hx, hc⟩ := h.complaint (fun key hkey => hlive key (hkey ▸ hop)) fun hnone =>
      hp.alive (.inl (hnone ▸ hop))
    obtain ⟨key, rfl, hkey⟩ := Option.bind_eq_some_iff.1 hx
    exact ⟨key, x, rfl, hkey, hc⟩
  have hanswer := hp.answer
  have hsignal := hp.signal
  cases op with
  | read handle =>
    obtain ⟨key, x, rfl, hx, hc⟩ := hfound handle rfl
    obtain ⟨r, rfl⟩ := Option.ne_none_iff_exists'.1 hsignal
    obtain rfl := hanswer r rfl
    refine ⟨?_, fun _ => ⟨key, x, rfl, hx⟩⟩
    rw [NativeOp.answer, NativeOp.message, hc]
    cases s.objectBehind (some key) with
    | none => exact congrArg (Option.map PastCall.complaint) hx
    | some o => rfl
  | clear handle =>
    obtain ⟨key, x, rfl, hx, hc⟩ := hfound handle rfl
    refine ⟨?_, fun _ => ⟨key, x, rfl, hx⟩⟩
    rw [NativeOp.message, hc]
    cases ho : s.objectBehind (some key) with
    | none =>
      obtain ⟨r, rfl⟩ := Option.ne_none_iff_exists'.1 fun hr => by
        have hreleases := hsignal hr
        rw [NativeOp.Releases, ho] at hreleases
        cases hreleases
      obtain rfl := hanswer r rfl
      rw [NativeOp.answer, ho]
      exact congrArg (Option.map PastCall.complaint) hx
    | some o =>
      cases reply with
      | none => rfl
      | some r =>
        obtain rfl := hanswer r rfl
        rw [NativeOp.answer, ho]
        rfl
  | _ => exact ⟨rfl, by rintro (⟨_, ⟨⟩, _⟩ | ⟨_, ⟨⟩, _⟩)⟩

end State.Recalls

/-! ## What callers keep -/

namespace Callers

/-- The threads are those of the state, no lock is held, and past, handles and messages agree. -/
structure Sound (P : Callers) : Prop where
  threads : (P.state.thread :: P.state.waiting).Perm (P.all.map Caller.thread)
  sound : ClaimCells.Sound [] P.state
  unlocked : P.state.Locked []
  calls : ∀ c ∈ P.all, ∀ k ∈ c.calls, ∃ a, ∀ u, k u = .done a u.returned
  recalls : P.state.Recalls P.past
  callers : ∀ m ∈ P.past, m.caller < P.all.length
  messages : ∀ i c, P.all[i]? = some c → c.thread.lastError = PastCall.message i P.past
  traced : PastCall.Traced P.past

variable {P : Callers} {c : Caller}

/-- The running thread and the others are all threads. -/
theorem perm_view (hc : P.all[i]? = some c) :
    (c.thread :: (P.all.eraseIdx i).map Caller.thread).Perm (P.all.map Caller.thread) := by
  obtain ⟨hi, rfl⟩ := List.getElem?_eq_some_iff.1 hc
  exact (List.getElem_cons_eraseIdx_perm hi).map Caller.thread

theorem perm_went (hc : P.all[i]? = some c) (hw : t.waiting = (P.view i c).waiting)
    (calls : List (State → Act Answer)) :
    (t.thread :: t.waiting).Perm ((P.went i t calls).all.map Caller.thread) := by
  obtain ⟨hi, -⟩ := List.getElem?_eq_some_iff.1 hc
  rw [hw]
  exact ((List.set_perm_cons_eraseIdx hi ⟨t.thread, calls⟩).map Caller.thread).symm

/-- Only the thread that went on changed. -/
theorem went_some {j : Nat} {c' : Caller} {calls : List (State → Act Answer)}
    (h : (P.went i t calls).all[j]? = some c') :
    i = j ∧ c' = ⟨t.thread, calls⟩ ∨ i ≠ j ∧ P.all[j]? = some c' := by
  change (P.all.set i _)[j]? = _ at h
  rw [List.getElem?_set] at h
  split at h
  · next hij =>
    split at h
    · exact .inl ⟨hij, (Option.some.inj h).symm⟩
    · cases h
  · next hij => exact .inr ⟨hij, h⟩

namespace Sound

theorem view (h : P.Sound) (hc : P.all[i]? = some c) : ClaimCells.Sound [] (P.view i c) :=
  h.sound.switch ((perm_view hc).trans h.threads.symm)

theorem joined (h : P.Sound) :
    Sound ⟨P.state.startThread, P.all ++ [{ thread := P.state.startThread.thread }], P.past⟩ where
  threads := by
    rw [List.map_append]
    exact (List.Perm.cons _ h.threads).trans (List.perm_append_singleton _ _).symm
  sound := h.sound.startThread
  unlocked := h.unlocked.same rfl
  calls c hc := by
    rcases List.mem_append.1 hc with hc | hc
    · exact h.calls c hc
    · rw [List.mem_singleton.1 hc]
      exact nofun
  recalls := ⟨h.recalls.young, h.recalls.handles⟩
  callers m hm := by
    rw [List.length_append]
    exact (h.callers m hm).trans (Nat.lt_succ_self _)
  messages i c hc := by
    rw [List.getElem?_append] at hc
    split at hc
    · exact h.messages i c hc
    · next hi =>
      rw [List.getElem?_singleton] at hc
      split at hc
      · cases hc
        exact (PastCall.message_none fun m hm he => hi (by rw [← he]; exact h.callers m hm)).symm
      · cases hc
  traced := h.traced

/-- A thread that calls. -/
theorem called {next : Option (State → Act Answer)} {reply : Option Reply} (h : P.Sound)
    (hc : P.all[i]? = some c) (hlive : op.Live P.state)
    (hp : op.Paused (P.view i c) t next reply) :
    Sound { P.went i t (next.toList ++ c.calls) with past := ⟨i, op, reply⟩ :: P.past } := by
  have hrecalls : (P.view i c).Recalls P.past := ⟨h.recalls.young, h.recalls.handles⟩
  obtain ⟨hi, -⟩ := List.getElem?_eq_some_iff.1 hc
  have hlive' : op.Live (P.view i c) := hlive
  obtain ⟨hleaves, hfailed⟩ := hrecalls.leaves (i := i) hlive' hp
  exact
    { threads := perm_went hc hp.waiting _
      sound := hp.sound
      unlocked := hp.unlocked
      calls := by
        intro c' hc' k hk
        rcases List.mem_or_eq_of_mem_set hc' with hc' | rfl
        · exact h.calls c' hc' k hk
        · rcases List.mem_append.1 hk with hk | hk
          · exact ⟨_, hp.next k (Option.mem_toList.1 hk)⟩
          · exact h.calls c (List.mem_of_getElem? hc) k hk
      recalls := hrecalls.called (h.view hc) hp
      callers := by
        intro m hm
        show m.caller < (P.all.set i _).length
        rw [List.length_set]
        rcases List.mem_cons.1 hm with rfl | hm
        · exact hi
        · exact h.callers m hm
      messages := by
        intro j c' hc'
        rcases went_some hc' with ⟨rfl, rfl⟩ | ⟨hne, hj⟩
        · have hbefore : PastCall.message i P.past = (P.view i c).thread.lastError :=
            (h.messages i c hc).symm
          show t.thread.lastError = if i = i then _ else _
          rw [if_pos rfl, hbefore, hleaves, hp.message]
        · show c'.thread.lastError = if i = j then _ else _
          rw [if_neg hne]
          exact h.messages j c' hj
      traced := by
        intro newer m older hpast hm
        cases newer with
        | nil =>
          cases hpast
          exact hfailed hm
        | cons m' newer => exact h.traced newer m older (List.cons.inj hpast).2 hm }

/-- A thread that goes on with a call. -/
theorem resumed {k : State → Act Answer} {ks : List (State → Act Answer)}
    {next : Option (State → Act Answer)} {reply : Option Reply} (h : P.Sound)
    (hc : P.all[i]? = some c) (hk : c.calls = k :: ks)
    (hx : (k (P.view i c)).pause = some (t, next, reply)) :
    Sound (P.went i t (next.toList ++ ks)) := by
  obtain ⟨a, ha⟩ := h.calls c (List.mem_of_getElem? hc) k (hk ▸ List.mem_cons_self)
  rw [ha] at hx
  cases hx
  have hret : Aside (P.view i c) (P.view i c).returned := .silent rfl rfl
  exact
    { threads := perm_went (t := (P.view i c).returned) hc rfl _
      sound := (Move.aside hret).sound (h.view hc)
      unlocked := h.unlocked.same rfl
      calls := by
        intro c' hc' k' hk'
        rcases List.mem_or_eq_of_mem_set hc' with hc' | rfl
        · exact h.calls c' hc' k' hk'
        · exact h.calls c (List.mem_of_getElem? hc) k' (hk ▸ List.mem_cons_of_mem _ hk')
      recalls := ⟨h.recalls.young, h.recalls.handles⟩
      callers := by
        intro m hm
        show m.caller < (P.all.set i _).length
        rw [List.length_set]
        exact h.callers m hm
      messages := by
        intro j c' hc'
        rcases went_some hc' with ⟨rfl, rfl⟩ | ⟨-, hj⟩
        · exact h.messages i c hc
        · exact h.messages j c' hj
      traced := h.traced }

end Sound

theorem Reached.sound (h : P.Reached) : P.Sound := by
  induction h with
  | start =>
    exact
      { threads := .refl _
        sound := .start _ _ _ _
        unlocked := ⟨nofun, nofun, nofun⟩
        calls := fun c hc => by
          rw [List.mem_singleton.1 hc]
          exact nofun
        recalls := ⟨nofun, nofun⟩
        callers := fun _ hm => absurd hm List.not_mem_nil
        messages := fun i c hc => by
          rw [List.getElem?_singleton] at hc
          split at hc <;> cases hc
          rfl
        traced := fun newer m older hpast => by cases newer <;> cases hpast }
  | joined _ ih => exact ih.joined
  | called _ hc hop hlive hx ih =>
    exact ih.called hc hlive (course_paused (ih.view hc) (ih.unlocked.same rfl) hop hlive hx)
  | resumed _ hc hk hx ih => exact ih.resumed hc hk hx

end Callers

/-! ## The last error -/

/-- **The message of a thread** tells of its last call that found no value, since it began or cleared
it, and there is none without such a call. The message speaks of the variable as the handle of that
call did, which speaks of a free variable if it was retained and of a local one if it came with the
variable, and names it as it was made. -/
theorem last_errors {P : Callers} {c : Caller} (h : P.Reached) (hc : P.all[i]? = some c) :
    (Op.native .lastError).course (P.view i c) =
      .done (c.thread.lastError.elim .nothing .text) (P.view i c) ∧
    (c.thread.lastError = none ↔ ∀ newer m older, P.past = newer ++ m :: older → m.caller = i →
      m.Failed → ∃ m' ∈ newer, m'.caller = i ∧ m'.op = .clearError) ∧
    ∀ newer m older, P.past = newer ++ m :: older → m.caller = i → m.Failed →
      (∀ m' ∈ newer, m'.caller = i → ¬ m'.Failed ∧ m'.op ≠ .clearError) →
      ∃ key a name, m.op.handle? = some (some key) ∧
        PastCall.handle older key = some (a, name) ∧
        c.thread.lastError = some (CellError.unbound a (Action.nativeName name)).message := by
  have hsound := h.sound
  have hmessage := hsound.messages i c hc
  refine ⟨?_, ⟨fun hnone newer m older hpast hm hf => ?_, fun hall => ?_⟩, ?_⟩
  · have hcall : Action.callNative .lastError (P.view i c).calling =
        .done (c.thread.lastError.elim .nothing .text) (P.view i c).calling := by
      have hlast : (P.view i c).calling.thread.lastError = c.thread.lastError := rfl
      rw [Action.callNative, Action.bind_apply, Action.thread_apply, Action.done_bind, hlast]
      cases c.thread.lastError <;> rfl
    exact Action.unwinding_done (Action.nativeCall_done hcall)
  · by_contra hclear
    push Not at hclear
    refine PastCall.message_ne_none (hpast ▸ hsound.traced) hm hf hclear ?_
    rw [← hpast, ← hmessage, hnone]
  · by_contra hsome
    rw [hmessage] at hsome
    obtain ⟨newer, m, older, hpast, hm, hf, hnewer⟩ := PastCall.exists_of_message hsome
    obtain ⟨m', hm', hi, hc'⟩ := hall newer m older hpast hm hf
    exact (hnewer m' hm' hi).2 hc'
  · intro newer m older hpast hm hf hnewer
    obtain ⟨key, ⟨a, name⟩, hkey, hx⟩ := hsound.traced newer m older hpast hf
    refine ⟨key, a, name, hkey, hx, ?_⟩
    rw [hmessage, hpast, PastCall.message_of_last hm hnewer, hf.leaves hkey hx]
    rfl

/-- A read through the first handle of a cell that was made without a name and without a value. -/
theorem last_errors_unnamed : ∃ (P : Callers) (c : Caller), P.Reached ∧ P.all[0]? = some c ∧
    c.thread.lastError = some "local variable '<unnamed>' referenced before assignment" := by
  have h0 : Callers.Reached _ := .start .plain false {} none
  have h1 := h0.called (i := 0) (c := {}) rfl
    (show NativeOp.Exported (.create (some "") none 0) from trivial) nofun
    (show Act.pause _ = some (_, none, some (.ok .nothing)) from rfl)
  have hlive {s : State} (hk : s.handleKeys.get? "" = some 1)
      (hc : s.handles.get? 1 = some (.handle 0 .locally)) : NativeOp.Live s (.read (some "")) :=
    fun _ h => by
      cases h
      exact ⟨1, _, hk, hc⟩
  have h2 := h1.called (i := 0) rfl (show NativeOp.Exported (.read (some "")) from trivial)
    (hlive rfl rfl) (show Act.pause _ = some (_, none, some (.ok (.pointer none))) from rfl)
  refine ⟨_, _, h2, rfl, ?_⟩
  obtain ⟨_, a, name, ⟨⟩, ha, hlast⟩ :=
    (last_errors h2 (i := 0) rfl).2.2 [] _ _ rfl rfl (.inl ⟨_, rfl, rfl⟩)
      fun _ hm => absurd hm List.not_mem_nil
  cases ha
  exact hlast

end ClaimCells
