import ClaimCells.Proofs.Ownership

/-!
# What an action does

`x.Does Q ds l s` says what the course `x` does that is begun in the state `s`, with the cells `l`
in the arms, after the deeds `ds`: up to each signal, and from there on, it makes nothing but
moves, and where it ends `Q` holds of all its deeds, the arms, the result and the state.

**At a signal.** A script may run while an action waits to be resumed. The action holds no cell in
its arms then, and goes on from any state that is `Onward`: nobody else touches what it has in its
hands, nor a kept cell that it uses.

Main results: the rules `Does.seq` and `Does.tried`, and `Does.settle`: what a course does holds
of every run of it in which scripts are lawful.
-/

namespace ClaimCells

variable {α β : Type}

/-! ## Between signals -/

/-- The later state has the waiting threads, and the kept cells in use, of the earlier one, and
none that was given up before. -/
structure Onward (s s' : State) : Prop where
  lasting : Lasting s s'
  waiting : s'.waiting = s.waiting
  build : s'.build = s.build
  used : ∀ k e, s.thread.kept.get? k = some e → e.users ≠ 0 → s'.thread.kept.get? k = some e
  gone : ∀ k, k < s.next → s.thread.kept.get? k = none → s'.thread.kept.get? k = none

/-- Leads onward and leaves these claims in the hands. -/
structure Came (s : State) (hands : List Claim) (s' : State) : Prop extends Onward s s' where
  hands : s'.thread.hands = hands

variable {s s' s'' : State} {l l' : List Cell} {ds ds' : List Deed} {H H' : List Claim}

theorem Onward.refl (s : State) : Onward s s :=
  ⟨.refl s, rfl, rfl, fun _ _ h _ => h, fun _ _ h => h⟩

theorem Onward.trans (h : Onward s s') (h' : Onward s' s'') : Onward s s'' where
  lasting := h.lasting.trans h'.lasting
  waiting := h'.waiting.trans h.waiting
  build := h'.build.trans h.build
  used k e he hu := h'.used k e (h.used k e he hu) hu
  gone k hk hn := h'.gone k (hk.trans_le h.lasting.next) (h.gone k hk hn)

theorem Came.refl (s : State) : Came s s.thread.hands s :=
  ⟨.refl s, rfl⟩

theorem Came.trans (h : Came s H s') (h' : Came s' H' s'') : Came s H' s'' :=
  ⟨h.toOnward.trans h'.toOnward, h'.hands⟩

theorem Came.stay (h : Came s H s') (h' : Came s' s'.thread.hands s'') : Came s H s'' :=
  ⟨h.toOnward.trans h'.toOnward, h'.hands.trans h.hands⟩

/-- Moves that leave the table of kept cells alone lead onward. -/
theorem Moves.onward (m : Moves l s ds l' s') (hk : s'.thread.kept = s.thread.kept) :
    Onward s s' :=
  ⟨m.lasting, m.waiting.1, m.build, fun k e he _ => by rw [hk]; exact he,
    fun k _ hn => by rw [hk]; exact hn⟩

theorem Move.came (m : Move l s ds l' s') (hk : s'.thread.kept = s.thread.kept)
    (hh : s'.thread.hands = H) : Came s H s' :=
  ⟨(Moves.single m).onward hk, hh⟩

theorem Aside.came (h : Aside s s') : Came s s.thread.hands s' :=
  Move.came (.aside (l := []) h) h.kept h.hands

/-- An event that tells nothing of a cell. -/
theorem Aside.emit (s : State) (e : Event) (h : ∀ w, (Entry.event e w).idle = true) :
    Aside s (s.emit e) :=
  .noting rfl (List.singleton_append).symm fun e' he => by rw [List.mem_singleton.1 he]; exact h _

/-! ## Courses -/

/-- What holds of the deeds, the arms, the result and the state at an end. -/
abbrev Post (α : Type) := List Deed → List Cell → Except Failure α → State → Prop

/-- What a course does. -/
def Act.Does (Q : Post α) : List Deed → List Cell → State → Act α → Prop
  | ds, l, s, done a t => ∃ ds' l', Moves l s ds' l' t ∧ Q (ds ++ ds') l' (.ok a) t
  | ds, l, s, fail f t => ∃ ds' l', Moves l s ds' l' t ∧ Q (ds ++ ds') l' (.error f) t
  | _, _, _, halt _ _ => True
  | ds, l, s, send _ t next => ∃ ds', Moves l s ds' [] t ∧
      ∀ t', Came t t.thread.hands t' → Sound [] t' → Does Q (ds ++ ds') [] t' (next t')

namespace Act.Does

variable {Q Q' : Post α} {x : Act α}

theorem done {a : α} (h : Q ds l (.ok a) s) : Does Q ds l s (.done a s) :=
  ⟨[], l, .refl l s, by rwa [List.append_nil]⟩

theorem fail {f : Failure} (h : Q ds l (.error f) s) : Does Q ds l s (.fail f s) :=
  ⟨[], l, .refl l s, by rwa [List.append_nil]⟩

theorem send {g : Signal} {next : State → Act α}
    (h : ∀ s', Came s s.thread.hands s' → Sound [] s' → Does Q ds [] s' (next s')) :
    Does Q ds [] s (.send g s next) :=
  ⟨[], .refl [] s, fun s' hc hs => by rw [List.append_nil]; exact h s' hc hs⟩

/-- Moves come first. -/
theorem after (m : Moves l s ds' l' s') (h : Does Q (ds ++ ds') l' s' x) : Does Q ds l s x := by
  cases x with
  | done a t | fail f t =>
    obtain ⟨ds'', l'', m', hq⟩ := h
    exact ⟨ds' ++ ds'', l'', m.trans m', by rwa [← List.append_assoc]⟩
  | halt => trivial
  | send g t next =>
    obtain ⟨ds'', m', hn⟩ := h
    refine ⟨ds' ++ ds'', m.trans m', fun t' hc hs => ?_⟩
    rw [← List.append_assoc]
    exact hn t' hc hs

theorem move (m : Move l s ds' l' s') (h : Does Q (ds ++ ds') l' s' x) : Does Q ds l s x :=
  after (.single m) h

/-- A move without deeds comes first. -/
theorem idle (m : Move l s [] l' s') (h : Does Q ds l' s' x) : Does Q ds l s x :=
  move m (by rwa [List.append_nil])

theorem imp (h : Does Q ds l s x) (hq : ∀ ds l r s, Q ds l r s → Q' ds l r s) :
    Does Q' ds l s x := by
  induction x generalizing ds l s with
  | done a t | fail f t =>
    obtain ⟨ds', l', m, h'⟩ := h
    exact ⟨ds', l', m, hq _ _ _ t h'⟩
  | halt => trivial
  | send g t next ih =>
    obtain ⟨ds', m, hn⟩ := h
    exact ⟨ds', m, fun t' hc ht => ih t' (hn t' hc ht)⟩

/-- Where a course ends the tables of cells agree. -/
theorem bind {k : α → State → Act β} {R : Post β} (hs : Sound l s) (h : Does Q ds l s x)
    (hk : ∀ ds l a s, Sound l s → Q ds l (.ok a) s → Does R ds l s (k a s))
    (hf : ∀ ds l f s, Sound l s → Q ds l (.error f) s → R ds l (.error f) s) :
    Does R ds l s (x.bind k) := by
  induction x generalizing ds l s with
  | done a t =>
    obtain ⟨ds', l', m, hq⟩ := h
    exact after m (hk _ _ a t (m.sound hs) hq)
  | fail f t =>
    obtain ⟨ds', l', m, hq⟩ := h
    exact ⟨ds', l', m, hf _ _ f t (m.sound hs) hq⟩
  | halt => trivial
  | send g t next ih =>
    obtain ⟨ds', m, hn⟩ := h
    exact ⟨ds', m, fun t' hc ht => ih t' ht (hn t' hc ht)⟩

/-- Actions one after the other. -/
theorem seq {a : Action α} {k : α → Action β} {R : Post β} (hs : Sound l s)
    (h : Does Q ds l s (a s))
    (hk : ∀ ds l x s, Sound l s → Q ds l (.ok x) s → Does R ds l s (k x s))
    (hf : ∀ ds l f s, Sound l s → Q ds l (.error f) s → R ds l (.error f) s) :
    Does R ds l s ((a >>= k) s) :=
  bind hs h hk hf

/-- An action after one that may fail. -/
theorem tried {a : Action α} {k : Except Failure α → Action β} {R : Post β} (hs : Sound l s)
    (h : Does Q ds l s (a s))
    (hk : ∀ ds l r s, Sound l s → Q ds l r s → Does R ds l s (k r s)) :
    Does R ds l s ((Action.attempt a >>= k) s) := by
  show Does R ds l s ((a s).attempt.bind k)
  generalize a s = x at h
  induction x generalizing ds l s with
  | done a t | fail f t =>
    obtain ⟨ds', l', m, hq⟩ := h
    exact after m (hk _ _ _ t (m.sound hs) hq)
  | halt => trivial
  | send g t next ih =>
    obtain ⟨ds', m, hn⟩ := h
    exact ⟨ds', m, fun t' hc ht => ih t' ht (hn t' hc ht)⟩

end Act.Does

/-! ## Whole runs -/

/-- What was done since an earlier state, oldest first. -/
def State.deedsSince (s earlier : State) : List Deed :=
  (s.journal.deeds.take (s.journal.deeds.length - earlier.journal.deeds.length)).reverse

theorem Moves.deedsSince (m : Moves l s ds l' s') : s'.deedsSince s = ds := by
  rw [State.deedsSince, m.deeds, List.length_append, Nat.add_sub_cancel, List.take_left,
    List.reverse_reverse]

/-- The deeds of a course that is begun in a state, without those of the scripts that its signals
set off. -/
def Act.ownDeeds (react : Signal → State → Except (Halt × State) State) :
    State → Act α → List Deed
  | s, done _ t | s, fail _ t | s, halt _ t => t.deedsSince s
  | s, send g t next => t.deedsSince s ++
      match react g t with
      | .ok t' => ownDeeds react t' (next t')
      | .error _ => []

/-- Scripts leave to an operation what it has in its hands and in use. -/
def Lawful (react : Signal → State → Except (Halt × State) State) : Prop :=
  ∀ g s s', Sound [] s → react g s = .ok s' → Came s s.thread.hands s' ∧ Sound [] s'

/-- **What a course does holds of every run of it.** -/
theorem Act.Does.settle {react : Signal → State → Except (Halt × State) State} {Q : Post α}
    {x : Act α} {r : Except Failure α} (hr : Lawful react) (hs : Sound l s)
    (h : x.Does Q ds l s) (he : x.settle react = .ended r s') :
    ∃ l', Sound l' s' ∧ Q (ds ++ x.ownDeeds react s) l' r s' := by
  induction x generalizing ds l s with
  | done a t | fail f t =>
    obtain ⟨ds', l', m, hq⟩ := h
    cases he
    exact ⟨l', m.sound hs, by rwa [Act.ownDeeds, m.deedsSince]⟩
  | halt => cases he
  | send g t next ih =>
    obtain ⟨ds', m, hn⟩ := h
    rw [Act.settle] at he
    split at he
    · next t' ht' =>
      obtain ⟨hc, hs'⟩ := hr g t t' (m.sound hs) ht'
      obtain ⟨l', hl', hq⟩ := ih t' hs' (hn t' hc hs') he
      refine ⟨l', hl', ?_⟩
      rw [Act.ownDeeds, m.deedsSince, ht', ← List.append_assoc]
      exact hq
    · cases he

end ClaimCells
