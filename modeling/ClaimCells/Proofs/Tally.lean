import ClaimCells.Proofs.Balance
import ClaimCells.Proofs.Classes

/-!
# The trace and the counters

An event of a cell is told, and the profiler counts it, at the same time but in different places.
The two agree as long as the counters are left to the cells: nobody switches them off, or puts
others in place (`Op.LeavesCounters`), and none of them is full.

Main results: `tallied_upheld`, the counters say what the trace tells, and `Tallied.counts`, what
that is for each kind of cell.
-/

namespace ClaimCells

variable {α β : Type} {s s' t : State} {l l' : List Cell} {ds : List Deed} {k : CellKind}
  {e : ClaimEvent} {es j : Journal} {R : List (CellKind × ClaimEvent)} {op : Op}

/-! ## What the trace tells -/

/-- What is to be counted when the event is told. -/
def Event.counted : Event → List (CellKind × ClaimEvent)
  | .constructed k _ bound => (k, .constructed) :: if bound then [(k, .bound)] else []
  | .assigned k _ rebound => (k, .bound) :: if rebound then [(k, .released)] else []
  | .unbound k _ reason => [(k, reason.event)]
  | .destroyedBound k _ => [(k, .released)]
  | .freed .. => [(.shared, .cellFreed)]
  | _ => []

/-- The same, of an entry. -/
def Entry.counted : Entry → List (CellKind × ClaimEvent)
  | .event e _ => e.counted
  | _ => []

/-- The same, of all entries. -/
def Journal.counted (j : Journal) : List (CellKind × ClaimEvent) :=
  j.flatMap Entry.counted

theorem Journal.counted_append (es j : Journal) :
    Journal.counted (es ++ j) = es.counted ++ j.counted :=
  List.flatMap_append

theorem Journal.counted_idle (h : ∀ e ∈ es, e.idle = true) : es.counted = [] := by
  refine List.flatMap_eq_nil_iff.2 fun e he => ?_
  have hidle := h e he
  cases e with
  | event e w => cases e <;> first | rfl | cases hidle
  | _ => rfl

/-- Nobody switched the counters off. -/
def Journal.Lit (j : Journal) : Prop :=
  ∀ p ∈ j.tunings, p.enabled = true

theorem Journal.Lit.append (h : Journal.Lit (es ++ j)) : es.Lit ∧ j.Lit := by
  rw [Lit, tunings_append] at h
  exact ⟨fun p hp => h p (List.mem_append_left _ hp), fun p hp => h p (List.mem_append_right _ hp)⟩

/-! ## The counters -/

/-- The counters say what the journal tells, unless one of them is full. Variables without value
are counted, but not told of. -/
structure State.Tallied (s : State) : Prop where
  enabled : s.journal.Lit → s.profiler.enabled = true
  counter : s.journal.Lit → ¬ s.profiler.Full → ∀ k e, e ≠ .unboundAccess →
    s.profiler.counter k e = s.journal.counted.count (k, e)

namespace State.Tallied

/-- What is told is counted. -/
theorem step (h : s.Tallied) (es : Journal) (hj : s'.journal = es ++ s.journal)
    (hc : s.profiler.Counts R s'.profiler)
    (hR : ∀ k e, e ≠ .unboundAccess → R.count (k, e) = es.counted.count (k, e)) : s'.Tallied := by
  refine ⟨fun hlit => ?_, fun hlit hfull k e he => ?_⟩
  · rw [hj] at hlit
    exact (hc (h.enabled hlit.append.2)).1
  · rw [hj] at hlit ⊢
    have hcount := (hc (h.enabled hlit.append.2)).2 k e
    rw [hcount, h.counter hlit.append.2 (fun hf => hfull (hf.mono hc)) k e he, hR k e he,
      Journal.counted_append, List.count_append, Nat.add_comm]

/-- All that is told is counted. -/
theorem told (h : s.Tallied) (es : Journal) (hj : s'.journal = es ++ s.journal)
    (hc : s.profiler.Counts R s'.profiler) (hR : es.counted = R) : s'.Tallied :=
  h.step es hj hc fun _ _ _ => by rw [hR]

/-- Nothing is told or counted. -/
theorem still (h : s.Tallied) (es : Journal) (hj : s'.journal = es ++ s.journal) (hes : es.counted = [])
    (hp : s'.profiler = s.profiler) : s'.Tallied :=
  h.told es hj (hp ▸ .refl _) hes

theorem aside (h : s.Tallied) (ha : Aside s t) : t.Tallied := by
  obtain ⟨es, hj, hes⟩ := ha.journal
  exact h.still es hj (Journal.counted_idle hes) ha.profiler

/-- A counter is full. -/
theorem full (h : s.Tallied) (es : Journal) (hj : s'.journal = es ++ s.journal) (hf : s'.profiler.Full)
    (hen : s.profiler.enabled = true → s'.profiler.enabled = true) : s'.Tallied := by
  refine ⟨fun hlit => ?_, fun _ hfull => absurd hf hfull⟩
  rw [hj] at hlit
  exact hen (h.enabled hlit.append.2)

end State.Tallied

theorem Profiler.Full.enabled {p : Profiler} (h : p.Full) : p.enabled = true := by
  obtain ⟨k, e, h⟩ := h
  exact (Profiler.record_none_iff.1 h).1

/-- **Every move counts what it tells of.** -/
theorem Move.tallied (m : Move l s ds l' s') (h : s.Tallied) (ht : ∀ p, s' ≠ s.tune p) :
    s'.Tallied := by
  cases m with
  | aside ha => exact h.aside ha
  | tuned p => exact absurd rfl (ht p)
  | @counted k e p hp he =>
    obtain rfl | hfull := he
    · refine h.step [] rfl (Profiler.record_counts hp) fun k' e' he' => ?_
      rw [List.count_eq_zero.2 (by simpa using fun _ => he'), Journal.counted, List.flatMap_nil,
        List.count_nil]
    · exact h.full [] rfl hfull fun _ => hfull.enabled
  | made _ _ _ hp =>
    exact h.told [_, _] rfl (Profiler.recordMade_counts hp) (List.append_nil _)
  | madeShared _ _ hp =>
    exact h.told [_, _, _] rfl (Profiler.recordMade_counts hp) (List.append_nil _)
  | bound _ _ hp =>
    exact h.told [_, _] rfl (Profiler.recordBound_counts hp) (List.append_nil _)
  | boundFull _ _ hp => exact h.full [_] rfl hp fun _ => hp.enabled
  | emptied _ _ _ hp | endedBound _ _ _ hp =>
    exact h.told [_, _] rfl (Profiler.record_counts hp) rfl
  | freed aloud _ _ _ _ hp =>
    refine h.told (_ :: _ :: State.announcement _ _ _ _) rfl (Profiler.record_counts hp) ?_
    cases aloud <;> rfl
  | dropped aloud | freedFull aloud =>
    refine h.still (_ :: State.announcement _ _ _ _) rfl ?_ rfl
    cases aloud <;> rfl
  | locked | unkept | parted | flagged | givenBack | reshaped | taken =>
    exact h.still [] rfl rfl rfl
  | retained => exact h.still [_, _] rfl rfl rfl
  | _ => exact h.still [_] rfl rfl rfl

/-! ## Counters that are left alone -/

theorem Moves.tunings (m : Moves l s ds l' s') :
    ∃ ps, s'.journal.tunings = ps ++ s.journal.tunings := by
  induction m with
  | refl => exact ⟨[], rfl⟩
  | cons hm _ ih =>
    obtain ⟨es, hj⟩ := hm.journal
    obtain ⟨ps, hps⟩ := ih
    exact ⟨ps ++ es.tunings, by rw [hps, hj, Journal.tunings_append, List.append_assoc]⟩

/-- The property lasts when the counters of the process are switched on and off. -/
structure Switched (P : State → Prop) : Prop where
  aside : ∀ {s t : State}, Aside s t → P s → P t
  tune : ∀ {s : State} {p}, p.stats = s.profiler.stats → P s → P (s.tune p)

/-- The property lasts as long as the counters of the process are left to the cells, though they may
be switched on and off. -/
structure LeftAlone (P : State → Prop) : Prop extends Switched P where
  move : ∀ {l l' s s' ds}, Sound l s → Move l s ds l' s' → (∀ p, s' ≠ s.tune p) → P s → P s'
  startThread : ∀ {s : State}, P s → P s.startThread
  endThread : ∀ {s s' : State}, P s → P s' → P (s'.endThread s)
  switch : ∀ {s : State} {t ts}, P s → P (s.switch t ts)

section LeftAlone

variable {P : State → Prop}

/-- Moves that put no counters in place. -/
theorem LeftAlone.moves (hP : LeftAlone P) (hs : Sound l s) (m : Moves l s ds l' s') (h : P s)
    (ht : s'.journal.tunings = s.journal.tunings) : P s' := by
  induction m with
  | refl => exact h
  | cons hm hms ih =>
    obtain ⟨ps, hps⟩ := hms.tunings
    obtain hsame | ⟨p, rfl⟩ := hm.tunings
    · refine ih (hm.sound hs) (hP.move hs hm ?_ h) (ht.trans hsame.symm)
      rintro p rfl
      exact absurd hsame (List.cons_ne_self _ _)
    · rw [hps] at ht
      exact absurd (congrArg List.length ht) (by simp [State.tune, State.note, Journal.tunings]; omega)

/-- Courses that put none in place. -/
theorem LeftAlone.keeps (hP : LeftAlone P) {Q : Post α} {x : Act α} (hs : Sound l s)
    (hx : x.Does Q ds l s) (hst : x.Stays (fun s t => t.journal.tunings = s.journal.tunings) s)
    (h : P s) : x.Keeps P := by
  induction x generalizing ds l s with
  | done | fail =>
    obtain ⟨ds', l', m, -⟩ := hx
    exact hP.moves hs m h hst
  | halt => trivial
  | send g t next ih =>
    obtain ⟨ds', m, hn⟩ := hx
    exact ⟨hP.moves hs m h hst.1, fun t' hc hs' ht' => ih t' hs' (hn t' hc hs') (hst.2 t') ht'⟩

end LeftAlone

/-- Operations that neither count nor set anything up put no counters in place. -/
theorem course_tunings (hc : ¬ op.Counts) (hs : ¬ op.SetsUp) (s : State) :
    (op.course s).Stays (fun s t => t.journal.tunings = s.journal.tunings) s := by
  let outer (s t : State) : Prop := t.journal.tunings = s.journal.tunings
  have hG : (Scope.wide outer).Allows outer :=
    { refuses := trivial
      gains := fun _ => trivial
      refl := fun _ => rfl
      trans := fun _ _ _ h h' => h'.trans h
      beside := fun h => by
        obtain ⟨es, hj, hes⟩ := h.journal
        have hnone : es.tunings = [] := List.filterMap_eq_nil_iff.2 fun e he => by
          cases e with
          | tuned p => exact absurd rfl ((hes _ he).untuned p)
          | _ => rfl
        show _ = _
        rw [hj, Journal.tunings_append, hnone, List.nil_append]
      outer := id }
  refine (Action.unwinding_at (Action.perform_at trivial (fun _ _ _ => rfl)
    (fun h => absurd h hc) (fun h => absurd h hs) (fun g body _ s => ?_) (fun _ => trivial)
    (fun _ c _ => Action.Scope.wide_reads c) (fun _ c _ => Action.Scope.wide_looksAt c)
    (fun _ c _ => Action.Scope.wide_changes c) fun _ => ⟨trivial, fun _ => trivial⟩)).stays hG
  show (s.setHook g body).journal.tunings = _
  unfold State.setHook
  split <;> rfl

/-! ## Counters that are switched -/

/-- The course comes to its end at once, as `G` says. -/
def Act.Comes (G : State → State → Prop) (s : State) : Act α → Prop
  | done _ t | fail _ t => G s t
  | halt .. => True
  | send .. => False

theorem Act.Comes.bind {G : State → State → Prop} (hG : ∀ s t u, G s t → G t u → G s u)
    {x : Act α} {f : α → State → Act β} (h : x.Comes G s) (hf : ∀ a t, (f a t).Comes G t) :
    (x.bind f).Comes G s := by
  cases x with
  | done a t =>
    have hft := hf a t
    rw [Act.bind]
    cases hx : f a t with
    | done | fail =>
      rw [hx] at hft
      exact hG _ _ _ h hft
    | halt => trivial
    | send =>
      rw [hx] at hft
      exact hft.elim
  | fail => exact h
  | halt => trivial
  | send => exact h.elim

/-- Nothing is taken into the hands, and the property lasts. -/
structure Rests (P : State → Prop) (s t : State) : Prop where
  hands : t.thread.hands = s.thread.hands
  lasts : Sound [] s → P s → Sound [] t ∧ P t

theorem Rests.trans {P : State → Prop} {u : State} (h : Rests P s t) (h' : Rests P t u) : Rests P s u :=
  ⟨h'.hands.trans h.hands, fun hs hp => have ⟨ht, hp'⟩ := h.lasts hs hp; h'.lasts ht hp'⟩

namespace Action

variable {P : State → Prop}

/-- **Plain operations do no more to the counters than to switch them.** -/
theorem Plain.rests (hP : Switched P) {a : Action α} (h : Plain False a) (s : State) :
    (a s).Comes (Rests P) s := by
  have htrans : ∀ s t u, Rests P s t → Rests P t u → Rests P s u := fun _ _ _ => .trans
  induction h generalizing s with
  | pure | fail => exact ⟨rfl, fun hs hp => ⟨hs, hp⟩⟩
  | halt => trivial
  | read _ _ ih => exact ih s s
  | moved ha hf =>
    rw [ha]
    exact ⟨(hf s).hands, fun hs hp => ⟨(Move.aside (hf s)).sound hs, hP.aside (hf s) hp⟩⟩
  | tuned ha hf =>
    rw [ha]
    exact ⟨rfl, fun hs hp => ⟨(Move.tuned _).sound hs, hP.tune (hf.resolve_left id s) hp⟩⟩
  | bind _ _ ih ihk => exact (ih s).bind htrans fun x => ihk x
  | @tried _ a _ ih =>
    have hs := ih s
    rw [attempt_apply]
    cases hx : a s with
    | done | fail | halt =>
      rw [hx] at hs
      exact hs
    | send =>
      rw [hx] at hs
      exact hs.elim

/-- Nothing is in the hands that would have to be given up. -/
theorem unwinding_rests {a : Action α} (h : (a s).Comes (Rests P) s) :
    (unwinding a s).Comes (Rests P) s := by
  cases hx : a s with
  | done =>
    rw [hx] at h
    rwa [unwinding_done hx]
  | fail =>
    rw [hx] at h
    rwa [unwinding_fail hx h.hands]
  | halt => rw [unwinding_halt hx]; trivial
  | send =>
    rw [hx] at h
    exact h.elim

end Action

/-- Operations that leave the counters to the cells, though they may switch them. -/
def Op.LeavesCounters : Op → Prop
  | .profiler false op => ¬ op.Replaces
  | _ => True

/-- Operations on counters and settings rest. -/
theorem course_rests {P : State → Prop} (hP : Switched P) (ho : op.LeavesCounters)
    (h : op.Counts ∨ op.SetsUp) (s : State) : (op.course s).Comes (Rests P) s := by
  refine Action.unwinding_rests (Action.Plain.rests hP ?_ s)
  cases op with
  | settings op => exact Action.performSettings_plain op
  | manager ofProcess op => exact Action.performManager_plain ofProcess op
  | process op => exact Action.performProcess_plain op
  | stats op => exact Action.performStats_plain op
  | profiler own op =>
    refine Action.performProfiler_plain fun hown hop => ?_
    subst hown
    exact ho hop
  | native op =>
    cases op with
    | install f g => exact Action.performInstall_plain f g
    | _ => exact False.elim (h.elim id id)
  | _ => exact False.elim (h.elim id id)

theorem Op.Only.leavesCounters (h : op.Only Op.LeavesCounters) : op.LeavesCounters := by
  cases op with
  | hook | thread => trivial
  | _ => exact h

theorem Act.Comes.keeps {G : State → State → Prop} {P : State → Prop} {x : Act α}
    (hP : ∀ {t}, G s t → P t) (h : x.Comes G s) : x.Keeps P := by
  cases x with
  | done | fail => exact hP h
  | halt => trivial
  | send => exact h.elim

/-- **What lasts as long as the counters are left to the cells lasts over all runs in which they
are.** -/
theorem LeftAlone.upheld {P : State → Prop} (hP : LeftAlone P) : Upheld Op.LeavesCounters P where
  course {op s} ho _ hs h := by
    by_cases hop : op.Counts ∨ op.SetsUp
    · exact (course_rests hP.toSwitched ho.leavesCounters hop s).keeps fun hr => (hr.lasts hs h).2
    · obtain ⟨hc, hset⟩ := not_or.1 hop
      exact hP.keeps hs (Action.performing_does op hs) (course_tunings hc hset s) h
  answered r h := hP.aside (answered_aside r _) h
  hooked g h := hP.aside (hook_aside g _) h
  startThread h := hP.startThread h
  endThread h h' := hP.endThread h h'
  switch _ h := hP.switch h

theorem State.Tallied.tune (h : s.Tallied) {p : Profiler} (hp : p.stats = s.profiler.stats) :
    (s.tune p).Tallied := by
  have hlits (hlit : (s.tune p).journal.Lit) : p.enabled = true ∧ s.journal.Lit :=
    ⟨hlit p List.mem_cons_self, (Journal.Lit.append (show Journal.Lit ([.tuned p] ++ s.journal) from hlit)).2⟩
  have hsame (k : CellKind) (e : ClaimEvent) : p.counter k e = s.profiler.counter k e := by
    rw [Profiler.counter, Profiler.kindStats, hp]
    rfl
  refine ⟨fun hlit => (hlits hlit).1, fun hlit hfull k e he => ?_⟩
  refine (hsame k e).trans (h.counter (hlits hlit).2 ?_ k e he)
  rintro ⟨k, e, hf⟩
  refine hfull ⟨k, e, Profiler.record_none_iff.2 ⟨(hlits hlit).1, ?_⟩⟩
  exact (hsame k e).symm ▸ (Profiler.record_none_iff.1 hf).2

/-- **The counters say what the trace tells**, as long as they are left to the cells. -/
theorem tallied_upheld : Upheld Op.LeavesCounters State.Tallied :=
  LeftAlone.upheld {
    move := fun _ m ht h => m.tallied h ht
    aside := fun ha h => h.aside ha
    tune := fun hp h => h.tune hp
    startThread := fun h => h.still [] rfl rfl rfl
    endThread := fun _ h => h.still [] rfl rfl rfl
    switch := fun h => h.still [] rfl rfl rfl }

/-! ## Kind by kind -/

namespace Event

/-- Tells that a cell of the kind was made. -/
def constructs (k : CellKind) : Event → Bool
  | .constructed k' _ _ => k' = k
  | _ => false

/-- Tells that a bound cell of the kind was made. -/
def constructsBound (k : CellKind) : Event → Bool
  | .constructed k' _ bound => k' = k && bound
  | _ => false

/-- Tells that a cell of the kind was bound. -/
def assigns (k : CellKind) : Event → Bool
  | .assigned k' _ _ => k' = k
  | _ => false

/-- Tells that a bound cell of the kind was bound anew. -/
def rebinds (k : CellKind) : Event → Bool
  | .assigned k' _ rebound => k' = k && rebound
  | _ => false

/-- Tells that a cell of the kind lost its value for this reason. -/
def unbinds (k : CellKind) (r : UnbindReason) : Event → Bool
  | .unbound k' _ r' => k' = k && r' = r
  | _ => false

/-- Tells that a bound cell of the kind ended. -/
def destroysBound (k : CellKind) : Event → Bool
  | .destroyedBound k' _ => k' = k
  | _ => false

/-- Tells that a cell of the kind was freed, as only shared ones are. -/
def frees (k : CellKind) : Event → Bool
  | .freed .. => k = .shared
  | _ => false

end Event

/-- The trace, newest first. -/
def Journal.events (j : Journal) : List Event :=
  j.filterMap fun
    | .event e _ => some e
    | _ => none

/-- The counters of a kind are what the trace tells. -/
structure Profiler.Traces (p : Profiler) (trace : List Event) (k : CellKind) : Prop where
  constructed : (p.kindStats k).constructed.toNat = trace.countP (·.constructs k)
  bound : (p.kindStats k).bound.toNat =
    trace.countP (·.constructsBound k) + trace.countP (·.assigns k)
  released : (p.kindStats k).released.toNat = trace.countP (·.rebinds k) +
    trace.countP (·.unbinds k .release) + trace.countP (·.destroysBound k)
  transferred : (p.kindStats k).transferred.toNat = trace.countP (·.unbinds k .transfer)
  freed : (p.kindStats k).freed.toNat = trace.countP (·.frees k)

/-- The events that tell of what is counted. -/
def Event.tellings (k : CellKind) : ClaimEvent → List (Event → Bool)
  | .constructed => [(·.constructs k)]
  | .bound => [(·.constructsBound k), (·.assigns k)]
  | .released => [(·.rebinds k), (·.unbinds k .release), (·.destroysBound k)]
  | .transferred => [(·.unbinds k .transfer)]
  | .unboundAccess => []
  | .cellFreed => [(·.frees k)]

theorem Event.counted_count (k : CellKind) (e : ClaimEvent) (ev : Event) :
    ev.counted.count (k, e) = ((tellings k e).map fun p => (p ev).toNat).sum := by
  cases ev with
  | constructed k' _ b | assigned k' _ b => cases k <;> cases k' <;> cases b <;> cases e <;> rfl
  | unbound k' _ r => cases k <;> cases k' <;> cases r <;> cases e <;> rfl
  | destroyedBound k' => cases k <;> cases k' <;> cases e <;> rfl
  | _ => cases k <;> cases e <;> rfl

/-- What is to be counted is how often the trace tells of it. -/
theorem Journal.counted_count (k : CellKind) (e : ClaimEvent) (j : Journal) :
    j.counted.count (k, e) = ((Event.tellings k e).map j.events.countP).sum := by
  induction j with
  | nil => simp [counted, events]
  | cons en j ih =>
    rw [counted, List.flatMap_cons, List.count_append]
    change en.counted.count (k, e) + (Journal.counted j).count (k, e) = _
    rw [ih]
    cases en with
    | event ev w =>
      change ev.counted.count (k, e) + _ =
        ((Event.tellings k e).map fun p => (ev :: Journal.events j).countP p).sum
      simp only [List.countP_cons, List.sum_map_add, Event.counted_count, Nat.add_comm, Bool.toNat,
        ← Bool.cond_eq_ite]
    | _ => exact Nat.zero_add _

theorem State.Tallied.traces (h : s.Tallied) (hlit : s.journal.Lit) (hfull : ¬ s.profiler.Full)
    (k : CellKind) : s.profiler.Traces s.journal.events k := by
  have hcount (e : ClaimEvent) (he : e ≠ .unboundAccess) :
      ((s.profiler.kindStats k).count e).toNat =
        ((Event.tellings k e).map s.journal.events.countP).sum :=
    (h.counter hlit hfull k e he).trans (Journal.counted_count k e _)
  refine ⟨(hcount .constructed nofun).trans ?_, (hcount .bound nofun).trans ?_,
    (hcount .released nofun).trans ?_, (hcount .transferred nofun).trans ?_,
    (hcount .cellFreed nofun).trans ?_⟩ <;> simp [Event.tellings, Nat.add_assoc]

end ClaimCells
