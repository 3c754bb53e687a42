import ClaimCells.Proofs.Tally
import ClaimCells.Proofs.Settings

/-!
# Warnings at the shutdown

At the shutdown the kinds are warned of whose counters say that cells still hold claims. The counters
stand still while they are switched off, and go on from where they stood when they are switched on
again. So they tell of the cells that are bound, except for what happened to cells in between: a claim
that was let go while they were off is still counted as held.

**Missed events** (`Journal.missed`). Those that were told while the counters were off, as the journal
shows. What was counted and what was missed is all that was told (`State.Reckoned`).

Main result: `shutdown_warnings`, with the false alarm `shutdown_false_alarm`.
-/

namespace ClaimCells

open Act (Outcome)

variable {s s' t : State} {l l' : List Cell} {ds : List Deed} {k : CellKind} {e : ClaimEvent}
  {es j : Journal} {R R' : List (CellKind × ClaimEvent)} {p p' p'' : Profiler} {first : Bool}

/-! ## What was missed -/

/-- Whether the counters are on after all this; `first` says whether they were before. -/
def Journal.on (first : Bool) : Journal → Bool
  | [] => first
  | .tuned p :: _ => p.enabled
  | _ :: j => Journal.on first j

/-- What was told while the counters were off. -/
def Journal.missed (first : Bool) : Journal → List (CellKind × ClaimEvent)
  | [] => []
  | e :: j => (if Journal.on first j then [] else e.counted) ++ Journal.missed first j

namespace Journal

theorem on_append (h : Journal.tunings es = []) : Journal.on first (es ++ j) = j.on first := by
  induction es with
  | nil => rfl
  | cons e es ih =>
    cases e with
    | tuned p => cases h
    | _ => exact ih h

theorem missed_append (h : Journal.tunings es = []) :
    Journal.missed first (es ++ j) = (if j.on first then [] else es.counted) ++ j.missed first := by
  induction es with
  | nil => simp [counted]
  | cons e es ih =>
    have hes : Journal.tunings es = [] := by
      cases e with
      | tuned p => cases h
      | _ => exact h
    rw [List.cons_append, missed, on_append hes, ih hes]
    split
    · rfl
    · rw [← List.append_assoc]
      rfl

end Journal

/-! ## What is counted -/

namespace Profiler

/-- Some counter is at its end, whether the profiler counts or not. -/
def Saturated (p : Profiler) : Prop :=
  ∃ k e, UInt64.size ≤ p.counter k e + 1

theorem Full.saturated (h : p.Full) : p.Saturated := by
  obtain ⟨k, e, h⟩ := h
  exact ⟨k, e, (record_none_iff.1 h).2⟩

theorem counter_congr (h : p'.stats = p.stats) (k : CellKind) (e : ClaimEvent) :
    p'.counter k e = p.counter k e := by
  rw [counter, kindStats, h]
  rfl

theorem saturated_congr (h : p'.stats = p.stats) : p'.Saturated ↔ p.Saturated := by
  simp only [Saturated, counter_congr h]

/-- Of two profilers the second has counted these events more if the first counts, and none
otherwise. Accesses without a value may be counted besides. -/
structure Follows (p : Profiler) (R : List (CellKind × ClaimEvent)) (p' : Profiler) : Prop where
  enabled : p'.enabled = p.enabled
  grows : ∀ k e, p.counter k e ≤ p'.counter k e
  counter : ∀ k e, e ≠ .unboundAccess →
    p'.counter k e = p.counter k e + if p.enabled then R.count (k, e) else 0

namespace Follows

theorem refl (p : Profiler) : p.Follows [] p :=
  ⟨rfl, fun _ _ => le_rfl, fun _ _ _ => by simp⟩

theorem trans (h : p.Follows R p') (h' : p'.Follows R' p'') : p.Follows (R ++ R') p'' := by
  refine ⟨h'.enabled.trans h.enabled, fun k e => (h.grows k e).trans (h'.grows k e), fun k e he => ?_⟩
  rw [h'.counter k e he, h.counter k e he, h.enabled, List.count_append]
  split <;> omega

theorem saturated (h : p.Follows R p') (hp : p.Saturated) : p'.Saturated := by
  obtain ⟨k, e, hk⟩ := hp
  exact ⟨k, e, hk.trans (Nat.succ_le_succ (h.grows k e))⟩

/-- One event was counted, or the profiler is off. -/
theorem record (h : p.record k e = some p') : p.Follows [(k, e)] p' := by
  by_cases hp : p.enabled = true
  · obtain ⟨hp', hn⟩ := record_counts h hp
    exact ⟨hp'.trans hp.symm, fun k e => by rw [hn]; exact Nat.le_add_right _ _,
      fun k e _ => by rw [hn, if_pos hp]⟩
  · rw [Profiler.record, if_neg hp] at h
    cases h
    exact ⟨rfl, fun _ _ => le_rfl, fun _ _ _ => by rw [if_neg hp, Nat.add_zero]⟩

/-- An access without a value. -/
theorem looked (h : p.record k .unboundAccess = some p') : p.Follows [] p' := by
  obtain ⟨hen, hle, hn⟩ := record h
  refine ⟨hen, hle, fun k' e' he' => ?_⟩
  rw [hn k' e' he', List.count_eq_zero.2 (by simpa using fun _ => he'), List.count_nil]

theorem recordMade {bound : Bool} (h : p.recordMade k bound = some p') :
    p.Follows ((k, .constructed) :: if bound then [(k, .bound)] else []) p' := by
  obtain ⟨p₁, h₁, h₂⟩ := Option.bind_eq_some_iff.1 h
  cases bound with
  | true => exact (record h₁).trans (record h₂)
  | false =>
    cases h₂
    exact record h₁

theorem recordBound {rebound : Bool} (h : p.recordBound k rebound = some p') :
    p.Follows ((k, .bound) :: if rebound then [(k, .released)] else []) p' := by
  obtain ⟨p₁, h₁, h₂⟩ := Option.bind_eq_some_iff.1 h
  cases rebound with
  | true => exact (record h₁).trans (record h₂)
  | false =>
    cases h₂
    exact record h₁

end Follows

end Profiler

/-! ## What is told of bound cells -/

/-- Something is told, counted while the counters are on, and true of the cells that are bound. -/
def Tells (s s' : State) : Prop :=
  ∃ es, s'.journal = es ++ s.journal ∧ es.tunings = [] ∧ s.profiler.Follows es.counted s'.profiler ∧
    ∀ k, es.counted.count (k, .bound) + s.boundCells k =
      es.counted.count (k, .released) + es.counted.count (k, .transferred) + s'.boundCells k

theorem Tells.silent (es : Journal) (hj : s'.journal = es ++ s.journal) (ht : es.tunings = [])
    (hes : es.counted = []) (hp : s.profiler.Follows [] s'.profiler) (hs : s'.slots = s.slots) :
    Tells s s' := by
  refine ⟨es, hj, ht, hes ▸ hp, fun k => ?_⟩
  rw [hes, boundCells_congr hs]
  simp

/-- A slot was made. -/
theorem Tells.made {v : Slot} (hs : Sound l s) (es : Journal) (hj : s'.journal = es ++ s.journal)
    (ht : es.tunings = [])
    (hes : es.counted = (v.kind, .constructed) :: if v.value.isSome then [(v.kind, .bound)] else [])
    (hp : s.profiler.recordMade v.kind v.value.isSome = some s'.profiler)
    (hslots : s'.slots = s.slots.insert s.next v) : Tells s s' := by
  refine ⟨es, hj, ht, hes ▸ .recordMade hp, fun k => ?_⟩
  rw [hes, boundCells_insert hs.fresh hslots, Slot.bindings]
  cases v.value <;> by_cases hk : v.kind = k <;> simp [hk]

/-- A claim left a slot, or went away with it. -/
theorem Tells.emptied {v : Slot} (es : Journal) (hj : s'.journal = es ++ s.journal) (ht : es.tunings = [])
    (he : e = .released ∨ e = .transferred) (hes : es.counted = [(v.kind, e)])
    (hp : s.profiler.record v.kind e = some s'.profiler) (hval : v.value.isSome = true)
    (hb : ∀ k, s.boundCells k = s'.boundCells k + v.bindings k) : Tells s s' := by
  refine ⟨es, hj, ht, hes ▸ .record hp, fun k => ?_⟩
  have hbound := hb k
  rw [Slot.bindings] at hbound
  rw [hes]
  obtain rfl | rfl := he <;> by_cases hk : v.kind = k <;> simp [hval, hk] at hbound ⊢ <;> omega

/-- A slot was bound. -/
theorem Tells.assigned {v : Slot} {id : SlotId} {o : ObjectId} (es : Journal)
    (hj : s'.journal = es ++ s.journal) (ht : es.tunings = [])
    (hes : es.counted = (v.kind, .bound) :: if v.value.isSome then [(v.kind, .released)] else [])
    (hv : s.slots.get? id = some v)
    (hp : s.profiler.recordBound v.kind v.value.isSome = some s'.profiler)
    (hslots : s'.slots = s.slots.modify id ({ · with value := some o })) : Tells s s' := by
  refine ⟨es, hj, ht, hes ▸ .recordBound hp, fun k => ?_⟩
  have hbound := boundCells_modify hv hslots k
  rw [Slot.bindings, Slot.bindings] at hbound
  rw [hes]
  cases hval : v.value <;> by_cases hk : v.kind = k <;> simp [hval, hk] at hbound ⊢ <;> omega

/-- The last handle of a shared cell was given up. -/
theorem Tells.freed (es : Journal) (hj : s'.journal = es ++ s.journal) (ht : es.tunings = [])
    (hes : es.counted = [(.shared, .cellFreed)])
    (hp : s.profiler.record .shared .cellFreed = some s'.profiler) (hs : s'.slots = s.slots) :
    Tells s s' := by
  refine ⟨es, hj, ht, hes ▸ .record hp, fun k => ?_⟩
  rw [hes, boundCells_congr hs]
  simp

/-- **Every move tells what it does to bound cells**, unless a counter is at its end. -/
theorem Move.tells (m : Move l s ds l' s') (hs : Sound l s) (ht : ∀ p, s' ≠ s.tune p) :
    s'.profiler.Saturated ∨ Tells s s' := by
  cases m with
  | aside ha =>
    obtain ⟨es, hj, hes⟩ := ha.journal
    exact .inr (.silent es hj (tunings_idle hes) (Journal.counted_idle hes) (ha.profiler ▸ .refl _) ha.slots)
  | tuned p => exact absurd rfl (ht p)
  | counted hp he =>
    obtain rfl | hfull := he
    · exact .inr (.silent [] rfl rfl rfl (.looked hp) rfl)
    · exact .inl hfull.saturated
  | made _ _ _ hp => exact .inr (.made hs [_, _] rfl rfl (List.append_nil _) hp rfl)
  | madeShared _ _ hp => exact .inr (.made hs [_, _, _] rfl rfl (List.append_nil _) hp rfl)
  | bound hv _ hp => exact .inr (.assigned [_, _] rfl rfl (List.append_nil _) hv hp rfl)
  | @emptied id v o p r hv ho hp =>
    refine .inr (.emptied [_, _] rfl rfl (by cases r <;> simp [UnbindReason.event]) rfl hp (by simp [ho]) fun k => ?_)
    have hbound : (s.setValue id none).boundCells k + v.bindings k = _ := boundCells_modify hv rfl k
    rw [Slot.bindings_none (v := { v with value := none }) rfl] at hbound
    exact hbound.symm
  | @ended id v form hl hv ho =>
    refine .inr ⟨[_], rfl, rfl, .refl _, fun k => ?_⟩
    have hbound : s.boundCells k = { s with slots := s.slots.erase id }.boundCells k + _ :=
      boundCells_erase hv rfl k
    rw [Slot.bindings_none ho] at hbound
    show 0 + s.boundCells k = 0 + 0 + { s with slots := s.slots.erase id }.boundCells k
    omega
  | endedBound _ hv ho hp =>
    exact .inr (.emptied [_, _] rfl rfl (.inl rfl) rfl hp (by simp [ho]) (boundCells_erase hv rfl))
  | freed aloud _ _ _ _ hp =>
    refine .inr (.freed (_ :: _ :: State.announcement _ _ _ _) rfl ?_ ?_ hp rfl) <;> cases aloud <;> rfl
  | dropped aloud =>
    refine .inr (.silent (_ :: State.announcement _ _ _ _) rfl ?_ ?_ (.refl _) rfl) <;> cases aloud <;> rfl
  | boundFull _ _ hp | emptiedFull _ _ hp | endedFull _ _ _ hp | freedFull _ _ _ _ _ hp =>
    exact .inl hp.saturated
  | locked | unkept | parted | flagged | givenBack | reshaped | taken =>
    exact .inr (.silent [] rfl rfl rfl (.refl _) rfl)
  | retained => exact .inr (.silent [_, _] rfl rfl rfl (.refl _) rfl)
  | _ => exact .inr (.silent [_] rfl rfl rfl (.refl _) rfl)

/-! ## The reckoning -/

/-- What the journal tells was counted or missed, and is true of the cells that are bound. -/
structure State.Reckoned (first : Bool) (s : State) : Prop where
  switch : s.profiler.enabled = s.journal.on first
  counter : ∀ k e, e ≠ .unboundAccess →
    s.profiler.counter k e + (s.journal.missed first).count (k, e) = s.journal.counted.count (k, e)
  cells : ∀ k, s.journal.counted.count (k, .bound) =
    s.journal.counted.count (k, .released) + s.journal.counted.count (k, .transferred) + s.boundCells k

namespace State.Reckoned

theorem tells (h : s.Reckoned first) (ht : Tells s s') : s'.Reckoned first := by
  obtain ⟨es, hj, htune, hp, hcells⟩ := ht
  refine ⟨?_, fun k e he => ?_, fun k => ?_⟩
  · rw [hp.enabled, hj, Journal.on_append htune, h.switch]
  · have hsum := h.counter k e he
    rw [hp.counter k e he, hj, Journal.missed_append htune, Journal.counted_append, List.count_append,
      List.count_append, ← h.switch]
    split
    · rw [List.count_nil]
      omega
    · omega
  · have hbefore := h.cells k
    have hnow := hcells k
    simp only [hj, Journal.counted_append, List.count_append]
    omega

theorem tune (h : s.Reckoned first) (hp : p.stats = s.profiler.stats) : (s.tune p).Reckoned first := by
  have hmissed : (s.tune p).journal.missed first = s.journal.missed first :=
    (congrArg (· ++ _) (ite_self _)).trans (List.nil_append _)
  refine ⟨rfl, fun k e he => ?_, fun k => h.cells k⟩
  rw [hmissed]
  exact (congrArg (· + _) (Profiler.counter_congr hp k e)).trans (h.counter k e he)

end State.Reckoned

theorem tells_saturated (h : Tells s s') (hs : s.profiler.Saturated) : s'.profiler.Saturated := by
  obtain ⟨es, -, -, hp, -⟩ := h
  exact hp.saturated hs

/-- **What is told is counted or missed**, as long as the counters are only switched. -/
theorem leftAlone_reckoned (first : Bool) :
    LeftAlone fun s => ¬ s.profiler.Saturated → s.Reckoned first where
  move hs m ht h hroom := by
    obtain hsat | htells := m.tells hs ht
    · exact absurd hsat hroom
    · exact (h fun hp => hroom (tells_saturated htells hp)).tells htells
  aside ha h hroom := by
    obtain ⟨es, hj, hes⟩ := ha.journal
    have htells : Tells _ _ := .silent es hj (tunings_idle hes) (Journal.counted_idle hes)
      (ha.profiler ▸ .refl _) ha.slots
    exact (h fun hp => hroom (tells_saturated htells hp)).tells htells
  tune hp h hroom := (h fun hs => hroom ((Profiler.saturated_congr hp).2 hs)).tune hp
  startThread h hroom := ⟨(h hroom).switch, (h hroom).counter, (h hroom).cells⟩
  endThread _ h hroom := ⟨(h hroom).switch, (h hroom).counter, (h hroom).cells⟩
  switch h hroom := ⟨(h hroom).switch, (h hroom).counter, (h hroom).cells⟩

theorem State.Reckoned.start (build : Build) (profiling : Bool)
    (environment : Table String Text.Utf8.Bytes) (file : FileContent) :
    (State.start build profiling environment file).Reckoned profiling := by
  refine ⟨?_, fun k e _ => ?_, fun k => rfl⟩
  · cases profiling <;> rfl
  · cases profiling <;> cases k <;> cases e <;> rfl

/-- What is counted as held is what is bound, and what was let go but not counted, less what was taken
over but not counted. -/
theorem State.Reckoned.held (h : s.Reckoned first) (k : CellKind) :
    (s.profiler.kindStats k).held = s.boundCells k + (s.journal.missed first).count (k, .released) +
      (s.journal.missed first).count (k, .transferred) - (s.journal.missed first).count (k, .bound) := by
  have hbound := h.counter k .bound nofun
  have hreleased := h.counter k .released nofun
  have htransferred := h.counter k .transferred nofun
  have hcells := h.cells k
  rw [KindStats.held]
  simp only [Profiler.counter, KindStats.count] at hbound hreleased htransferred
  omega

/-! ## The shutdown -/

/-- The kinds that are warned of, newest first, with how many claims their cells are said to hold. -/
def Journal.warnings (j : Journal) : List (CellKind × UInt64) :=
  j.filterMap fun
    | .event (.leaking k n) _ => some (k, n)
    | _ => none

theorem Journal.warnings_append (es j : Journal) :
    Journal.warnings (es ++ j) = es.warnings ++ j.warnings :=
  List.filterMap_append

@[simp] theorem Journal.warnings_nil : Journal.warnings [] = [] := rfl

/-- The settings in place ask for a report at the shutdown. -/
def State.asksForReport (s : State) : Bool :=
  s.stored.profiling.enabled && s.stored.profiling.reportOnShutdown

/-- Either nothing is warned of, since nobody asks for it or a sum does not fit, or all kinds are whose
counters say that claims are held. -/
def State.Warns {α : Type} (s : State) (r : Except Failure α) (es : Journal) : Prop :=
  (es.warnings = [] ∧ (s.asksForReport = true → ∃ f, r = .error f)) ∨
  (s.asksForReport = true ∧ ∃ L, s.profiler.leaking = some L ∧ es.warnings = L.reverse)

/-- The course comes to its end at once and takes nothing into the hands, and `P` holds of its result
and of what it writes. -/
def Act.Writes {α : Type} (P : Except Failure α → Journal → Prop) (s : State) : Act α → Prop
  | done a t => t.thread.hands = s.thread.hands ∧ ∃ es, t.journal = es ++ s.journal ∧ P (.ok a) es
  | fail f t => t.thread.hands = s.thread.hands ∧ ∃ es, t.journal = es ++ s.journal ∧ P (.error f) es
  | halt .. => True
  | send .. => False

namespace Act.Writes

variable {α β : Type} {P P' : Except Failure α → Journal → Prop} {Q : Except Failure β → Journal → Prop}
  {x : Act α}

theorem imp (h : x.Writes P s) (hP : ∀ r es, P r es → P' r es) : x.Writes P' s := by
  cases x with
  | done | fail => exact ⟨h.1, h.2.imp fun _ => .imp_right (hP _ _)⟩
  | halt => trivial
  | send => exact h.elim

/-- Something was written before. -/
theorem after (es : Journal) (hj : t.journal = es ++ s.journal) (hh : t.thread.hands = s.thread.hands)
    (h : x.Writes (fun r es' => P r (es' ++ es)) t) : x.Writes P s := by
  cases x with
  | done | fail =>
    obtain ⟨hands, es', hj', hP⟩ := h
    exact ⟨hands.trans hh, es' ++ es, by rw [hj', hj, List.append_assoc], hP⟩
  | halt => trivial
  | send => exact h.elim

theorem bind {k : α → State → Act β} (h : x.Writes P s)
    (hk : ∀ a es t, P (.ok a) es → (k a t).Writes (fun r es' => Q r (es' ++ es)) t)
    (hf : ∀ f es, P (.error f) es → Q (.error f) es) : (x.bind k).Writes Q s := by
  cases x with
  | done a t =>
    obtain ⟨hh, es, hj, hP⟩ := h
    exact after es hj hh (hk a es t hP)
  | fail f t => exact ⟨h.1, h.2.imp fun _ => .imp_right (hf _ _)⟩
  | halt => trivial
  | send => exact h.elim

end Act.Writes

namespace Action

theorem checked_writes {α : Type} (a : Option α) (s : State) :
    (checked a s).Writes (fun r es => es = [] ∧ ∀ x, r = .ok x → a = some x) s := by
  cases a with
  | some x => exact ⟨rfl, [], rfl, rfl, fun _ h => by cases h; rfl⟩
  | none =>
    obtain h | ⟨_, h⟩ := raise_eq α .overflow s
    · rw [checked, h]
      exact ⟨rfl, [], rfl, rfl, fun _ h => by cases h⟩
    · rw [checked, h]
      trivial

/-- A report warns of nothing. -/
theorem report_writes (p : Profiler) (s : State) :
    (report p s).Writes (fun _ es => es.warnings = []) s := by
  unfold report
  generalize p.recorded = L
  induction L generalizing s with
  | nil => exact ⟨rfl, [], rfl, rfl⟩
  | cons x L ih =>
    refine Act.Writes.bind (P := fun _ es => es.warnings = []) ?_ (fun _ es t hes => ?_) fun _ _ h => h
    · refine .bind (checked_writes _ s) (fun n es t hes => ?_) fun f es hes => by rw [hes.1]; rfl
      rw [hes.1]
      exact ⟨rfl, [_], rfl, rfl⟩
    · exact (ih t).imp fun _ es' hes' => by rw [Journal.warnings_append, hes', hes]; rfl

/-- All kinds that are listed are warned of. -/
theorem warn_writes (L : List (CellKind × UInt64)) (s : State) :
    ((L.forM fun x => emit (.leaking x.1 x.2)) s).Writes
      (fun r es => r = .ok () ∧ es.warnings = L.reverse) s := by
  induction L generalizing s with
  | nil => exact ⟨rfl, [], rfl, rfl, rfl⟩
  | cons x L ih =>
    refine Act.Writes.after (t := s.emit (.leaking x.1 x.2)) [_] rfl rfl ((ih _).imp fun r es hes => ⟨hes.1, ?_⟩)
    rw [Journal.warnings_append, hes.2, List.reverse_cons]
    rfl

/-- **A shutdown warns of the kinds whose counters say that claims are held**, and of no others. -/
theorem shutDown_writes (s : State) : (shutDown s).Writes s.Warns s := by
  obtain ⟨es₀, hj, hes⟩ : ∃ es, s.loaded.journal = es ++ s.journal ∧ es.warnings = [] := by
    rw [State.loaded]
    split
    · exact ⟨[], rfl, rfl⟩
    · exact ⟨[], rfl, rfl⟩
    · exact ⟨[_], rfl, rfl⟩
  rw [shutDown, bind_apply, processSettings_apply, done_bind]
  refine .after es₀ hj (by rw [s.loaded_thread]) ?_
  rw [ite_apply]
  split
  · next hask =>
    rw [bind_apply, get_apply, done_bind, State.loaded_profiler]
    refine .bind (report_writes _ _) (fun _ es t hreport => ?_)
      fun f es hreport => .inl ⟨?_, fun _ => ⟨f, rfl⟩⟩
    · refine .bind (checked_writes _ t) (fun L es' u hL => ?_) fun f es' hL => .inl ⟨?_, fun _ => ⟨f, rfl⟩⟩
      · refine (warn_writes L u).imp fun r es'' hwarn => .inr ⟨hask, L, hL.2 L rfl, ?_⟩
        simp [Journal.warnings_append, hwarn.2, hL.1, hreport, hes]
      · simp only [Journal.warnings_append, hL.1, hreport, hes]
        rfl
    · rw [Journal.warnings_append, hreport, hes]
      rfl
  · next hask => exact ⟨rfl, [], rfl, .inl ⟨hes, fun h => absurd h hask⟩⟩

end Action

/-- An operation that comes to its end at once writes what its action does. -/
theorem Act.Writes.ended {n : Nat} {op : Op} {r : Reply} {P : Reply → Journal → Prop}
    (h : (perform op s).Writes P s) (hop : ∀ body, op ≠ .thread body) (he : step n op s = .ended r t) :
    ∃ es, t.journal = es ++ s.journal ∧ P r es := by
  cases n with
  | zero => cases he
  | succ n =>
    cases hx : perform op s with
    | done =>
      rw [hx] at h
      rw [step_done hx hop] at he
      cases he
      exact h.2
    | fail =>
      rw [hx] at h
      rw [step_fail hx h.1 hop] at he
      cases he
      exact h.2
    | halt =>
      rw [step_halt hx hop] at he
      cases he
    | send =>
      rw [hx] at h
      exact h.elim

theorem shutdown_writes {n : Nat} {r : Reply} (he : step n (.process .shutdown) s = .ended r t) :
    ∃ es, t.journal = es ++ s.journal ∧ s.Warns r es := by
  refine Act.Writes.ended (.bind (Action.shutDown_writes s) (fun _ es t hes => ?_) fun f es hes => ?_)
    (by simp) he
  · refine ⟨rfl, [], rfl, ?_⟩
    rcases hes with ⟨hes, hask⟩ | hes
    · exact .inl ⟨hes, fun h => nomatch (hask h).choose_spec⟩
    · exact .inr hes
  · rcases hes with ⟨hes, -⟩ | hes
    · exact .inl ⟨hes, fun _ => ⟨f, rfl⟩⟩
    · exact .inr hes

/-! ## Every run -/

/-- How many claims the counters of a kind hold cells to have when its events were missed like this:
those of the cells that are bound, and those that were let go unnoticed, less those that were taken
over unnoticed. -/
def State.apparent (s : State) (missed : List (CellKind × ClaimEvent)) (k : CellKind) : Nat :=
  s.boundCells k + missed.count (k, .released) + missed.count (k, .transferred) - missed.count (k, .bound)

namespace Profiler

theorem outstanding_held {st : KindStats} {n : UInt64} (h : st.outstanding = some n) :
    n.toNat = st.held := by
  obtain ⟨m, hm, -⟩ := Option.map_eq_some_iff.1 h
  obtain ⟨n', hn', hheld⟩ := KindStats.outstanding_some (checkedAdd_some.1 hm).1
  rw [h] at hn'
  cases hn'
  exact hheld

/-- The kinds that have counters, when all their sums fit. -/
theorem recorded_mapM {K : List CellKind} {M : List (CellKind × UInt64)}
    (h : (K.filterMap fun k => (p.stats.get? k).map (k, ·)).mapM
      (fun ks : CellKind × KindStats => ks.2.outstanding.map (ks.1, ·)) = some M) :
    ∀ k n, (k, n) ∈ M ↔ k ∈ K ∧ p.stats.get? k ≠ none ∧ n.toNat = (p.kindStats k).held := by
  induction K generalizing M with
  | nil =>
    cases h
    simp
  | cons k' K ih =>
    intro k n
    cases hk : p.stats.get? k' with
    | none =>
      rw [List.filterMap_cons_none (by rw [hk]; rfl)] at h
      rw [ih h, List.mem_cons]
      refine ⟨fun hm => ⟨.inr hm.1, hm.2⟩, fun hm => ⟨hm.1.resolve_left ?_, hm.2⟩⟩
      rintro rfl
      exact hm.2.1 hk
    | some st =>
      rw [List.filterMap_cons_some (by rw [hk]; rfl), List.mapM_cons] at h
      obtain ⟨x, hx, hM⟩ := Option.bind_eq_some_iff.1 h
      obtain ⟨m, hm, rfl⟩ := Option.map_eq_some_iff.1 hx
      obtain ⟨M', hM', hcons⟩ := Option.bind_eq_some_iff.1 hM
      cases hcons
      have hheld := outstanding_held hm
      rw [← kindStats_some hk] at hheld
      rw [List.mem_cons, List.mem_cons, ih hM']
      constructor
      · rintro (hkn | hmem)
        · cases hkn
          exact ⟨.inl rfl, by rw [hk]; exact Option.some_ne_none st, hheld⟩
        · exact ⟨.inr hmem.1, hmem.2⟩
      · rintro ⟨rfl | hmem, hsome, hn⟩
        · exact .inl (by rw [UInt64.toNat_inj.1 (hn.trans hheld.symm)])
        · exact .inr ⟨hmem, hsome, hn⟩

/-- The kinds whose cells are said to hold claims. -/
theorem mem_leaking {L : List (CellKind × UInt64)} (h : p.leaking = some L) (k : CellKind) (n : UInt64) :
    (k, n) ∈ L ↔ 0 < (p.kindStats k).held ∧ n.toNat = (p.kindStats k).held := by
  obtain ⟨M, hM, rfl⟩ := Option.map_eq_some_iff.1 h
  rw [List.mem_filter, recorded_mapM hM, decide_eq_true_eq, UInt64.lt_iff_toNat_lt]
  constructor
  · rintro ⟨⟨-, -, hn⟩, hpos⟩
    exact ⟨hn ▸ hpos, hn⟩
  · rintro ⟨hpos, hn⟩
    refine ⟨⟨by cases k <;> decide, fun hnone => ?_, hn⟩, hn ▸ hpos⟩
    rw [kindStats_none hnone] at hpos
    exact absurd hpos (Nat.lt_irrefl 0)

end Profiler

/-- **What a shutdown warns of**, after every run in which the counters of the process were switched on and
off but not touched otherwise, and none of them came to its end. The number it tells for a kind is that
of the bound cells, and of the claims that cells let go while the counters were off, less those that they
took over meanwhile; it warns where that is not zero. So a cell of the kind is bound, or one let go a
claim while the counters were off. If it is asked to report, and all sums fit, it warns of all such kinds. -/
theorem shutdown_warnings {body : Script} {build : Build} {profiling : Bool}
    {environment : Table String Text.Utf8.Bytes} {file : FileContent} {n m : Nat} {r : Reply}
    (hrun : runNested (step n) body (.start build profiling environment file) = .ok s)
    (hop : body.Only Op.LeavesCounters) (hroom : ¬ s.profiler.Saturated)
    (hend : step m (.process .shutdown) s = .ended r t) :
    let missed := s.journal.missed profiling
    ∃ es, t.journal = es ++ s.journal ∧
      (∀ k n, (k, n) ∈ es.warnings → 0 < s.apparent missed k ∧ n.toNat = s.apparent missed k) ∧
      (∀ k n, (k, n) ∈ es.warnings →
        0 < s.boundCells k ∨ (k, .released) ∈ missed ∨ (k, .transferred) ∈ missed) ∧
      (s.asksForReport = true → r.toBool = true → ∀ k, 0 < s.apparent missed k →
        ∃ n, (k, n) ∈ es.warnings) := by
  intro missed
  have hreckoned : s.Reckoned profiling := (runNested_upholds (leftAlone_reckoned profiling).upheld
    (step_lawful n) ((leftAlone_reckoned profiling).upheld.step n) hop (.start _ _ _ _)
    (fun _ => .start _ _ _ _) (.start _ _ _ _) hrun).1 hroom
  have hheld : ∀ k, (s.profiler.kindStats k).held = s.apparent missed k := hreckoned.held
  obtain ⟨es, hj, hes⟩ := shutdown_writes hend
  have hwarned : ∀ k n, (k, n) ∈ es.warnings →
      0 < s.apparent missed k ∧ n.toNat = s.apparent missed k := by
    intro k n hmem
    rcases hes with ⟨hnone, -⟩ | ⟨-, L, hL, hlist⟩
    · rw [hnone] at hmem
      cases hmem
    · rw [hlist, List.mem_reverse, Profiler.mem_leaking hL, hheld] at hmem
      exact hmem
  refine ⟨es, hj, hwarned, fun k n hmem => ?_, fun hask hr k hpos => ?_⟩
  · have hpos := (hwarned k n hmem).1
    rw [State.apparent] at hpos
    rw [← List.count_pos_iff, ← List.count_pos_iff]
    omega
  · rcases hes with ⟨-, herror⟩ | ⟨-, L, hL, hlist⟩
    · obtain ⟨f, rfl⟩ := herror hask
      cases hr
    · have hfit : (s.profiler.kindStats k).held < UInt64.size :=
        Nat.lt_of_le_of_lt (Nat.sub_le _ _) ((s.profiler.kindStats k).bound.toNat_lt_size)
      refine ⟨UInt64.ofNat (s.profiler.kindStats k).held, ?_⟩
      rw [hlist, List.mem_reverse, Profiler.mem_leaking hL, hheld]
      exact ⟨hpos, by rw [← hheld]; exact UInt64.toNat_ofNat_of_lt hfit⟩

/-- Variables that ask for counting and for a report. -/
def Settings.profiled : Table String String :=
  (Table.empty.insert profileVar "1").insert profileReportVar "1"

/-- What is seen of a script, and of a shutdown after it. -/
def Script.closing {α : Type} (body : Script) (see : State → Reply → State → α) : Option α :=
  match runNested (step 1) body (.start .plain false {} none) with
  | .ok s => match step 1 (.process .shutdown) s with
    | .ended r t => some (see s r t)
    | .halted .. => none
  | .error _ => none

theorem Script.closing_some {α : Type} {body : Script} {see : State → Reply → State → α} {x : α}
    (h : body.closing see = some x) :
    ∃ s r t, runNested (step 1) body (.start .plain false {} none) = .ok s ∧
      step 1 (.process .shutdown) s = .ended r t ∧ see s r t = x := by
  rw [closing] at h
  split at h
  · next s hs =>
    split at h
    · next r t ht => exact ⟨s, r, t, hs, ht, Option.some.inj h⟩
    · cases h
  · cases h

/-- A cell is bound while the counters are on. -/
theorem shutdown_warnings_bound : ∃ (s : State) (es : Journal), s.boundCells .plain = 1 ∧
    ∃ n, (CellKind.plain, n) ∈ es.warnings := by
  let body : Script := [.settings (.lookup Settings.profiled), .settings .initWith,
    .object (.allocate (some "a")), .cell (.make "c" (.plain "x" (some "a")))]
  have hseen : body.closing (fun s r _ => (s.boundCells .plain,
      s.apparent (s.journal.missed false) .plain, s.asksForReport, r.toBool,
      CellKind.all.all fun k => [.constructed, .bound, .released, .transferred, .unboundAccess,
        .cellFreed].all fun e => decide (s.profiler.counter k e + 1 < UInt64.size))) =
      some (1, 1, true, true, true) := by
    decide +kernel
  obtain ⟨s, r, t, hrun, hend, hsee⟩ := Script.closing_some hseen
  simp only [Prod.mk.injEq] at hsee
  obtain ⟨hbound, happarent, hask, hr, hcounters⟩ := hsee
  have hroom : ¬ s.profiler.Saturated := by
    rintro ⟨k, e, h⟩
    have hk := List.all_eq_true.1 (List.all_eq_true.1 hcounters k (by cases k <;> decide)) e
      (by cases e <;> decide)
    exact absurd (of_decide_eq_true hk) (Nat.not_lt.2 h)
  obtain ⟨es, -, -, -, hwarned⟩ := shutdown_warnings hrun
    (by simp [onlyOf, body, Op.Only, Op.LeavesCounters]) hroom hend
  exact ⟨s, es, hbound, hwarned hask hr .plain (by rw [happarent]; exact Nat.one_pos)⟩

/-- A cell is bound while the counters are on and dropped while they are off. -/
def falseAlarm : Script :=
  [.settings (.lookup Settings.profiled), .settings .initWith, .object (.allocate (some "a")),
    .cell (.make "c" (.plain "x" (some "a"))), .settings .default, .settings .initWith,
    .cell (.drop "c"), .settings (.lookup Settings.profiled), .settings .initWith]

/-- **A false alarm**: where the settings alone switch the counters, a kind is warned of none of whose
cells is bound. -/
theorem shutdown_false_alarm : falseAlarm.Only (fun op => ∀ own o, op ≠ .profiler own o) ∧
    ∃ s r t es, runNested (step 1) falseAlarm (.start .plain false {} none) = .ok s ∧
      step 1 (.process .shutdown) s = .ended r t ∧ t.journal = es ++ s.journal ∧
      (.plain, 1) ∈ es.warnings ∧ s.boundCells .plain = 0 := by
  have hseen : falseAlarm.closing (fun s _ t => (s.boundCells .plain, s.journal.warnings,
      t.journal.warnings)) = some (0, [], [(.plain, 1)]) := by
    decide +kernel
  obtain ⟨s, r, t, hrun, hend, hsee⟩ := Script.closing_some hseen
  simp only [Prod.mk.injEq] at hsee
  obtain ⟨hbound, hbefore, hafter⟩ := hsee
  obtain ⟨es, hj, -⟩ := shutdown_writes hend
  rw [hj, Journal.warnings_append, hbefore, List.append_nil] at hafter
  exact ⟨by simp [onlyOf, falseAlarm, Op.Only], s, r, t, es, hrun, hend, hj,
    by rw [hafter]; exact List.mem_singleton_self _, hbound⟩

end ClaimCells
