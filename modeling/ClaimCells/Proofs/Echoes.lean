import ClaimCells.Proofs.Failures
import ClaimCells.Proofs.Locks
import ClaimCells.Proofs.Mirrors

/-!
# States that operations cannot tell apart

No operation looks at the journal, at when a thread began, or at the order in which claims were kept
but for a dump, which lists them. So from states that differ in nothing else (`State.Echoes`) every
script goes the same way, writes the same into the journal, and every operation answers the same, up
to the order of the claims in a dump.

Main results: `step_echoes` and `runNested_echoes`.
-/

namespace ClaimCells

open Act (Outcome)

variable {α β : Type} {j j' : Journal} {s t : State} {op : Op} {S : Scope}

/-! ## Alike -/

/-- Threads that differ in nothing but the order of kept claims and when they began. -/
structure Thread.Alike (t t' : Thread) : Prop where
  claims : ∀ key, t.claims.get? key = t'.claims.get? key
  rest : { t' with claims := t.claims, began := t.began } = t

/-- Answers that differ in nothing but the order of claims in a dump. -/
inductive Answer.Alike : Answer → Answer → Prop
  | same (a : Answer) : Alike a a
  | dump (cells : List (String × CellView)) {claims claims' : List (String × ObjectId)}
      (objects : List (ObjectId × Nat)) (h : claims.Perm claims') :
      Alike (.dump cells claims objects) (.dump cells claims' objects)

/-- Entries that differ in nothing but such answers. -/
inductive Entry.Alike : Entry → Entry → Prop
  | same (e : Entry) : Alike e e
  | answered {a a' : Answer} (h : a.Alike a') : Alike (.answered (.ok a)) (.answered (.ok a'))

/-- The same happened since the two journals were `j` and `j'`. -/
def Journal.Echoes (j j' k k' : Journal) : Prop :=
  ∃ es es', k = es ++ j ∧ k' = es' ++ j' ∧ List.Forall₂ Entry.Alike es es'

/-- States that differ in nothing that an operation can tell, and in which the same happened since
the journals were `j` and `j'`. -/
structure State.Echoes (j j' : Journal) (s t : State) : Prop where
  thread : s.thread.Alike t.thread
  waiting : List.Forall₂ Thread.Alike s.waiting t.waiting
  ended : List.Forall₂ Thread.Alike s.ended t.ended
  journal : j.Echoes j' s.journal t.journal
  rest : { t with
    thread := s.thread, waiting := s.waiting, ended := s.ended, journal := s.journal } = s

theorem Thread.Alike.refl (t : Thread) : t.Alike t :=
  ⟨fun _ => rfl, rfl⟩

/-- Lists of things that are alike each to itself. -/
theorem alike_self {γ : Type} {r : γ → γ → Prop} (hr : ∀ x, r x x) (l : List γ) : l.Forall₂ r l :=
  List.forall₂_same.2 fun x _ => hr x

namespace Journal.Echoes

variable {k k' : Journal}

theorem cons {e e' : Entry} (he : e.Alike e') (h : j.Echoes j' k k') :
    j.Echoes j' (e :: k) (e' :: k') := by
  obtain ⟨es, es', rfl, rfl, h⟩ := h
  exact ⟨e :: es, e' :: es', rfl, rfl, .cons he h⟩

theorem append (es : Journal) (h : j.Echoes j' k k') : j.Echoes j' (es ++ k) (es ++ k') := by
  induction es with
  | nil => exact h
  | cons e es ih => exact ih.cons (.same e)

end Journal.Echoes

/-- All in a state that may differ. -/
def State.guise (s : State) : Disguise where
  claims _ := s.thread.claims
  began _ := s.thread.began
  waiting _ := s.waiting
  ended _ := s.ended
  past := s.journal

namespace State.Echoes

/-- States that are alike are one state in two disguises. -/
theorem disguised (h : s.Echoes j j' t) :
    s = State.disguise id s.guise { s with journal := [] } ∧
      t = State.disguise id t.guise { s with journal := [] } := by
  refine ⟨rfl, ?_⟩
  obtain ⟨⟨-, hthread⟩, -, -, -, hrest⟩ := h
  rw [← hrest, ← hthread]
  rfl

/-- What does not see through disguises sees the same. -/
theorem unseen {γ : Type} {k : State → γ} (h : s.Echoes j j' t)
    (hk : ∀ W s, k (State.disguise id W s) = k s) : k s = k t := by
  obtain ⟨hs, ht⟩ := h.disguised
  rw [hs, ht, hk, hk]

/-- And a step that does not keeps them. -/
theorem moved {f : State → State} (h : s.Echoes j j' t)
    (hf : ∀ W s, f (State.disguise id W s) = State.disguise id W (f s)) :
    (f s).Echoes j j' (f t) := by
  obtain ⟨hs, ht⟩ := h.disguised
  have hfs := hf s.guise { s with journal := [] }
  have hft := hf t.guise { s with journal := [] }
  rw [← hs] at hfs
  rw [← ht] at hft
  rw [hfs, hft]
  exact ⟨⟨h.thread.claims, rfl⟩, h.waiting, h.ended, h.journal.append _, rfl⟩

/-- Other threads and another journal that are alike keep states alike. -/
theorem among (h : s.Echoes j j' t) {u u' : Thread} {w w' e e' : List Thread} {k k' : Journal}
    (hu : u.Alike u') (hw : w.Forall₂ Thread.Alike w') (he : e.Forall₂ Thread.Alike e')
    (hk : j.Echoes j' k k') :
    State.Echoes j j' { s with thread := u, waiting := w, ended := e, journal := k }
      { t with thread := u', waiting := w', ended := e', journal := k' } :=
  ⟨hu, hw, he, hk, congrArg
    (fun x : State => { x with thread := u, waiting := w, ended := e, journal := k }) h.rest⟩

theorem note {e e' : Entry} (h : s.Echoes j j' t) (he : e.Alike e') :
    (s.note e).Echoes j j' (t.note e') :=
  h.among h.thread h.waiting h.ended (h.journal.cons he)

/-- Other kept claims. -/
theorem claims {c c' : Table String ObjectId} (h : s.Echoes j j' t)
    (hc : ∀ key, c.get? key = c'.get? key) :
    (s.inThread ({ · with claims := c })).Echoes j j' (t.inThread ({ · with claims := c' })) :=
  h.among ⟨hc, congrArg (fun x : Thread => { x with claims := c }) h.thread.rest⟩ h.waiting h.ended
    h.journal

theorem startThread (h : s.Echoes j j' t) : s.startThread.Echoes j j' t.startThread :=
  h.among ⟨fun _ => rfl, rfl⟩ (.cons h.thread h.waiting) h.ended h.journal

theorem endThread {u v : State} (h : s.Echoes j j' t) (hu : u.Echoes j j' v) :
    (u.endThread s).Echoes j j' (v.endThread t) :=
  hu.among h.thread h.waiting (.cons hu.thread hu.ended) hu.journal

end State.Echoes

/-- States that are alike, wherever a course is. -/
def Likeness.echo (j j' : Journal) : Likeness :=
  { sent := fun _ => State.Echoes j j'
    ended := State.Echoes j j'
    halted := State.Echoes j j' }

theorem veiled_echo : (Likeness.echo j j').Veiled where
  halted _ _ h := h
  seen _ _ h := h.unseen (k := fun s => (s.sharing, s.build, s.thread.nativeDepth))
    fun _ _ => rfl
  locked f _ _ h := h.moved (f := fun s => { s with sharing := f s.sharing }) fun _ _ => rfl
  noted e _ _ h := h.note (.same e)

namespace Action

/-- All but dumps. -/
def blind : Scope :=
  { Scope.wide fun _ _ => True with dumps := False }

/-- No cellular action tells apart states that are alike, unless it is part of a dump. -/
theorem blind_fits : (Likeness.echo j j').Fits blind :=
  veiled_echo.fits trivial (fun _ _ _ h => ⟨h, fun _ _ h' _ => h'⟩)
    (fun k hr _ _ _ h => h.unseen fun W s => (hr.resolve_left fun hd => hd) id W s fun _ => rfl)
    (fun _ f _ hn _ _ _ _ h => h.moved fun W s => hn id W s fun _ => rfl)
    (fun s t key h => h.thread.claims key)
    (fun key s t h => h.claims fun k => by
      rw [Table.get?_erase, Table.get?_erase, h.thread.claims])
    fun key o s t h => h.claims fun k => by
      rw [Table.get?_insert, Table.get?_insert, h.thread.claims]

end Action

/-- Keys stand for the same cells in states that are alike. -/
theorem State.Echoes.keyed (h : s.Echoes j j' t) : s.KeyedAs t :=
  (h.unseen (k := fun s => (s.handleKeys, s.handles, s.thread.cells, s.thread.kept))
    fun _ _ => rfl).symm

/-- An operation goes the same way from states that are alike. -/
theorem perform_echoes (hop : op ≠ .dump) (h : s.Echoes j j' t) :
    (op.course s).Mirrors (.echo j j') Eq (op.course t) := by
  have hat : Action.Cellular.At Action.blind (perform op) s := by
    refine Action.perform_at trivial (fun _ _ _ => trivial)
      (fun _ => ⟨fun _ _ _ => trivial, fun _ _ => trivial⟩)
      (fun _ => ⟨trivial, fun _ _ _ => trivial⟩) (fun _ _ _ _ => trivial) (fun _ => trivial)
      (fun _ c _ => ?_) (fun _ c _ => ?_) (fun _ c _ => ?_) fun hd => absurd hd hop
    · cases c with
      | own => trivial
      | handle => exact ⟨trivial, trivial⟩
    · cases c <;> trivial
    · cases c <;> trivial
  obtain ⟨b, hb, hcell⟩ := Action.unwinding_at hat
  have hm := hcell.mirrors Action.blind_fits s t h
  rwa [← hb s rfl, ← hb t h.keyed] at hm

namespace Action

/-- Dumps differ in nothing but the order of claims. -/
theorem dump_echoes (h : s.Echoes j j' t) :
    (dump s).Mirrors (.echo j j') Answer.Alike (dump t) := by
  have hseen : (s.thread.cells, s.thread.known, s.thread.ledger) =
      (t.thread.cells, t.thread.known, t.thread.ledger) :=
    h.unseen (k := fun s => (s.thread.cells, s.thread.known, s.thread.ledger)) fun _ _ => rfl
  simp only [Prod.mk.injEq] at hseen
  have hcells : Cellular blind (s.thread.cells.entries.mapM fun p => do
      return (p.1, ← viewCell (← kept p.2))) :=
    .mapM (fun _ => .bind (kept_cellular trivial _) fun _ =>
      .bind (viewCell_cellular (fun _ => trivial) _) fun _ => .pure _) _
  have hperm : s.thread.claims.entries.Perm t.thread.claims.entries := by
    refine (List.perm_ext_iff_of_nodup (.of_map _ (Table.distinct _))
      (.of_map _ (Table.distinct _))).2 fun ⟨key, o⟩ => ?_
    rw [Table.mem_entries_iff, Table.mem_entries_iff, h.thread.claims]
  rw [dump, bind_apply, bind_apply, thread_apply, thread_apply, done_bind, done_bind, ← hseen.1,
    ← hseen.2.1, ← hseen.2.2]
  refine (hcells.mirrors blind_fits s t h).bind fun cells _ s' t' he h' => ?_
  subst he
  exact .done (.dump _ _ hperm) h'

end Action

/-- **Operations answer the same in states that are alike.** -/
theorem course_echoes (h : s.Echoes j j' t) :
    (op.course s).Mirrors (.echo j j') Answer.Alike (op.course t) := by
  by_cases hop : op = .dump
  · subst hop
    exact Action.unwinding_mirrors Action.blind_fits h (Action.dump_echoes h)
  · exact (perform_echoes hop h).mono fun a b he => he ▸ .same a

/-! ## Scripts -/

section Scripts

variable {step : Op → State → Outcome Answer} {body : Script}

/-- Operations do, with all that they set off. -/
def StepEchoes (step : Op → State → Outcome Answer) : Prop :=
  ∀ j j' op s t, s.Echoes j j' t →
    (step op s).Mirrors (.echo j j') Answer.Alike (step op t)

theorem runNested_echo (hstep : StepEchoes step) (h : s.Echoes j j' t) :
    SameEnd (State.Echoes j j') (State.Echoes j j') (runNested step body s)
      (runNested step body t) := by
  induction body generalizing s t with
  | nil => exact .ok h
  | cons op ops ih =>
    have hop := hstep j j' op s t h
    rw [runNested, runNested]
    generalize step op s = x, step op t = y at hop
    cases hop with
    | done hv h' => exact ih (h'.note (.answered hv))
    | fail h' => exact ih (h'.note (.same _))
    | halt h' => exact .error h'

theorem react_echoes (hstep : StepEchoes step) (g : Signal) (h : s.Echoes j j' t) :
    SameEnd (State.Echoes j j') (State.Echoes j j') (react step g s) (react step g t) := by
  have hhook : s.hook? g = t.hook? g := h.unseen (k := (·.hook? g)) fun _ _ => by
    unfold State.hook?
    cases g.realm <;> rfl
  rw [react, react, ← hhook]
  cases s.hook? g with
  | none => exact .ok h
  | some body =>
    refine runNested_echo hstep (State.Echoes.note (h.moved (f := (·.eraseHook g)) fun W u => ?_)
      (.same _))
    show State.eraseHook _ g = _
    unfold State.eraseHook
    cases g.realm <;> rfl

end Scripts

/-- **Operations do the same in states that are alike**, with all the scripts that they set off. -/
theorem step_echoes (n : Nat) : StepEchoes (step n) := by
  induction n with
  | zero => exact fun j j' op s t h => .halt h
  | succ n ih =>
    intro j j' op s t h
    by_cases hop : ∃ body, op = .thread body
    · obtain ⟨body, rfl⟩ := hop
      have hrun : SameEnd (State.Echoes j j') (State.Echoes j j')
          (runNested (step n) body s.startThread) (runNested (step n) body t.startThread) :=
        runNested_echo ih h.startThread
      rw [step, step, runThread, runThread]
      generalize runNested (step n) body s.startThread = x,
        runNested (step n) body t.startThread = y at hrun
      cases hrun with
      | ok h' => exact .done (.same _) (h.endThread h')
      | error h' => exact .halt h'
    · have hne : ∀ body, op ≠ .thread body := fun body hb => hop ⟨body, hb⟩
      rw [step_perform hne, step_perform hne]
      exact (course_echoes h).settle fun g s t _ _ h =>
        (react_echoes ih g h).mono fun _ _ h => ⟨h, trivial⟩

/-- **Scripts run the same from states that are alike.** -/
theorem runNested_echoes (n : Nat) (body : Script) (h : s.Echoes j j' t) :
    SameEnd (State.Echoes j j') (State.Echoes j j') (runNested (step n) body s)
      (runNested (step n) body t) :=
  runNested_echo (step_echoes n) h

/-! ## After a failure -/

/-- Why the object for a new cell cannot be produced, if it cannot. -/
def Making.fault : Making → Option Cause
  | .plainTry _ fault | .sharedTry _ fault => fault
  | _ => none

/-- A cell whose object cannot be produced is not made, and nothing else is done. -/
theorem step_unproduced {how : Making} {e : Cause} (he : how.fault = some e) (n : Nat) (key : String)
    (s : State) : step (n + 1) (.cell (.make key how)) s =
      .ended (.error (.cell (.objectRuntime e))) s := by
  have hmake : Action.make how s = .fail (.cell (.objectRuntime e)) s := by
    cases how <;> first | cases he; rfl | cases he
  have hperform : perform (.cell (.make key how)) s = .fail (.cell (.objectRuntime e)) s := by
    show (Action.make how s).bind _ = _
    rw [hmake]
    rfl
  rw [step_perform (fun _ h => by cases h)]
  rw [Action.unwinding_fail hperform rfl]
  rfl

/-- After a claim was refused everything goes as it would have gone before. -/
theorem Failure.Leaves.echoes {c? : Option Cell} {m : Misuse} {s' : State} (past : Journal)
    (h : (Failure.panic (.misuse m)).Leaves c? s s') :
    s.Echoes s.journal past { s' with journal := past } := by
  cases h with
  | refused _ claims hclaims =>
    exact ⟨⟨fun key => (hclaims key).symm, rfl⟩, alike_self .refl _, alike_self .refl _,
      ⟨[], [], rfl, rfl, .nil⟩, rfl⟩

/-- **Operations on cells that fail leave the state intact.** One that finds a variable unbound
leaves nothing but a count of that. A cell whose object cannot be produced is not made, and the error
tells of all causes. One whose claim is refused leaves only the word about it, and the locks to the
reads that are in progress; whatever comes after it goes as if it had not been tried. -/
theorem failures_spare {L : List SlotId} (hs : Amid L s) (n : Nat) :
    (∀ op access name s', op.OnCells →
      step n op s = .ended (.error (.cell (.unbound access name))) s' →
      ∃ c v p, op.sought s = some c ∧ s.slots.get? c.slot = some v ∧ v.value = none ∧
        c.access = access ∧ v.name = name ∧ s.profiler.record v.kind .unboundAccess = some p ∧
        s' = { s with profiler := p }) ∧
    (∀ key how e, how.fault = some e →
      step (n + 1) (.cell (.make key how)) s = .ended (.error (.cell (.objectRuntime e))) s ∧
      (CellError.objectRuntime e).message = "object runtime failure: " ++ e.outermost ∧
      (CellError.objectRuntime e).sources = e.outermost :: e.deeper) ∧
    ∀ op m s', op.OnCells → m.Acquires →
      step n op s = .ended (.error (.panic (.misuse m))) s' →
      s'.Locked L ∧
      (∃ claims es, (∀ key, claims.get? key = s.thread.claims.get? key) ∧
        (∀ e ∈ es, ∃ key o, e = .did (.handed key o)) ∧
        s' = { s with
          thread := { s.thread with claims }
          journal := es ++ .refused m :: s.journal }) ∧
      ∀ past k body, SameEnd (State.Echoes s.journal past) (State.Echoes s.journal past)
        (runNested (step k) body s) (runNested (step k) body { s' with journal := past }) := by
  refine ⟨fun op access name s' hop he => ?_, fun key how e hf => ⟨step_unproduced hf n key s, rfl, rfl⟩,
    fun op m s' hop hm he => ⟨(hs.ended he).locked, ?_, fun past k body => ?_⟩⟩
  · cases step_leaves (f := .cell (.unbound access name)) hop trivial he with
    | @unbound c v p hc _ hv hnone hp => exact ⟨c, v, p, hc, hv, hnone, rfl, rfl, hp, rfl⟩
  · cases step_leaves (f := .panic (.misuse m)) hop hm he with
    | refused _ claims hclaims es hes => exact ⟨claims, es, hclaims, hes, rfl⟩
  · exact runNested_echoes k body
      ((step_leaves (f := .panic (.misuse m)) hop hm he).echoes past)

/-- A variable without value is read, and then bound to a number that is no object. -/
theorem failures_spare_unknown : ∃ s p s' : State,
    step 1 (.cell (.use "c" false .read)) s =
      .ended (.error (.cell (.unbound .locally "x"))) p ∧
    s.profiler.record .plain .unboundAccess = some p.profiler ∧ p.slots = s.slots ∧
    step 1 (.cell (.use "c" false (.assignBorrowed 7))) s =
      .ended (.error (.panic (.misuse (.acquireUnknown 7)))) s' ∧
    s'.slots = s.slots ∧ s'.Locked [] := by
  have h0 : Amid [] (.start .plain true {} none) := .start _ _ _ _
  have h1 := h0.ended (show step 1 (.object (.foreign 7)) _ = .ended _ _ from rfl)
  have h2 := h1.ended (show step 1 (.cell (.make "c" (.plain "x" none))) _ = .ended _ _ from rfl)
  obtain ⟨s, hs, h⟩ : ∃ s, s = _ ∧ Amid [] s := ⟨_, rfl, h2⟩
  obtain ⟨p, hp⟩ : ∃ p, step 1 (.cell (.use "c" false .read)) s =
      .ended (.error (.cell (.unbound .locally "x"))) p := by
    subst hs
    exact ⟨_, rfl⟩
  obtain ⟨s', hs'⟩ : ∃ s', step 1 (.cell (.use "c" false (.assignBorrowed 7))) s =
      .ended (.error (.panic (.misuse (.acquireUnknown 7)))) s' := by
    subst hs
    exact ⟨_, rfl⟩
  obtain ⟨hunbound, -, hrefused⟩ := failures_spare h 1
  obtain ⟨c, v, q, hc, hv, -, -, -, hq, rfl⟩ := hunbound (.cell (.use "c" false .read)) _ _ _ trivial hp
  obtain ⟨hl, ⟨claims, es, -, -, rfl⟩, -⟩ :=
    hrefused (.cell (.use "c" false (.assignBorrowed 7))) (.acquireUnknown 7) _ trivial trivial hs'
  have hkind : s.slots.get? c.slot = some ⟨.counted, .plain, "x", none⟩ := by
    have hcell : Op.sought s (.cell (.use "c" false .read)) = some (.own .plain 0) := hs ▸ rfl
    rw [Option.some.inj (hc.symm.trans hcell), hs]
    rfl
  rw [hkind] at hv
  cases hv
  exact ⟨s, _, _, hp, hq, rfl, hs', rfl, hl⟩

end ClaimCells
