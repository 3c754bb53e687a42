import ClaimCells.Proofs.Builds

/-!
# Runs on another build

Where no operation asks for the lock of a cell while a read acquires a claim from that cell, whole
runs are the same on every build, up to the name of the mode that the first installation of native
functions is told with. Then nothing waits for a lock that it holds itself.

`Begun` tells the operations that begin in a run, each with the cells from which claims are being
acquired around it.

Main results: `step_onBuild`, for one operation with all that it sets off, and `builds_agree`.
-/

namespace ClaimCells

open Act (Outcome)

variable {α β : Type} {s t u : State} {b : Build} {L M : List SlotId} {op op' : Op} {n : Nat}
  {r : Reply} {g : Signal} {body : Script}

/-! ## Unset states -/

theorem State.Unset.same (h : s.Unset) (ht : (t.file, t.environment, t.settings, t.functions) =
    (s.file, s.environment, s.settings, s.functions)) : t.Unset := by
  simp only [Prod.mk.injEq] at ht
  obtain ⟨hfile, henv, hset, hfun⟩ := ht
  refine ⟨hfile.trans h.file, ?_, fun hn => hset.trans (h.settings (hfun ▸ hn))⟩
  have hlookup : t.lookup = s.lookup := by
    funext name
    show (t.environment.get? name).bind _ = (s.environment.get? name).bind _
    rw [henv]
  rw [State.namedMode, hlookup]
  exact h.mode

/-- **What sets nothing up but native functions leaves nothing to go by.** -/
theorem State.Unset.upheld : Upheld Op.Neutral State.Unset where
  course {op s} ho _ _ hu := by
    have hop : op.Neutral := by
      cases op with
      | hook | thread => exact fun h => h.elim
      | _ => exact ho
    by_cases hset : op.SetsUp
    · obtain ⟨f, g, rfl⟩ := hop hset
      cases hf : s.functions with
      | none =>
        rw [hu.installing hf]
        exact ⟨hu.file, hu.mode, fun h => by cases h⟩
      | some fs =>
        rw [course_installed hf]
        exact hu
    · let G (s t : State) : Prop := (t.file, t.environment, t.settings, t.functions) =
        (s.file, s.environment, s.settings, s.functions)
      have hG : (Scope.wide G).Allows G :=
        { refuses := trivial
          gains := fun _ => trivial
          refl := fun _ => rfl
          trans := fun _ _ _ h h' => Eq.trans h' h
          beside := fun h => (congrArg
            (fun u : State => (u.file, u.environment, u.settings, u.functions)) h.surroundings :)
          outer := id }
      have hcell : Action.Cellular.At (Scope.wide G) (perform op) s :=
        Action.perform_wide s (fun _ _ _ => rfl) ⟨fun _ _ _ => rfl, fun _ _ => rfl⟩
          (fun h => absurd h hset) fun g body _ s => by
            show G s (s.setHook g body)
            unfold State.setHook
            split <;> rfl
      exact ((Action.unwinding_at hcell).stays hG).keeps (fun h hs => hs.same h) hu
  answered _ h := h.same rfl
  hooked g h := h.same (by unfold State.eraseHook State.note; dsimp only; split <;> rfl)
  startThread h := h.same rfl
  endThread _ h := h.same rfl
  switch _ h := h.same rfl

/-- A run that sets nothing up but native functions comes here, while the locks of the cells in the
list are held. -/
structure Bare (L : List SlotId) (s : State) : Prop where
  sound : Sound [] s
  locked : s.Locked L
  unset : s.Unset
  schooled : s.Schooled Op.Neutral

namespace Bare

theorem ended (h : Bare L s) (ho : op.Only Op.Neutral) (he : step n op s = .ended r t) :
    Bare L t := by
  obtain ⟨hu, hsc⟩ := State.Unset.upheld.step n op s r t ho h.sound h.unset h.schooled he
  exact ⟨(step_lawful n op s r t h.sound he).2, (step_spares n L op s r t h.sound h.locked he).1,
    hu, hsc⟩

theorem answered (r : Reply) (h : Bare L s) : Bare L (s.note (.answered r)) :=
  ⟨(Move.aside (answered_aside r s)).sound h.sound, h.locked.same rfl, h.unset.same rfl,
    h.schooled.of_hooks rfl rfl rfl⟩

theorem hooked (g : Signal) (h : Bare L s) : Bare L ((s.eraseHook g).note (.hook g)) :=
  ⟨(Move.aside (hook_aside g s)).sound h.sound,
    h.locked.same (congrArg Prod.snd (hooked_same g s)), State.Unset.upheld.hooked g h.unset,
    (h.schooled.eraseHook g).of_hooks rfl rfl rfl⟩

theorem threaded (h : Bare L s) : Bare L s.startThread :=
  ⟨h.sound.startThread, h.locked.same rfl, h.unset.same rfl, h.schooled.startThread⟩

theorem signalled (h : Bare L s) (ho : op.Only Op.Neutral) (hop : ∀ body, op ≠ .thread body)
    (hg : (op.course s).Sends (react (step n)) g t) : Bare (op.window s g ++ L) t := by
  have hl := step_lawful n
  have hdoes := Action.performing_does op h.sound
  have hP := State.Unset.upheld
  obtain ⟨hu, hsc⟩ := (hP.both ho hop h.sound h.unset h.schooled).sends (react_lawful hl)
    (react_upholds hP hl (hP.step n)) h.sound hdoes hg
  exact ⟨h.sound.sends hg,
    (course_holds (R := True) h.sound h.locked fun _ _ _ => trivial).sends (react_lawful hl)
      (react_spares hl (step_spares n)) h.sound hdoes hg, hu, hsc⟩

end Bare

/-! ## What begins in a run -/

/-- Operations that begin while a script is run, with the cells from which claims are being acquired
by reads around them. Those around the script are in the first list. -/
inductive Begun : Nat → List SlotId → Script → State → List SlotId → Op → State → Prop
  | first {n : Nat} {L : List SlotId} {op : Op} {ops : Script} {s : State} :
      Begun n L (op :: ops) s L op s
  /-- In a script that the first operation sets off. -/
  | within {n : Nat} {L M : List SlotId} {op op' : Op} {ops body : Script} {s t u : State}
      {g : Signal} (hg : (op.course s).Sends (react (step n)) g t) (hb : t.hook? g = some body)
      (h : Begun n (op.window s g ++ L) body ((t.eraseHook g).note (.hook g)) M op' u) :
      Begun (n + 1) L (op :: ops) s M op' u
  | thread {n : Nat} {L M : List SlotId} {op' : Op} {ops body : Script} {s u : State}
      (h : Begun n L body s.startThread M op' u) : Begun (n + 1) L (.thread body :: ops) s M op' u
  | next {n : Nat} {L M : List SlotId} {op op' : Op} {ops : Script} {s t u : State} {r : Reply}
      (he : step n op s = .ended r t) (h : Begun n L ops (t.note (.answered r)) M op' u) :
      Begun n L (op :: ops) s M op' u

/-- All operations that begin in the script do so in states where `P` holds of them, and of the cells
from which claims are being acquired. -/
def Script.Begins (P : List SlotId → Op → State → Prop) (n : Nat) (L : List SlotId) (body : Script)
    (s : State) : Prop :=
  ∀ M op u, Begun n L body s M op u → P M op u

/-- A single operation and all that it sets off. -/
abbrev Op.Begins (P : List SlotId → Op → State → Prop) (n : Nat) (L : List SlotId) (op : Op)
    (s : State) : Prop :=
  Script.Begins P n L [op] s

namespace Script.Begins

variable {P : List SlotId → Op → State → Prop} {ops : Script}

theorem head (h : Script.Begins P n L (op :: ops) s) : op.Begins P n L s := by
  intro M op' u hb
  refine h M op' u ?_
  cases hb with
  | first => exact .first
  | within hg hb h => exact .within hg hb h
  | thread h => exact .thread h
  | next _ h => cases h

theorem tail (h : Script.Begins P n L (op :: ops) s) (he : step n op s = .ended r t) :
    Script.Begins P n L ops (t.note (.answered r)) :=
  fun M op' u hb => h M op' u (.next he hb)

theorem nil : Script.Begins P n L [] s :=
  fun _ _ _ h => by cases h

theorem cons (h : op.Begins P n L s) (he : step n op s = .ended r t)
    (hops : Script.Begins P n L ops (t.note (.answered r))) :
    Script.Begins P n L (op :: ops) s := by
  intro M op' u hb
  cases hb with
  | first => exact h _ _ _ .first
  | within hg hb hbegun => exact h _ _ _ (.within hg hb hbegun)
  | thread hbegun => exact h _ _ _ (.thread hbegun)
  | next he' hbegun =>
    rw [he] at he'
    cases he'
    exact hops _ _ _ hbegun

theorem first (h : op.Begins P n L s) : P L op s :=
  h L op s .first

theorem hooked (h : op.Begins P (n + 1) L s) (hg : (op.course s).Sends (react (step n)) g t)
    (hb : t.hook? g = some body) :
    Script.Begins P n (op.window s g ++ L) body ((t.eraseHook g).note (.hook g)) :=
  fun M op' u hbegun => h M op' u (.within hg hb hbegun)

theorem thread (h : (Op.thread body).Begins P (n + 1) L s) :
    Script.Begins P n L body s.startThread :=
  fun M op' u hb => h M op' u (.thread hb)

end Script.Begins

/-- Nothing that begins in the script asks for the lock of a cell from which a claim is being
acquired. -/
abbrev Script.Clear (n : Nat) (L : List SlotId) (body : Script) (s : State) : Prop :=
  Script.Begins (fun M op u => ∀ id ∈ M, ¬ op.Asks u id) n L body s

/-- A single operation and all that it sets off. -/
abbrev Op.Clear (n : Nat) (L : List SlotId) (op : Op) (s : State) : Prop :=
  Script.Clear n L [op] s

/-- In the scripts that a course sets off, `P` holds wherever an operation begins. `W` tells which
locks the course holds at a signal. -/
inductive Act.Admits (P : List SlotId → Op → State → Prop) (n : Nat) (L : List SlotId)
    (W : Signal → List SlotId) : Act α → Prop
  | done {a : α} {t : State} : Admits P n L W (.done a t)
  | fail {f : Failure} {t : State} : Admits P n L W (.fail f t)
  | halt {h : Halt} {t : State} : Admits P n L W (.halt h t)
  | send {g : Signal} {t : State} {next : State → Act α}
      (hb : ∀ body, t.hook? g = some body →
        Script.Begins P n (W g ++ L) body ((t.eraseHook g).note (.hook g)))
      (ht : ∀ u, react (step n) g t = .ok u → Admits P n L W (next u)) :
      Admits P n L W (.send g t next)

namespace Act.Admits

variable {x : Act α} {next : State → Act α} {W : Signal → List SlotId}
  {P : List SlotId → Op → State → Prop}

theorem ends {a : α} (hx : x = .done a t) : x.Admits P n L W :=
  hx ▸ .done

theorem unheard (hx : x = .send g t next) (hn : t.hook? g = none) (h : (next t).Admits P n L W) :
    x.Admits P n L W := by
  subst hx
  refine .send (fun body hb => (by rw [hn] at hb; cases hb)) fun t' ht => ?_
  rw [react, hn] at ht
  cases ht
  exact h

theorem heard (hx : x = .send g t next) (hb : t.hook? g = some body)
    (hc : Script.Begins P n (W g ++ L) body ((t.eraseHook g).note (.hook g)))
    (hr : react (step n) g t = .ok u) (h : (next u).Admits P n L W) : x.Admits P n L W := by
  subst hx
  refine .send (fun body' hb' => ?_) fun t' ht => ?_
  · obtain rfl := Option.some.inj (hb.symm.trans hb')
    exact hc
  · obtain rfl := Except.ok.inj (hr.symm.trans ht)
    exact h

theorem sends (h : x.Admits P n L W) (hg : x.Sends (react (step n)) g t)
    (hb : t.hook? g = some body) :
    Script.Begins P n (W g ++ L) body ((t.eraseHook g).note (.hook g)) := by
  induction hg with
  | now =>
    cases h with
    | send h => exact h _ hb
  | later ht _ ih =>
    cases h with
    | send _ h => exact ih (h _ ht) hb

end Act.Admits

/-- So it does in all that an operation sets off, and where it begins itself. -/
theorem Script.Begins.of_course {P : List SlotId → Op → State → Prop}
    (hop : ∀ body, op ≠ .thread body) (hfirst : P L op s)
    (hc : (op.course s).Admits P n L (op.window s)) : op.Begins P (n + 1) L s := by
  intro M op' u hb
  cases hb with
  | first => exact hfirst
  | thread => exact absurd rfl (hop _)
  | next _ h => cases h
  | within hg hb h => exact hc.sends hg hb M op' u h

/-! ## One operation -/

/-- The end on another build. -/
def Act.Outcome.onBuild (b : Build) : Outcome α → Outcome α
  | .ended r s => .ended r (s.onBuild b)
  | .halted h s => .halted h (s.onBuild b)

theorem Act.Outcome.Mirrors.onBuild {W : Signal → List SlotId} {x y : Outcome α}
    (h : Act.Outcome.Mirrors (.rebuilt b L W) Eq x y) : y = x.onBuild b := by
  cases h with
  | done hv h =>
    obtain ⟨rfl, -⟩ := h
    rw [hv]
    rfl
  | fail h =>
    obtain ⟨rfl, -⟩ := h
    rfl
  | halt h =>
    obtain rfl := h
    rfl

namespace State

theorem hook?_onBuild (b : Build) (g : Signal) (s : State) : (s.onBuild b).hook? g = s.hook? g := by
  unfold hook?
  cases g.realm <;> rfl

theorem hooked_onBuild (b : Build) (g : Signal) (s : State) :
    ((s.onBuild b).eraseHook g).note (.hook g) = ((s.eraseHook g).note (.hook g)).onBuild b := by
  unfold eraseHook
  cases g.realm <;> rfl

theorem startThread_onBuild (b : Build) (s : State) :
    (s.onBuild b).startThread = s.startThread.onBuild b := by
  rw [startThread, onBuild, List.length_map]
  rfl

end State

/-- An operation does the same on the other build, with all that it sets off, if nothing in it asks
for the lock of a cell from which a claim is being acquired. -/
def StepAgrees (b : Build) (n : Nat) : Prop :=
  ∀ L op s, Bare L s → op.Only Op.Neutral → op.Clear n L s →
    step n op (s.onBuild b) = (step n op s).onBuild b

theorem runNested_agrees (h : StepAgrees b n) (hs : Bare L s) (hb : body.Only Op.Neutral)
    (hc : Script.Clear n L body s) : SameEnd (fun s t => t = s.onBuild b ∧ Bare L s)
      (fun s t => t = s.onBuild b) (runNested (step n) body s)
      (runNested (step n) body (s.onBuild b)) := by
  induction body generalizing s with
  | nil => exact .ok ⟨rfl, hs⟩
  | cons op ops ih =>
    rw [runNested, runNested, h L op s hs hb.1 hc.head]
    cases he : step n op s with
    | ended r t => exact ih ((hs.ended hb.1 he).answered r) hb.2 (hc.tail he)
    | halted x t => exact .error rfl

theorem react_agrees (h : StepAgrees b n) (hs : Bare M s)
    (hc : ∀ body, s.hook? g = some body →
      Script.Clear n M body ((s.eraseHook g).note (.hook g))) :
    SameEnd (fun s t => t = s.onBuild b ∧ Bare M s) (fun s t => t = s.onBuild b)
      (react (step n) g s) (react (step n) g (s.onBuild b)) := by
  rw [react, react, State.hook?_onBuild]
  cases hb : s.hook? g with
  | none => exact .ok ⟨rfl, hs⟩
  | some body =>
    dsimp only
    rw [State.hooked_onBuild]
    exact runNested_agrees h (hs.hooked g) (hs.schooled.hook hb) (hc body hb)

/-- **An operation does the same on any build**, with all the scripts that it sets off. -/
theorem step_onBuild (b : Build) (n : Nat) : StepAgrees b n := by
  induction n with
  | zero => exact fun _ _ _ _ _ _ => rfl
  | succ n ih =>
    intro L op s hs ho hc
    by_cases hop : ∃ body, op = .thread body
    · obtain ⟨body, rfl⟩ := hop
      have hrun := runNested_agrees ih hs.threaded ho hc.thread
      rw [step, step, runThread, runThread, State.startThread_onBuild]
      generalize runNested (step n) body s.startThread = x,
        runNested (step n) body (s.startThread.onBuild b) = y at hrun
      cases hrun with
      | ok h =>
        obtain ⟨rfl, -⟩ := h
        rfl
      | error h =>
        obtain rfl := h
        rfl
    · have hne : ∀ body, op ≠ .thread body := fun body hb => hop ⟨body, hb⟩
      have hneutral : op.Neutral := by
        cases op with
        | hook => exact fun h => h.elim
        | thread body => exact absurd rfl (hne body)
        | _ => exact ho
      rw [step_perform hne, step_perform hne]
      have hcourse := course_onBuild (b := b) hs.locked hc.first hs.unset hneutral
      refine (hcourse.settle fun g t u hg _ ht => ?_).onBuild
      obtain ⟨rfl, -⟩ := ht
      have hend := react_agrees ih (hs.signalled ho hne hg) fun body hb => hc.hooked hg hb
      generalize react (step n) g t = x, react (step n) g (t.onBuild b) = y at hend
      cases hend with
      | ok h => exact .ok ⟨⟨h.1, h.2.locked⟩, trivial⟩
      | error h => exact .error h

/-! ## What is left at the end -/

/-- What an end of a script that gives something up makes of it. -/
def Act.Outcome.anyway : Outcome Answer → Outcome Unit
  | .ended (.ok _) s => .ended (.ok ()) s
  | .ended (.error f) s => .ended (.ok ()) (s.note (.answered (.error f)))
  | .halted h s => .halted h s

/-- Gives things up one after the other, and notes what fails. -/
def giveUp (n : Nat) : Script → State → Outcome Unit
  | [], s => .ended (.ok ()) s
  | op :: ops, s => (step n op s).anyway.andThen fun _ => giveUp n ops

/-- The operations that give up all that a thread has under keys. -/
def Thread.leftovers (t : Thread) : Script :=
  (sortKeys t.cells.keys).map (fun key => .cell (.drop key)) ++
    (sortKeys t.claims.keys).map fun key => .object (.dropClaim key)

/-- The state when no script waits for the ledger any more. -/
def State.forsaken (s : State) : State :=
  s.inThread ({ · with hooks := {} })

theorem giveUp_append (n : Nat) (ops ops' : Script) (s : State) :
    giveUp n (ops ++ ops') s = (giveUp n ops s).andThen fun _ => giveUp n ops' := by
  induction ops generalizing s with
  | nil => rfl
  | cons op ops ih =>
    rw [List.cons_append, giveUp, giveUp]
    cases (step n op s).anyway with
    | halted => rfl
    | ended r t =>
      cases r with
      | error => rfl
      | ok => exact ih t

namespace Action

/-- What is answered at the end changes nothing of how an action is broken off. -/
theorem unwinding_answer (a : Action Unit) (x : Answer) :
    unwinding (a >>= fun _ => pure x) = unwinding a >>= fun _ => pure x := by
  funext s
  simp only [unwinding, bind_apply, thread_apply, done_bind, attempt_apply]
  generalize a s = y
  induction y with
  | done | halt => rfl
  | fail f t =>
    let gone (c : Claim) : Action Unit := cleanUp (release c)
    exact (Act.bind_assoc ((t.thread.hands.take (t.thread.hands.length -
      s.thread.hands.length)).forM gone t) (fun _ t => .fail f t) fun _ t => .done x t).symm
  | send g t next ih => exact congrArg (Act.send g t) (funext ih)

theorem settle_seq (react : Signal → State → Except (Halt × State) State) (a : Action α)
    (k : α → Action β) (s : State) : ((a >>= k) s).settle react =
      ((a s).settle react).andThen fun x t => (k x t).settle react :=
  Act.settle_bind react (a s) k

theorem anyway_settle {a : Action Unit} (ha : perform op = a >>= fun _ => pure .nothing)
    (hop : ∀ body, op ≠ .thread body) (s : State) :
    (anyway a s).settle (react (step n)) = (step (n + 1) op s).anyway := by
  have hstep : step (n + 1) op s = ((unwinding a s).settle (react (step n))).andThen
      fun _ t => .ended (.ok .nothing) t := by
    rw [step_perform hop, ha, unwinding_answer]
    exact settle_seq _ (unwinding a) (fun _ => pure Answer.nothing) s
  rw [hstep, anyway, settle_seq, attempt_apply, Act.settle_attempt]
  cases (unwinding a s).settle (react (step n)) with
  | halted => rfl
  | ended r t => cases r <;> rfl

theorem forM_settle {f : String → Op} {a : String → Action Unit}
    (h : ∀ key s, (a key s).settle (react (step n)) = (step (n + 1) (f key) s).anyway)
    (keys : List String) (s : State) :
    ((keys.forM a : Action Unit) s).settle (react (step n)) = giveUp (n + 1) (keys.map f) s := by
  induction keys generalizing s with
  | nil => rfl
  | cons key keys ih =>
    show ((a key >>= fun _ => keys.forM a) s).settle _ = _
    rw [settle_seq, h, List.map_cons, giveUp]
    exact congrArg _ (funext fun _ => funext fun t => ih t)

/-- **What is left is given up by the operations that drop it**, each with all that it sets off. -/
theorem finish_settle (s : State) : (finish s).settle (react (step n)) =
    (giveUp (n + 1) s.thread.leftovers s.forsaken).andThen fun _ t =>
      (checked t.profiler.report? t).settle (react (step n)) := by
  have hcells := forM_settle (n := n) (f := fun key => .cell (.drop key))
    (a := fun key => anyway (takeCell key >>= destroy)) fun key s =>
      anyway_settle (by rw [bind_assoc]; rfl) (fun _ h => by cases h) s
  have hclaims := forM_settle (n := n) (f := fun key => .object (.dropClaim key))
    (a := fun key => anyway (takeClaim key >>= fun o => release ⟨.counted, o⟩)) fun key s =>
      anyway_settle (by rw [bind_assoc]; rfl) (fun _ h => by cases h) s
  have hfinish : finish s = ((((sortKeys s.thread.cells.keys).forM fun key =>
      anyway (takeCell key >>= destroy)) >>= fun _ =>
      (sortKeys s.thread.claims.keys).forM fun key =>
        anyway (takeClaim key >>= fun o => release ⟨.counted, o⟩)) s.forsaken).bind
        fun _ t => checked t.profiler.report? t := rfl
  rw [hfinish, Act.settle_bind, settle_seq, hcells, Thread.leftovers, giveUp_append]
  congr 2
  exact funext fun _ => funext fun t => hclaims _ t

end Action

/-! ## Whole runs -/

namespace Script

/-- Nothing that begins while things are given up asks for such a lock. -/
def ClearLeaving (n : Nat) : Script → State → Prop
  | [], _ => True
  | op :: ops, s => op.Clear n [] s ∧
      ∀ t, (step n op s).anyway = .ended (.ok ()) t → ClearLeaving n ops t

/-- Nothing that begins in a whole run does. -/
def ClearRun (n : Nat) : Script → State → Prop
  | [], s => ClearLeaving (n + 1) s.thread.leftovers s.forsaken
  | op :: ops, s => op.Clear n [] s ∧ ∀ r t, step n op s = .ended r t → ClearRun n ops t

theorem ClearRun.cons {ops : Script} (hc : op.Clear n [] s) (he : step n op s = .ended r t)
    (h : ops.ClearRun n t) : Script.ClearRun n (op :: ops) s :=
  ⟨hc, fun r' t' he' => by
    rw [he] at he'
    cases he'
    exact h⟩

theorem ClearLeaving.cons {ops : Script} (hc : op.Clear n [] s)
    (he : (step n op s).anyway = .ended (.ok ()) t) (h : ops.ClearLeaving n t) :
    Script.ClearLeaving n (op :: ops) s :=
  ⟨hc, fun t' he' => by
    rw [he] at he'
    cases he'
    exact h⟩

end Script

/-- What another build shows of an operation. -/
def Step.onBuild (b : Build) (x : Step) : Step :=
  { x with journal := x.journal.map (·.onBuild b) }

theorem State.seen_onBuild (b : Build) (s t : State) (c : Conclusion) :
    (t.onBuild b).seen (s.onBuild b).journal.length c = (t.seen s.journal.length c).onBuild b := by
  simp only [State.seen, Step.onBuild, State.onBuild, List.length_map, List.map_reverse,
    List.map_take]

theorem State.seenHalting_onBuild (b : Build) (s t : State) (x : Halt) :
    (t.onBuild b).seenHalting (s.onBuild b).journal.length x =
      (t.seenHalting s.journal.length x).onBuild b := by
  simp only [State.seenHalting, State.seen, Step.onBuild, State.onBuild, List.length_map,
    List.map_reverse, List.map_take]

theorem Thread.leftovers_neutral (t : Thread) : t.leftovers.Only Op.Neutral := by
  have hall : ∀ ops : Script, (∀ op ∈ ops, op.Only Op.Neutral) → ops.Only Op.Neutral := by
    intro ops
    induction ops with
    | nil => exact fun _ => trivial
    | cons op ops ih =>
      exact fun h => ⟨h op List.mem_cons_self, ih fun op' h' => h op' (List.mem_cons_of_mem _ h')⟩
  refine hall _ fun op h => ?_
  rcases List.mem_append.1 h with h | h <;> obtain ⟨key, -, rfl⟩ := List.mem_map.1 h <;>
    exact fun h => h.elim

theorem Bare.forsaken (h : Bare [] s) : Bare [] s.forsaken :=
  ⟨(Move.aside (show Aside s s.forsaken from .silent rfl rfl)).sound h.sound, h.locked.same rfl,
    h.unset.same rfl, h.schooled.native, fun u hu => by
      rcases List.mem_cons.1 hu with rfl | hu
      · exact fun _ _ hb => by cases hb
      · exact h.schooled.threads u (List.mem_cons_of_mem _ hu)⟩

theorem anyway_onBuild (b : Build) (x : Outcome Answer) :
    (x.onBuild b).anyway = x.anyway.onBuild b := by
  cases x with
  | halted => rfl
  | ended r s => cases r <;> rfl

theorem giveUp_agrees {ops : Script} (hs : Bare [] s) (ho : ops.Only Op.Neutral)
    (hc : ops.ClearLeaving n s) : giveUp n ops (s.onBuild b) = (giveUp n ops s).onBuild b := by
  induction ops generalizing s with
  | nil => rfl
  | cons op ops ih =>
    rw [giveUp, giveUp, step_onBuild b n [] op s hs ho.1 hc.1, anyway_onBuild]
    cases he : step n op s with
    | halted x t => rfl
    | ended r t =>
      have ht := hs.ended ho.1 he
      have hnext := fun t ht => hc.2 t ht
      rw [he] at hnext
      cases r with
      | ok a => exact ih ht ho.2 (hnext t rfl)
      | error f => exact ih (ht.answered (.error f)) ho.2 (hnext _ rfl)

theorem checked_onBuild (react : Signal → State → Except (Halt × State) State) (b : Build)
    (x : Option α) (s : State) : (Action.checked x (s.onBuild b)).settle react =
      ((Action.checked x s).settle react).onBuild b := by
  cases x with
  | some => rfl
  | none =>
    simp only [Action.checked, Action.raise, Action.bind_apply, Action.thread_apply,
      Action.done_bind, Action.ite_apply]
    show (if s.thread.nativeDepth = 0 then _ else _ : Act α).settle react = _
    split <;> rfl

/-- **What is left is given up in the same way** on any build. -/
theorem finish_onBuild (b : Build) (hs : Bare [] s) (hc : Script.ClearRun n [] s) :
    (Action.finish (s.onBuild b)).settle (react (step n)) =
      ((Action.finish s).settle (react (step n))).onBuild b := by
  rw [Action.finish_settle, Action.finish_settle]
  have hleft := giveUp_agrees (b := b) hs.forsaken s.thread.leftovers_neutral hc
  show ((giveUp (n + 1) s.thread.leftovers (s.forsaken.onBuild b)).andThen _ : Outcome _) = _
  rw [hleft]
  cases giveUp (n + 1) s.thread.leftovers s.forsaken with
  | halted => rfl
  | ended r t =>
    cases r with
    | error => rfl
    | ok => exact checked_onBuild _ b t.profiler.report? t

/-- **Whole runs show the same** on any build. -/
theorem steps_onBuild (b : Build) {script : Script} (hs : Bare [] s)
    (ho : script.Only Op.Neutral) (hc : script.ClearRun n s) :
    steps n script (s.onBuild b) = (steps n script s).map (Step.onBuild b) := by
  induction script generalizing s with
  | nil =>
    rw [steps, steps, finish_onBuild b hs hc]
    cases (Action.finish s).settle (react (step n)) with
    | ended r t => exact congrArg (fun x => [x]) (State.seen_onBuild b s t _)
    | halted x t => exact congrArg (fun x => [x]) (State.seenHalting_onBuild b s t x)
  | cons op ops ih =>
    rw [steps, steps, step_onBuild b n [] op s hs ho.1 hc.1]
    cases he : step n op s with
    | ended r t =>
      exact congrArg₂ List.cons (State.seen_onBuild b s t _)
        (ih (hs.ended ho.1 he) ho.2 (hc.2 r t he))
    | halted x t => exact congrArg (fun x => [x]) (State.seenHalting_onBuild b s t x)

/-! ## Nobody waits -/

theorem giveUp_unblocked {ops : Script} (hs : Sound [] s) (hm : s.build.mode = .plain) (u : State) :
    giveUp n ops s ≠ .halted .blocked u := by
  induction ops generalizing s with
  | nil => exact fun h => by cases h
  | cons op ops ih =>
    rw [giveUp]
    cases he : step n op s with
    | halted x t =>
      intro h
      cases h
      exact step_unblocked n op s u hs hm he
    | ended r t =>
      obtain ⟨hc, ht⟩ := step_lawful n op s r t hs he
      have hmt : t.build.mode = .plain := by rw [hc.build, hm]
      cases r with
      | ok a => exact ih ht hmt
      | error f => exact ih ((Move.aside (answered_aside (.error f) t)).sound ht) hmt

theorem checked_unblocked (react : Signal → State → Except (Halt × State) State) (x : Option α)
    (s u : State) : (Action.checked x s).settle react ≠ .halted .blocked u := by
  cases x with
  | some => exact fun h => by cases h
  | none =>
    simp only [Action.checked, Action.raise, Action.bind_apply, Action.thread_apply,
      Action.done_bind, Action.ite_apply]
    split <;> exact fun h => by cases h

theorem finish_unblocked (hs : Bare [] s) (hm : s.build.mode = .plain) (u : State) :
    (Action.finish s).settle (react (step n)) ≠ .halted .blocked u := by
  rw [Action.finish_settle]
  have hleft : giveUp (n + 1) s.thread.leftovers s.forsaken ≠ .halted .blocked u :=
    giveUp_unblocked hs.forsaken.sound hm u
  cases he : giveUp (n + 1) s.thread.leftovers s.forsaken with
  | halted x t =>
    intro h
    cases h
    exact hleft he
  | ended r t =>
    cases r with
    | error => exact fun h => by cases h
    | ok => exact checked_unblocked _ t.profiler.report? t u

/-- With plain counters no run halts because of a lock. -/
theorem steps_unblocked {script : Script} (hs : Bare [] s) (ho : script.Only Op.Neutral)
    (hm : s.build.mode = .plain) :
    ∀ x ∈ steps n script s, x.conclusion ≠ .halted .blocked := by
  induction script generalizing s with
  | nil =>
    rw [steps]
    have hfinish := finish_unblocked (n := n) hs hm
    cases he : (Action.finish s).settle (react (step n)) with
    | ended r t =>
      intro x hx
      rw [List.mem_singleton.1 hx]
      exact fun h => by cases h
    | halted y t =>
      intro x hx
      rw [List.mem_singleton.1 hx]
      intro h
      cases h
      exact hfinish t he
  | cons op ops ih =>
    rw [steps]
    cases he : step n op s with
    | ended r t =>
      intro x hx
      rcases List.mem_cons.1 hx with rfl | hx
      · exact fun h => by cases h
      · have hc := (step_lawful n op s r t hs.sound he).1
        exact ih (hs.ended ho.1 he) ho.2 (by rw [hc.build, hm]) x hx
    | halted y t =>
      intro x hx
      rw [List.mem_singleton.1 hx]
      intro h
      cases h
      exact step_unblocked n op s t hs.sound hm he

/-! ## Builds that agree -/

/-- The state after some operations, if none of them halts. -/
def State.after (n : Nat) : Script → State → Option State
  | [], s => some s
  | op :: ops, s => match step n op s with
    | .ended _ t => after n ops t
    | .halted _ _ => none

theorem after_onBuild (b : Build) {ops rest : Script} (hs : Bare [] s)
    (ho : Script.Only (ops ++ rest) Op.Neutral) (hc : Script.ClearRun n (ops ++ rest) s) :
    (s.onBuild b).after n ops = (s.after n ops).map (·.onBuild b) := by
  induction ops generalizing s with
  | nil => rfl
  | cons op ops ih =>
    rw [State.after, State.after, step_onBuild b n [] op s hs ho.1 hc.1]
    cases he : step n op s with
    | ended r t => exact ih (hs.ended ho.1 he) ho.2 (hc.2 r t he)
    | halted => rfl

section Agreement

variable {profiling : Bool} {environment : Table String Text.Utf8.Bytes} {script : Script}

theorem Bare.start (h : (State.start b profiling environment none).namedMode = none) :
    Bare [] (.start b profiling environment none) :=
  ⟨.start _ _ _ _, (Amid.start _ _ _ _).locked, ⟨rfl, h, fun _ => rfl⟩, .start _ _ _ _⟩

/-- **Builds agree.** Take a script that sets nothing up but native functions, where there is no
settings file and no mode in the environment, and in whose run on one build no operation asks for
the lock of a cell while a read acquires a claim from that cell. On any other build each operation
answers the same, and leaves the same ledger, journal, variables, handles and counters, up to the
mode that the first installation is told with. On no build does an operation wait for a lock that
is held. -/
theorem builds_agree (b b' : Build)
    (henv : (State.start b profiling environment none).namedMode = none)
    (ho : script.Only Op.Neutral)
    (hc : script.ClearRun (bodiesOf script + 1) (.start b profiling environment none)) :
    run script (.start b' profiling environment none) =
        (run script (.start b profiling environment none)).map (Step.onBuild b') ∧
      (∀ ops rest, script = ops ++ rest →
        (State.start b' profiling environment none).after (bodiesOf script + 1) ops =
          ((State.start b profiling environment none).after (bodiesOf script + 1) ops).map
            (·.onBuild b')) ∧
      ∀ x ∈ run script (.start b' profiling environment none), x.conclusion ≠ .halted .blocked := by
  have hs : Bare [] (.start b profiling environment none) := .start henv
  have hrun (b' : Build) : run script (.start b' profiling environment none) =
      (run script (.start b profiling environment none)).map (Step.onBuild b') :=
    steps_onBuild b' hs ho hc
  refine ⟨hrun b', fun ops rest he => ?_, fun x hx => ?_⟩
  · subst he
    exact after_onBuild b' hs ho hc
  -- with plain counters nothing waits, and on any build the run ends in the same way
  · rw [hrun b'] at hx
    obtain ⟨y, hy, rfl⟩ := List.mem_map.1 hx
    have hplain : y.onBuild .plain ∈ run script (.start .plain profiling environment none) := by
      rw [hrun .plain]
      exact List.mem_map_of_mem hy
    exact steps_unblocked (s := .start .plain profiling environment none) (.start henv) ho rfl
      (y.onBuild .plain) hplain

end Agreement

/-- A script in which a claim is read and another cell is looked at meanwhile. -/
def lookingMeanwhile : Script :=
  [.native (.install .a .b), .object (.allocate (some "claim")),
    .cell (.make "cell" (.shared "x" (some "claim"))), .cell (.make "other" (.shared "y" none)),
    .hook ⟨.counted, .acquired, 1⟩ [.cell (.use "other" false .isBound)],
    .cell (.use "cell" false (.readOwned "value")), .cell (.drop "other")]

theorem lookingMeanwhile_clear :
    lookingMeanwhile.ClearRun 2 (.start .plain true {} none) := by
  refine .cons (.of_course (fun _ h => by cases h) (fun _ h => by cases h) (.ends rfl)) rfl ?_
  refine .cons (.of_course (fun _ h => by cases h) (fun _ h => by cases h) (.ends rfl)) rfl ?_
  refine .cons (.of_course (fun _ h => by cases h) (fun _ h => by cases h) (.ends rfl)) rfl ?_
  refine .cons (.of_course (fun _ h => by cases h) (fun _ h => by cases h) (.ends rfl)) rfl ?_
  refine .cons (.of_course (fun _ h => by cases h) (fun _ h => by cases h) (.ends rfl)) rfl ?_
  refine .cons (.of_course (fun _ h => by cases h) (fun _ h => by cases h) ?_) rfl ?_
  · refine Act.Admits.heard rfl rfl ?_ rfl (.ends rfl)
    show Op.Clear 1 [0] (.cell (.use "other" false .isBound)) _
    refine .of_course (fun _ h => by cases h) (fun id hid hasks => ?_) (.ends rfl)
    obtain rfl := List.mem_singleton.1 hid
    rcases hasks with ⟨-, h⟩ | ⟨h, -⟩
    · exact absurd (Option.some.inj (show some 2 = some 0 from h)) (by decide)
    · cases h
  refine .cons (.of_course (fun _ h => by cases h) (fun _ h => by cases h) (.ends rfl)) rfl ?_
  show Script.ClearLeaving 3 [.cell (.drop "cell"), .object (.dropClaim "value")] _
  refine .cons (.of_course (fun _ h => by cases h) (fun _ h => by cases h)
    (.unheard rfl rfl (.ends rfl))) rfl ?_
  exact .cons (.of_course (fun _ h => by cases h) (fun _ h => by cases h)
    (.unheard rfl rfl (.unheard rfl rfl (.ends rfl)))) rfl trivial

/-- A claim is read while another cell is looked at, with plain and with atomic counters. -/
theorem builds_agree_reading : lookingMeanwhile.ClearRun 2 (.start .plain true {} none) ∧
    run lookingMeanwhile (.start .atomic true {} none) =
      (run lookingMeanwhile (.start .plain true {} none)).map (Step.onBuild .atomic) ∧
    ∀ x ∈ run lookingMeanwhile (.start .atomic true {} none), x.conclusion ≠ .halted .blocked := by
  have henv : (State.start .plain true {} none).namedMode = none := rfl
  have ho : lookingMeanwhile.Only Op.Neutral :=
    ⟨fun _ => ⟨_, _, rfl⟩, fun h => h.elim, fun h => h.elim, fun h => h.elim,
      ⟨fun h => h.elim, trivial⟩, fun h => h.elim, fun h => h.elim, trivial⟩
  obtain ⟨hrun, -, hblocked⟩ := builds_agree .plain .atomic henv ho lookingMeanwhile_clear
  exact ⟨lookingMeanwhile_clear, hrun, hblocked⟩

end ClaimCells
