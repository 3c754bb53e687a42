import ClaimCells.Proofs.Closings

/-!
# Finalizers

A script that waits for a claim to be released, or for an object to be freed, is a finalizer. It runs
while the operation that gave up the claim is in progress, and can use what that works on. Yet all
goes as if the operation had run without it, and the finalizer after that.

`Act.postponing` runs a course in that order.

Main result: `finalizers_serialise`.
-/

namespace ClaimCells

open Act (Outcome)

variable {α : Type} {s t u : State} {H : List Claim} {J : State → Prop} {ρ : State → State}
  {c : Claim} {key : String} {k : KeptId} {e : Kept} {op : Op} {n : Nat} {g : Signal}
  {w : List Thread}

/-! ## Postponing -/

/-- Only scripts run that wait for a claim to be acquired. -/
def withoutFinalizers (serve : Signal → State → Except (Halt × State) State) (g : Signal)
    (s : State) : Except (Halt × State) State :=
  if g.moment = .acquired then serve g s else .ok s

/-- Runs what waits for a claim to be released, and for its object to be freed if it was. -/
def finalize (serve : Signal → State → Except (Halt × State) State) (c : Claim) (s : State) :
    Except (Halt × State) State :=
  (serve ⟨c.realm, .released, c.object⟩ s).bind fun t =>
    if c.realm = .counted ∧ t.thread.ledger.isFreed c.object = true then
      serve ⟨.counted, .freed, c.object⟩ t
    else .ok t

namespace Act

/-- The first claim that a course gives up. -/
def givenUp (serve : Signal → State → Except (Halt × State) State) : Act α → Option Claim
  | send g s next =>
    if g.moment = .acquired then
      match serve g s with
      | .ok t => givenUp serve (next t)
      | .error _ => none
    else some ⟨g.realm, g.object⟩
  | _ => none

/-- What comes after scripts. -/
def afterScripts (y : Except (Halt × State) State) (k : State → Outcome α) : Outcome α :=
  match y with
  | .ok u => k u
  | .error (h, u) => .halted h u

/-- How an action ends after which a claim is finalized. -/
def Outcome.finalizing (serve : Signal → State → Except (Halt × State) State) (c : Claim) :
    Outcome α → Outcome α
  | .ended r t => afterScripts (finalize serve c t) (.ended r)
  | .halted h t => .halted h t

/-- Runs a course without finalizers, and then that of the claim that it gave up. -/
def postponing (serve : Signal → State → Except (Halt × State) State) (x : Act α) : Outcome α :=
  (x.givenUp serve).elim (x.settle (withoutFinalizers serve)) fun c =>
    (x.settle (withoutFinalizers serve)).finalizing serve c

end Act

/-- Runs an operation without the finalizer that it sets off, and that when it is done. -/
def Op.postponed (n : Nat) (op : Op) (s : State) : Outcome Answer :=
  (op.course s).postponing (react (step n))

/-- An operation begins in a script that this one sets off. -/
def Op.SetsOff (n : Nat) (op : Op) (s : State) (op' : Op) (u : State) : Prop :=
  ∃ g t body M, (op.course s).Sends (react (step n)) g t ∧ t.hook? g = some body ∧
    Begun n [] body ((t.eraseHook g).note (.hook g)) M op' u

/-! ## Courses -/

theorem SameEnd.refl (x : Except (Halt × State) State) : SameEnd Eq State.Resembles x x := by
  cases x with
  | ok => exact .ok rfl
  | error p => exact .error (x := p.1) rfl

/-- The same end, or the same halt in states that resemble each other. -/
def Likeness.resembling : Likeness where
  sent _ _ _ := False
  ended := Eq
  halted := State.Resembles

theorem State.resembles_refl (s : State) : s.Resembles s := rfl

namespace Act

variable {serve : Signal → State → Except (Halt × State) State} {x : Act α}
  {Q P : Except Failure α → State → Prop}

theorem settle_ofExcept (r : Except Failure α) (t : State) :
    (Action.ofExcept r t).settle serve = .ended r t := by
  cases r <;> rfl

theorem givenUp_ofExcept (r : Except Failure α) (t : State) :
    (Action.ofExcept r t).givenUp serve = none := by
  cases r <;> rfl

theorem postponing_acquired {next : State → Act α} (hg : g.moment = .acquired)
    (ht : serve g t = .ok u) : (Act.send g t next).postponing serve = (next u).postponing serve := by
  simp only [postponing, settle, givenUp, withoutFinalizers, hg, if_true, ht]

theorem settle_send (g : Signal) (t : State) (next : State → Act α) :
    (send g t next).settle serve = afterScripts (serve g t) fun u => (next u).settle serve := by
  rw [settle]
  cases serve g t <;> rfl

theorem settle_parting (c : Claim) (t : State) (K : State → Act α) :
    (parting c t K).settle serve =
      afterScripts (finalize serve c t) fun u => (K u).settle serve := by
  rw [parting, settle_send, finalize]
  cases serve ⟨c.realm, .released, c.object⟩ t with
  | error p => rfl
  | ok u =>
    show settle serve (if _ then _ else _) = afterScripts (if _ then _ else _) _
    split
    · exact settle_send _ _ _
    · rfl

theorem givenUp_parting (c : Claim) (t : State) (K : State → Act α) :
    (parting c t K).givenUp serve = some c := by
  rw [parting, givenUp, if_neg fun h => by cases h]

theorem finalize_without (c : Claim) (t : State) :
    finalize (withoutFinalizers serve) c t = .ok t := by
  show (if _ then withoutFinalizers serve _ t else _) = _
  split <;> rfl

/-- The parts of what a claim sets off go the same way before and after what is left to do. -/
theorem finalize_mirrors {K : State → Act α} (hledger : ∀ u, (ρ u).thread.ledger = u.thread.ledger)
    (hj : J t) (hserve : ∀ g u, (parting c t K).Sends serve g u → J u →
      SameEnd (fun v w => v = ρ w ∧ J w ∧ Sound [] w ∧ w.thread.hands = u.thread.hands)
        State.Resembles (serve g (ρ u)) (serve g u)) :
    SameEnd (fun v u => v = ρ u ∧ J u ∧ u.thread.hands = t.thread.hands) State.Resembles
      (finalize serve c (ρ t)) (finalize serve c t) := by
  have hreleased := hserve _ t (.now _ _ _) hj
  rw [finalize, finalize]
  cases hu : serve ⟨c.realm, .released, c.object⟩ t with
  | error p =>
    rw [hu] at hreleased
    obtain ⟨v, hv, h⟩ := hreleased.of_error
    rw [hv]
    exact .error h
  | ok u =>
    rw [hu] at hreleased
    obtain ⟨_, hv, rfl, hju, -, hhu⟩ := hreleased.of_ok
    rw [hv]
    show SameEnd _ _ (if _ then _ else _) (if _ then _ else _)
    rw [hledger]
    split
    · next hfreed =>
      refine (hserve ⟨.counted, .freed, c.object⟩ u (.later hu ?_) hju).mono
        fun _ _ h => ⟨h.1, h.2.1, h.2.2.2.trans hhu⟩
      rw [if_pos hfreed]
      exact .now _ _ _
    · exact .ok ⟨rfl, hju, hhu⟩

theorem Outcome.mirrors_refl (x : Outcome α) : x.Mirrors .resembling Eq x := by
  cases x with
  | ended r t =>
    cases r with
    | ok => exact .done rfl rfl
    | error => exact .fail rfl
  | halted h t => exact .halt t.resembles_refl

theorem Outcome.Mirrors.ended_iff {x y : Outcome α} {r : Except Failure α}
    (h : x.Mirrors .resembling Eq y) : y = .ended r u ↔ x = .ended r u := by
  cases h with
  | done hv h =>
    obtain rfl := hv
    obtain rfl := h
    exact Iff.rfl
  | fail h =>
    obtain rfl := h
    exact Iff.rfl
  | halt => exact ⟨fun h => (by cases h), fun h => by cases h⟩

theorem Outcome.Mirrors.halted {x y : Outcome α} {h : Halt} (hm : x.Mirrors .resembling Eq y)
    (hy : y = .halted h u) : ∃ v, x = .halted h v ∧ v.Resembles u := by
  cases hm with
  | done | fail => cases hy
  | halt hr =>
    cases hy
    exact ⟨_, rfl, hr⟩

/-- **A course that gives up a claim at last runs as if what that sets off came after it**, if what
is left to do then is the same before and after that. -/
theorem Closes.postponing (h : x.Closes H J ρ Q P) (hledger : ∀ u, (ρ u).thread.ledger = u.thread.ledger)
    (hserve : ∀ g t, x.Sends serve g t → J t →
      SameEnd (fun v u => v = ρ u ∧ J u ∧ Sound [] u ∧ u.thread.hands = t.thread.hands)
        State.Resembles (serve g (ρ t)) (serve g t)) :
    Outcome.Mirrors .resembling Eq (x.postponing serve) (x.settle serve) := by
  induction h with
  | @ended r t =>
    rw [Act.postponing, settle_ofExcept, settle_ofExcept, givenUp_ofExcept]
    exact Outcome.mirrors_refl _
  | halt => exact Outcome.mirrors_refl _
  | @acquired g t next hg hj _ ih =>
    have hsame := hserve g t (.now g t next) hj
    cases ht : serve g t with
    | error p =>
      simp only [Act.postponing, settle, givenUp, withoutFinalizers, hg, if_true, ht]
      exact Outcome.mirrors_refl _
    | ok u =>
      rw [ht] at hsame
      rw [postponing_acquired hg ht, settle, ht]
      obtain ⟨v, -, -, hu, hs, hh⟩ := hsame.of_ok
      exact ih u hs hu hh fun g' t' hsend hj' => hserve g' t' (.later ht hsend) hj'
  | @last c r t K hj hh hq hK =>
    have hfin := finalize_mirrors hledger hj hserve
    have hquiet : (parting c t K).settle (withoutFinalizers serve) = .ended r (ρ t) := by
      rw [settle_parting, finalize_without, afterScripts, hK t hj hh]
      exact settle_ofExcept r (ρ t)
    rw [Act.postponing, givenUp_parting, hquiet, settle_parting]
    show Outcome.Mirrors _ _ (afterScripts (finalize serve c (ρ t)) _) _
    generalize finalize serve c (ρ t) = y, finalize serve c t = z at hfin
    cases hfin with
    | error h => exact .halt h
    | @ok v u h =>
      obtain ⟨rfl, hu, hhu⟩ := h
      show Outcome.Mirrors _ _ (.ended r (ρ u)) ((K u).settle serve)
      rw [hK u hu (hhu.trans hh), settle_ofExcept]
      exact Outcome.mirrors_refl _

/-- Where it ends without finalizers, all that is left to do has been done since it gave up the
claim. -/
theorem Closes.quiet {r : Except Failure α} (h : x.Closes H J ρ Q P)
    (hserve : ∀ g t u, x.Sends serve g t → J t → serve g t = .ok u →
      J u ∧ Sound [] u ∧ u.thread.hands = t.thread.hands)
    (hx : x.settle (withoutFinalizers serve) = .ended r t) (hc : x.givenUp serve = some c) :
    ∃ u, Q r u ∧ t = ρ u := by
  induction h with
  | ended =>
    rw [givenUp_ofExcept] at hc
    cases hc
  | halt => cases hc
  | @acquired g t next hg hj _ ih =>
    cases ht : serve g t with
    | error p =>
      simp only [givenUp, hg, if_true, ht] at hc
      cases hc
    | ok u =>
      simp only [givenUp, settle, withoutFinalizers, hg, if_true, ht] at hx hc
      obtain ⟨hu, hs, hh⟩ := hserve g t u (.now g t next) hj ht
      exact ih u hs hu hh (fun g' t' u' hsend => hserve g' t' u' (.later ht hsend)) hx hc
  | @last c r' t K hj hh hq hK =>
    rw [settle_parting, finalize_without, afterScripts, hK t hj hh, settle_ofExcept] at hx
    cases hx
    exact ⟨t, hq, rfl⟩

end Act

/-! ## What is left to do -/

theorem Kept.engaged_disengaged (e : Kept) : e.engaged.disengaged.engaged = e.engaged := by
  obtain ⟨c, users, readers, exclusive⟩ := e
  cases c <;> rfl

namespace State.Engages

variable (h : t.Engages key k e.engaged)

include h

theorem engaged_eq : (t.disengaged k).engaged k t.waiting = t := by
  have hback : (t.flag k Kept.disengaged).flag k Kept.engaged = t :=
    State.flag_back h.2 e.engaged_disengaged
  rw [State.engaged_eq]
  exact congrArg (fun u : State => { u with waiting := t.waiting }) hback

theorem hosts (hs : Sound [] t) : (t.disengaged k).Hosts k key (some e.engaged.disengaged) where
  young := hs.thread.young k _ h.2
  kept := (Table.get?_modify_self _ _ _).trans (by rw [h.2]; rfl)
  keyed key' := ⟨fun hkey => ⟨rfl, hs.thread.distinct key' key k hkey h.1⟩,
    fun hkey => hkey.2 ▸ h.1⟩

end State.Engages

/-- What an operation notes of the cell that it changes, and takes away when it leaves it. -/
theorem State.Hosts.engages (h : s.Hosts k key (some e.engaged.disengaged)) :
    (s.engaged k w).Engages key k e.engaged :=
  ⟨(h.keyed key).2 ⟨rfl, rfl⟩, by rw [State.engaged_self h.kept, Kept.engaged_disengaged]⟩

theorem State.Hosts.disengaged (h : s.Hosts k key (some e.engaged.disengaged)) :
    (s.engaged k s.waiting).disengaged k = s := by
  rw [State.engaged_eq]
  exact State.flag_back h.kept (congrArg Kept.disengaged e.engaged_disengaged)

/-! ## Operations -/

section Operations

/-- What a signal sets off goes the same way when the operation has left its cell. -/
theorem react_disengaged (hs : Sound [] t) (h : t.Engages key k e.engaged)
    (hb : ∀ body op' u M, t.hook? g = some body →
      Begun n [] body ((t.eraseHook g).note (.hook g)) M op' u → ¬ op'.Disturbs k u) :
    SameEnd (fun v u => v = u.disengaged k ∧ u.Engages key k e.engaged ∧ Sound [] u ∧
        u.thread.hands = t.thread.hands)
      State.Resembles (react (step n) g (t.disengaged k)) (react (step n) g t) := by
  have hhosts := h.hosts hs
  have hs' : Sound [] (t.disengaged k) := hs.flag fun e => by
    obtain ⟨c, users, readers, exclusive⟩ := e
    cases c <;> rfl
  have hsame := react_engaged (w := t.waiting) (g := g) (step_engaged n) hhosts
    (L := []) (fun body hbody M op' u hbegun => by
      rw [h.engaged_eq] at hbody hbegun
      exact hb body op' u M hbody hbegun)
  rw [h.engaged_eq] at hsame
  have hl := react_lawful (step_lawful n)
  refine hsame.also fun v u hv hu h' => ?_
  obtain ⟨hcame, hsound⟩ := hl g t u hs hu
  have hw : v.waiting = t.waiting := (hl g _ v hs' hv).1.waiting
  obtain ⟨rfl, h'⟩ := h'
  exact ⟨by rw [← hw, h'.disengaged], h'.engages, hsound, hcame.hands⟩

/-- How an operation that gives up a claim closes. -/
theorem Op.closing (hs : Sound [] s) (hop : op.GivesUp)
    (hfree : ∀ k, op.kept? s = some k → ∀ op' u, op.SetsOff n s op' u → ¬ op'.Disturbs k u) :
    ∃ (J : State → Prop) (ρ : State → State) (P : Except Failure Answer → State → Prop),
      (op.course s).Closes s.thread.hands J ρ (IfSucceeds fun t => op.Leaves s t) P ∧
      (∀ u, (ρ u).thread.ledger = u.thread.ledger) ∧
      (∀ g t, (op.course s).Sends (react (step n)) g t → J t →
        SameEnd (fun v u => v = ρ u ∧ J u ∧ Sound [] u ∧ u.thread.hands = t.thread.hands)
          State.Resembles (react (step n) g (ρ t)) (react (step n) g t)) ∧
      ∀ t, op.Leaves s t → op.Leaves s (ρ t) := by
  cases hkept : op.kept? s with
  | none =>
    refine ⟨fun _ => True, id, _, Action.rest_closes hs hop hkept, fun _ => rfl,
      fun g t hsend _ => ?_, fun t h => h⟩
    refine (SameEnd.refl (react (step n) g t)).also fun v u _ hu h => ?_
    obtain ⟨hcame, hs'⟩ := react_lawful (step_lawful n) g t u (hs.sends hsend) hu
    exact ⟨h, trivial, hs', hcame.hands⟩
  | some k =>
    obtain ⟨key, bound, verb, rfl, hc⟩ := Op.kept?_some hkept
    obtain ⟨e, hk⟩ := Option.isSome_iff_exists.1 (hs.thread.keyed key k hc)
    refine ⟨_, _, _, Action.use_closes hs hc hk hop, fun _ => rfl, fun g t hsend hj => ?_,
      fun t h => ?_⟩
    · exact react_disengaged (hs.sends hsend) hj fun body op' u M hbody hbegun =>
        hfree k hkept op' u ⟨g, t, body, M, hsend, hbody, hbegun⟩
    · cases verb <;> exact h

/-- **Finalizers serialise.** Whatever an operation sets off when it gives up a claim, it goes as if
the operation had run without that, and that after it: the operation answers the same, and leaves the
same state. If it comes to a halt, so it does in the other order. The finalizer must not be in the
way of the operation. It finds the variable changed, or gone. -/
theorem finalizers_serialise (hs : Reached s) (hop : op.GivesUp)
    (hfree : ∀ k, op.kept? s = some k → ∀ op' u, op.SetsOff n s op' u → ¬ op'.Disturbs k u) :
    (∀ r u, step (n + 1) op s = .ended r u ↔ op.postponed n s = .ended r u) ∧
      (∀ h u, step (n + 1) op s = .halted h u →
        ∃ v, op.postponed n s = .halted h v ∧ v.Resembles u) ∧
      ∀ a t c, (op.course s).settle (withoutFinalizers (react (step n))) = .ended (.ok a) t →
        (op.course s).givenUp (react (step n)) = some c → op.Leaves s t := by
  have hop' : ∀ body, op ≠ .thread body := fun body hb => by
    subst hb
    exact hop
  have hclosing := Op.closing hs.sound hop hfree
  obtain ⟨J, ρ, P, hcloses, hledger, hserve, hleaves⟩ := hclosing
  have hsame := hcloses.postponing hledger hserve
  rw [step_perform hop']
  refine ⟨fun r u => hsame.ended_iff, fun h u => hsame.halted, fun a t c hx hc => ?_⟩
  obtain ⟨u, hu, rfl⟩ := hcloses.quiet (fun g t u hsend hj hu => by
    obtain ⟨-, -, -, h⟩ := (hu ▸ hserve g t hsend hj).of_ok
    exact h) hx hc
  exact hleaves u (hu ⟨a, rfl⟩)

end Operations

/-- A shared cell with two handles, and a finalizer of its object that reads the cell and binds it
again. -/
def rebindingAtRelease : Script :=
  [.object (.allocate (some "old")), .object (.allocate (some "new")),
    .object (.allocate (some "last")), .cell (.make "handle" (.shared "x" (some "old"))),
    .cell (.use "handle" false (.retain "other")),
    .hook ⟨.counted, .released, 1⟩
      [.cell (.use "other" false .read), .cell (.use "other" false (.assign "last"))]]

theorem Reached.after {ops : Script} (h : Reached s) (ha : s.after n ops = some t) : Reached t := by
  induction ops generalizing s with
  | nil =>
    cases ha
    exact h
  | cons op ops ih =>
    rw [State.after] at ha
    cases he : step n op s with
    | ended r u => exact ih (h.ended he) (by rw [he] at ha; exact ha)
    | halted => rw [he] at ha; cases ha

theorem after_cons {ops : Script} {r : Reply} (he : step n op s = .ended r t)
    (h : t.after n ops = some u) : s.after n (op :: ops) = some u := by
  rw [State.after, he]
  exact h

theorem Op.SetsOff.admitted {P : List SlotId → Op → State → Prop} {op' : Op}
    (h : op.SetsOff n s op' u) (hc : (op.course s).Admits P n [] fun _ => []) :
    ∃ M, P M op' u := by
  obtain ⟨g, t, body, M, hg, hb, hbegun⟩ := h
  exact ⟨M, hc.sends hg hb M op' u hbegun⟩

/-- Nothing disturbs a cell that only has another key. -/
theorem Op.Disturbs.of_use {verb : Verb} {bound : Bool} (hv : ∀ new, verb ≠ .retain new)
    (h : (Op.cell (.use key bound verb)).Disturbs k u) : u.thread.cells.get? key = some k := by
  obtain ⟨key', hk, hgive | ⟨rfl, -⟩⟩ := h
  · cases verb with
    | retain new => exact absurd rfl (hv new)
    | _ => exact hgive.elim
  · exact hk

theorem rebinding_undisturbed : ∃ s u,
    (State.start .plain true {} none).after 3 rebindingAtRelease = some s ∧
      step 3 (.cell (.use "handle" false (.assign "new"))) s = .ended (.ok .nothing) u ∧
      u.Holds 0 (some 3) ∧ .answered (.ok (.object 2)) ∈ u.journal ∧
      s.thread.cells.get? "handle" = some 1 ∧
      ((Op.cell (.use "handle" false (.assign "new"))).course s).Admits
        (fun _ op u => ¬ op.Disturbs 1 u) 2 [] fun _ => [] := by
  refine ⟨_, _, after_cons rfl (after_cons rfl (after_cons rfl (after_cons rfl (after_cons rfl
    (after_cons rfl rfl))))), rfl, ⟨_, rfl, rfl⟩,
    List.mem_of_getElem? (i := 4) rfl, rfl, ?_⟩
  have hother {bound : Bool} {verb : Verb} {u : State} (hv : ∀ new, verb ≠ .retain new)
      (hk : u.thread.cells.get? "other" = some 2) :
      ¬ (Op.cell (.use "other" bound verb)).Disturbs 1 u := fun h => by
    rw [h.of_use hv] at hk
    cases hk
  refine .heard rfl rfl ?_ rfl (.unheard rfl rfl (.ends rfl))
  refine .cons (.of_course (fun _ h => by cases h) (hother (fun _ h => by cases h) rfl)
    (.ends rfl)) rfl ?_
  exact .cons (.of_course (fun _ h => by cases h) (hother (fun _ h => by cases h) rfl)
    (.unheard rfl rfl (.unheard rfl rfl (.ends rfl)))) rfl .nil

/-- The finalizer finds the new value, and what it assigns wins over what set it off. -/
theorem finalizers_serialise_rebinding : ∃ s u,
    (State.start .plain true {} none).after 3 rebindingAtRelease = some s ∧
      step 3 (.cell (.use "handle" false (.assign "new"))) s = .ended (.ok .nothing) u ∧
      Op.postponed 2 (.cell (.use "handle" false (.assign "new"))) s = .ended (.ok .nothing) u ∧
      .answered (.ok (.object 2)) ∈ u.journal ∧ u.Holds 0 (some 3) := by
  obtain ⟨s, u, ha, he, hu, hread, hk, hc⟩ := rebinding_undisturbed
  have hs : Reached s := (Reached.start .plain true {} none).after ha
  have hop : (Op.cell (.use "handle" false (.assign "new"))).GivesUp := trivial
  obtain ⟨hsame, -, -⟩ := finalizers_serialise hs hop fun k hk' op' u' hset => by
    obtain rfl := Option.some.inj (hk.symm.trans hk')
    exact (hset.admitted hc).choose_spec
  exact ⟨s, u, ha, he, (hsame _ u).1 he, hread, hu⟩

end ClaimCells
