import ClaimCells.Proofs.Balance
import ClaimCells.Proofs.Conservation

/-!
# Giving up claims

The ledger when claims are given up. A release takes a claim from an object that has one, and frees
it with the last; of any other object it is refused, and then nothing changes.

What a number of releases leaves behind does not depend on their order: of the claims that an object
has as many are gone as were given up, and what was given up beyond them was refused.

Main results: `Sound.giveUpAll`, `Sound.agree_of_perm`, and `Reached.reckons`, which tells of the
ledger that an operation finds.
-/

namespace ClaimCells

variable {s s' t : State} {l l' : List Cell} {ds : List Deed} {o x : ObjectId} {k k' : Ledger}

namespace Ledger

/-! ## One release -/

/-- Only objects with claims are released. -/
theorem Sound.alive (hk : k.Sound) (h : k.release o = .ok k') : 0 < k.count o := by
  rw [Ledger.release] at h
  split at h
  · cases h
  · split at h
    · cases h
    · next n hn =>
      rw [count, hn]
      exact (hk.counted o n hn).1

/-- What a release does besides counting. -/
theorem release_rest (h : k.release o = .ok k') : k'.last = k.last ∧ k'.acquires = k.acquires ∧
    k'.releases = k.releases + 1 ∧
      ∀ x, k'.isFreed x = true ↔ k.isFreed x = true ∨ x = o ∧ k.count o ≤ 1 := by
  rw [Ledger.release] at h
  split at h
  · cases h
  · split at h
    · cases h
    · next n hn =>
      have hcount : k.count o = n := by rw [count, hn, Option.getD_some]
      split at h
      · next hn0 =>
        cases h
        refine ⟨rfl, rfl, rfl, fun x => ?_⟩
        simp only [isFreed, List.contains_eq_mem, List.mem_cons, decide_eq_true_eq, hcount]
        refine ⟨fun h => h.elim (fun h => .inr ⟨h, by omega⟩) .inl, fun h => ?_⟩
        exact h.elim .inr fun h => .inl h.1
      · next hn0 =>
        cases h
        refine ⟨rfl, rfl, rfl, fun x => (or_iff_left fun h => ?_).symm⟩
        omega

/-! ## Many releases -/

/-- The ledger after a claim was given up. A release that is refused changes nothing. -/
def giveUp (k : Ledger) (o : ObjectId) : Ledger :=
  match k.release o with
  | .ok k' => k'
  | .error _ => k

/-- The ledger after claims were given up one after the other. -/
def giveUpAll (k : Ledger) (os : List ObjectId) : Ledger :=
  os.foldl giveUp k

/-- All claims that are counted. -/
def total (k : Ledger) : Nat :=
  k.claims.sum fun _ n => n

theorem giveUp_ok (h : k.release o = .ok k') : k.giveUp o = k' := by
  rw [giveUp, h]

theorem giveUp_error {m : Misuse} (h : k.release o = .error m) : k.giveUp o = k := by
  rw [giveUp, h]

/-- A release is refused just when the object has no claim. -/
theorem Sound.refused (hk : k.Sound) {m : Misuse} (h : k.release o = .error m) : k.count o = 0 := by
  by_contra hne
  obtain ⟨k', hk', -⟩ := hk.release (Nat.pos_of_ne_zero hne)
  cases h.symm.trans hk'

theorem total_release (h : k.release o = .ok k') (hk : k.Sound) : k'.total + 1 = k.total := by
  have halive := hk.alive h
  rw [Ledger.release] at h
  split at h
  · cases h
  · split at h
    · cases h
    · next n hn =>
      have htotal := Table.sum_erase_of_get? hn fun _ n => n
      rw [count, hn, Option.getD_some] at halive
      split at h
      · next hn0 =>
        cases h
        change (k.claims.erase o).sum _ + 1 = k.claims.sum _
        omega
      · cases h
        change (k.claims.insert o (n - 1)).sum _ + 1 = k.claims.sum _
        rw [Table.sum_insert]
        omega

/-- What giving up a claim does to a ledger. -/
structure GivesUp (k : Ledger) (n : ObjectId → Nat) (k' : Ledger) : Prop where
  sound : k'.Sound
  count : ∀ x, k'.count x = k.count x - n x
  freed : ∀ x, k'.isFreed x = true ↔ k.isFreed x = true ∨ 0 < k.count x ∧ k.count x ≤ n x
  last : k'.last = k.last
  acquires : k'.acquires = k.acquires
  releases : k'.releases + k'.total = k.releases + k.total

theorem Sound.giveUp (hk : k.Sound) (o : ObjectId) :
    k.GivesUp (fun x => if x = o then 1 else 0) (k.giveUp o) := by
  cases h : k.release o with
  | error m =>
    have hnone := hk.refused h
    rw [giveUp_error h]
    refine ⟨hk, fun x => ?_, fun x => (or_iff_left fun hx => ?_).symm, rfl, rfl, rfl⟩
    · split
      · next hx => rw [hx, hnone]
      · rfl
    · obtain ⟨hpos, hle⟩ := hx
      split at hle
      · next hx => rw [hx, hnone] at hpos; exact absurd hpos (lt_irrefl _)
      · omega
  | ok k' =>
    have halive := hk.alive h
    obtain ⟨k'', h', hsound, hcount⟩ := hk.release halive
    obtain rfl : k' = k'' := Except.ok.inj (h.symm.trans h')
    obtain ⟨hlast, hacq, hrel, hfreed⟩ := release_rest h
    have htotal := total_release h hk
    rw [giveUp_ok h]
    refine ⟨hsound, fun x => ?_, fun x => ?_, hlast, hacq, by omega⟩
    · have h := hcount x
      omega
    · rw [hfreed]
      refine or_congr_right ?_
      split
      · next hx => rw [hx]; exact ⟨fun h => ⟨halive, h.2⟩, fun h => ⟨rfl, h.2⟩⟩
      · next hx => exact ⟨fun h => absurd h.1 hx, fun h => by omega⟩

theorem GivesUp.trans {n n' : ObjectId → Nat} {k'' : Ledger} (h : k.GivesUp n k')
    (h' : k'.GivesUp n' k'') : k.GivesUp (fun x => n x + n' x) k'' where
  sound := h'.sound
  count x := by rw [h'.count, h.count, Nat.sub_sub]
  freed x := by
    rw [h'.freed, h.freed, h.count, or_assoc]
    refine or_congr_right ?_
    omega
  last := h'.last.trans h.last
  acquires := h'.acquires.trans h.acquires
  releases := h'.releases.trans h.releases

/-- **Giving up claims** takes as many from each object, down to none. -/
theorem Sound.giveUpAll (hk : k.Sound) (os : List ObjectId) :
    k.GivesUp (os.count ·) (k.giveUpAll os) := by
  induction os generalizing k with
  | nil =>
    refine ⟨hk, fun x => rfl, fun x => (or_iff_left fun h => ?_).symm, rfl, rfl, rfl⟩
    exact absurd (h.1.trans_le h.2) (lt_irrefl _)
  | cons o os ih =>
    have hone := hk.giveUp o
    have hcount : ((o :: os).count · : ObjectId → Nat) =
        fun x => (if x = o then 1 else 0) + os.count x := by
      funext x
      rw [List.count_cons, Nat.add_comm]
      by_cases hx : x = o
      · rw [hx, if_pos (beq_self_eq_true o), if_pos rfl]
      · rw [if_neg (by simpa using Ne.symm hx), if_neg hx]
    rw [hcount]
    exact hone.trans (ih hone.sound)

/-- Two ledgers say the same of every object, and counted as many releases. -/
structure Agree (k k' : Ledger) : Prop where
  count : ∀ x, k'.count x = k.count x
  freed : ∀ x, k'.isFreed x = k.isFreed x
  last : k'.last = k.last
  acquires : k'.acquires = k.acquires
  releases : k'.releases = k.releases

/-- The claims that are counted are those of the objects that have some. -/
theorem Sound.get? (hk : k.Sound) (o : ObjectId) :
    k.claims.get? o = if k.count o = 0 then none else some (k.count o) := by
  rw [count]
  cases hn : k.claims.get? o with
  | none => rfl
  | some n => rw [Option.getD_some, if_neg (Nat.one_le_iff_ne_zero.1 (hk.counted o n hn).1)]

theorem Sound.total_congr (hk : k.Sound) (hk' : k'.Sound) (h : ∀ x, k'.count x = k.count x) :
    k'.total = k.total :=
  Table.sum_congr fun x => by rw [hk.get?, hk'.get?, h]

/-- **The order in which claims are given up makes no difference.** -/
theorem Sound.agree_of_perm (hk : k.Sound) {os os' : List ObjectId} (h : os.Perm os') :
    (k.giveUpAll os).Agree (k.giveUpAll os') := by
  have h₁ := hk.giveUpAll os
  have h₂ := hk.giveUpAll os'
  have hcount : ∀ x, (k.giveUpAll os').count x = (k.giveUpAll os).count x := fun x => by
    rw [h₁.count, h₂.count, h.count_eq]
  refine ⟨hcount, fun x => Bool.eq_iff_iff.2 ?_, h₂.last.trans h₁.last.symm,
    h₂.acquires.trans h₁.acquires.symm, ?_⟩
  · rw [h₁.freed, h₂.freed, h.count_eq]
  · have htotal := h₁.sound.total_congr h₂.sound hcount
    have hrel₁ := h₁.releases
    have hrel₂ := h₂.releases
    omega

end Ledger

/-! ## The ledgers of threads -/

/-- Every object that the ledger of the thread handed out has claims or is freed, and those that
have claims may be used as objects. -/
structure Thread.Reckons (t : Thread) : Prop where
  ledger : t.ledger.Sound
  known : ∀ o, 0 < t.ledger.count o → o ∈ t.known

/-- A new thread has handed out nothing. -/
theorem Thread.Reckons.fresh {t : Thread} (h : t.ledger = {}) : t.Reckons := by
  refine ⟨h ▸ ⟨fun o n hn => ?_, fun o ho => ?_, fun o hpos hle => ?_⟩, fun o ho => ?_⟩
  · cases hn
  · cases ho
  · exact absurd hle (Nat.not_le.2 hpos)
  · rw [h] at ho
    exact absurd ho (lt_irrefl 0)

/-- So it is on the running thread and on those that wait for it. -/
def State.Reckons (s : State) : Prop :=
  ∀ t ∈ s.thread :: s.waiting, t.Reckons

namespace State.Reckons

theorem running (h : s.Reckons) : s.thread.Reckons :=
  h s.thread List.mem_cons_self

theorem changed (h : s.Reckons) (hw : s'.waiting = s.waiting) (ht : s'.thread.Reckons) :
    s'.Reckons := by
  intro t hmem
  rcases List.mem_cons.1 hmem with rfl | hmem
  · exact ht
  · exact h t (List.mem_cons_of_mem _ (hw ▸ hmem))

theorem same (h : s.Reckons) (hw : s'.waiting = s.waiting)
    (hl : s'.thread.ledger = s.thread.ledger) (hk : ∀ o ∈ s.thread.known, o ∈ s'.thread.known) :
    s'.Reckons :=
  h.changed hw ⟨hl ▸ h.running.ledger, fun o ho => hk o (h.running.known o (hl ▸ ho))⟩

end State.Reckons

/-- Moves add claims only to objects that have some, or that are new. -/
theorem Move.reckons (m : Move l s ds l' s') (h : s.Reckons) : s'.Reckons := by
  have hrun := h.running
  cases m with
  | aside ha => exact h.same ha.waiting ha.ledger ha.known
  | allocated =>
    refine h.changed rfl ⟨hrun.ledger.allocate, fun o ho => ?_⟩
    change 0 < s.thread.ledger.allocate.2.count o at ho
    rw [hrun.ledger.count_allocate] at ho
    split at ho
    · next heq =>
      rw [heq]
      exact List.mem_cons_self
    · exact List.mem_cons_of_mem _ (hrun.known o ho)
  | @gained o' k' hk =>
    refine h.changed rfl ⟨hrun.ledger.acquire hk, fun o ho => hrun.known o ?_⟩
    obtain ⟨n, hn, -⟩ := Ledger.acquire_eq hk
    change 0 < k'.count o at ho
    rw [Ledger.count_acquire hk] at ho
    split at ho
    · next heq =>
      rw [heq, Ledger.count, hn]
      exact (hrun.ledger.counted o' n hn).1
    · exact ho
  | @released o' k' hc hk =>
    obtain ⟨k'', hk'', hsound, hcount⟩ := hrun.ledger.release (hrun.ledger.alive hk)
    obtain rfl : k' = k'' := Except.ok.inj (hk.symm.trans hk'')
    refine h.changed rfl ⟨hsound, fun o ho => hrun.known o ?_⟩
    change 0 < k'.count o at ho
    rw [← hcount o]
    exact Nat.add_pos_left ho _
  | _ => exact h.same rfl rfl fun _ h => h

theorem Stable.reckons : Stable State.Reckons where
  move _ m h := m.reckons h
  startThread h t ht := by
    rcases List.mem_cons.1 ht with rfl | ht
    · exact .fresh rfl
    · exact h t ht
  endThread _ hw h t ht := h t (List.mem_cons_of_mem _ (hw ▸ ht))

/-- The ledgers reckon in every state that is reached. -/
theorem Reached.reckons (h : Reached s) : s.Reckons := by
  refine h.stable .reckons fun _ _ _ _ t ht => ?_
  obtain rfl := List.mem_singleton.1 ht
  exact .fresh rfl

end ClaimCells
