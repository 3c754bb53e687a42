import ClaimCells.Proofs.Native

/-!
# Operations

Every operation leaves the hands of its thread as it found them, and does to variables, handles and
kept claims what `Op.Does` says. Scripts that its signals set off are operations in their own
right: what they do is not counted to the operation that waits for them.

Main result: `performing_does`.
-/

namespace ClaimCells

variable {s s' t : State} {l : List Cell} {ds : List Deed} {r : Reply} {f : Failure}

/-- What an operation does to variables, handles and kept claims, and what it answers. -/
def Op.Does (s : State) : Op → List Deed → Reply → State → Prop
  | .cell op, ds, r, s' => op.Does s ds r s'
  | .object _, ds, _, _ => Handing ds
  | .native op, ds, _, _ => Foreign s op.Permits ds
  | _, ds, _, _ => ds = []

/-- A failure stands when claims are given up after it. -/
theorem CellOp.Does.onward {op : CellOp} (hs : Sound [] s) (h : op.Does s ds (.error f) s')
    (hc : Onward s s') (hc' : Onward s' t) : op.Does s ds (.error f) t := by
  cases op with
  | make key how =>
    rcases h with ⟨v, t', u, es, hv, ht, hu, hd, rfl, ha, hnil⟩ | h
    · exact .inl ⟨v, t', u, es, hv, ht, hu, hd, rfl, ha, fun hes => nomatch (hnil hes).1⟩
    · exact .inr h
  | use key bound verb =>
    rw [CellOp.Does, State.At] at h ⊢
    cases hk : s.thread.cells.get? key with
    | none => rwa [hk] at h
    | some k =>
      rw [hk] at h
      obtain ⟨e, he, v, hv, hp | ⟨hgone, hp⟩⟩ := h
      · exact ⟨e, he, v, hv, .inl hp⟩
      · have hyoung : k < s'.next := (hs.thread.young k e he).trans_le hc.lasting.next
        exact ⟨e, he, v, hv, .inr ⟨hc'.gone k hyoung hgone, hp⟩⟩
  | drop key => exact h
  | release key => exact h
  | intoInner key new =>
    rw [CellOp.Does, State.At] at h ⊢
    cases hk : s.thread.cells.get? key with
    | none => rwa [hk] at h
    | some k =>
      rw [hk] at h
      obtain ⟨⟨c, users, readers, exclusive⟩, he, hp⟩ := h
      refine ⟨_, he, ?_⟩
      cases c with
      | handle => exact hp
      | own form id =>
        cases form with
        | plain | temporary => exact hp
        | parameter =>
          refine hp.imp_right (And.imp_right ?_)
          rintro ⟨hd, ha, hapart, hnil⟩
          exact ⟨hd, ha, hapart, fun hes => nomatch (hnil hes).1⟩

theorem Op.Does.onward {op : Op} (hs : Sound [] s) (h : op.Does s ds (.error f) s')
    (hc : Onward s s') (hc' : Onward s' t) : op.Does s ds (.error f) t := by
  cases op with
  | cell op => exact CellOp.Does.onward hs h hc hc'
  | _ => exact h

namespace Action

open Act (Does)

theorem Works.performs {x : Act Answer} {P : List Deed → Reply → Prop}
    {Q : List Deed → Reply → State → Prop} (h : x.Does (Works s P) [] [] s)
    (hq : ∀ ds r s', P ds r → Q ds r s') : x.Does (Performs s Q) [] [] s := by
  refine h.imp ?_
  rintro ds l r s' ⟨hl, hp, hown⟩
  exact ⟨hl, hq _ _ _ hp, hown⟩

theorem Idle.performs {a : Action Answer} (ha : Idle a) (hs : Sound [] s) :
    (a s).Does (Performs s fun ds _ _ => ds = []) [] [] s :=
  Works.performs (P := fun ds _ => ds = []) (ha.works hs fun _ => rfl) fun _ _ _ h => h

/-- What an operation does until it fails or comes to its end. -/
theorem perform_does (op : Op) (hs : Sound [] s) :
    (perform op s).Does (Performs s (op.Does s)) [] [] s := by
  cases op with
  | object op => exact Works.performs (performObject_does op hs) fun _ _ _ h => h
  | cell op => exact performCell_does op hs
  | settings op => exact (performSettings_plain (T := True) op).idle.performs hs
  | manager ofProcess op => exact (performManager_plain (T := True) ofProcess op).idle.performs hs
  | process op => exact (performProcess_plain (T := True) op).idle.performs hs
  | stats op => exact (performStats_plain (T := True) op).idle.performs hs
  | profiler own op => exact (performProfiler_plain (T := True) fun _ _ => trivial).idle.performs hs
  | native op => exact Works.performs (performNative_does op hs) fun _ _ _ h => h
  | hook g body => exact (hook_plain (T := True) g body).idle.performs hs
  | thread body => exact (Idle.pure _).performs hs
  | dump => exact dump_idle.performs hs

/-- **Every operation** does what `Op.Does` says, and leaves the hands as it found them. -/
theorem performing_does (op : Op) (hs : Sound [] s) :
    (unwinding (perform op) s).Does
      (fun ds l r s' => l = [] ∧ op.Does s ds r s' ∧ Came s s.thread.hands s') [] [] s := by
  refine unwinding_does hs (perform_does op hs) ?_ ?_
  · rintro ds l x s' - ⟨rfl, hp, own, hc, hown⟩
    obtain rfl := hown x rfl
    exact ⟨rfl, hp, hc⟩
  · rintro ds l f s' - ⟨rfl, hp, own, hc, -⟩
    exact ⟨rfl, own, hc.hands, fun s'' h =>
      ⟨rfl, hp.onward hs hc.toOnward h.toOnward, hc.trans h⟩⟩

end Action

end ClaimCells
