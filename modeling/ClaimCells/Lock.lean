import ClaimCells.Possession

/-!
# The lock of a shared cell

A read that acquires a claim holds the lock of its cell while it does. With plain counters other
reads may share the lock, and a change is refused. With atomic counters the lock has one holder,
so an operation that asks for it again waits forever.
-/

namespace ClaimCells.Action

/-- What the handles of a shared cell have in common. -/
def sharing (id : SlotId) : Action Sharing := do
  demand .noSuchCell ((← get).sharing.get? id)

def setSharing (id : SlotId) (f : Sharing → Sharing) : Action Unit :=
  modify fun s => { s with sharing := s.sharing.modify id f }

/-- Asks for the lock in order to read. -/
def lockForReading (id : SlotId) : Action Unit := do
  if (← sharing id).readers ≠ 0 ∧ (← get).build.mode = .atomic then halt .blocked

/-- Asks for the lock in order to change the cell. -/
def lockForChange (id : SlotId) : Action Unit := do
  if (← sharing id).readers ≠ 0 then
    match (← get).build.mode with
    | .plain => raise .relocked
    | .atomic => halt .blocked

/-- Holds the lock while the action lasts. -/
def reading {α : Type} (id : SlotId) (a : Action α) : Action α := do
  lockForReading id
  setSharing id fun c => { c with readers := c.readers + 1 }
  let result ← attempt a
  setSharing id fun c => { c with readers := c.readers - 1 }
  ofExcept result

end ClaimCells.Action
