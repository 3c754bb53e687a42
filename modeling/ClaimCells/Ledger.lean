import ClaimCells.Table

/-!
# The ledger of claims

Objects are numbers, handed out from one upwards. The ledger counts the claims on each object
that still has one and remembers the objects whose last claim was given up. A claim can only be
added to or taken from an object that has claims; anything else is a misuse and changes nothing.
-/

namespace ClaimCells

abbrev ObjectId := Nat

/-- A call that the ledger refuses. -/
inductive Misuse
  | acquireFreed (object : ObjectId)
  | acquireUnknown (object : ObjectId)
  | releaseFreed (object : ObjectId)
  | releaseUnknown (object : ObjectId)
deriving DecidableEq, Repr

structure Ledger where
  /-- The number handed out last. -/
  last : Nat := 0
  /-- The claims on every object that has one. -/
  claims : Table ObjectId Nat := {}
  /-- The objects whose last claim is gone. -/
  freed : List ObjectId := []
  /-- Claims added to objects that had one already. -/
  acquires : Nat := 0
  releases : Nat := 0

namespace Ledger

/-- The claims on an object. -/
def count (l : Ledger) (o : ObjectId) : Nat :=
  (l.claims.get? o).getD 0

def isFreed (l : Ledger) (o : ObjectId) : Bool :=
  l.freed.contains o

/-- How many objects have a claim. -/
def live (l : Ledger) : Nat :=
  l.claims.size

/-- A new object with one claim. -/
def allocate (l : Ledger) : ObjectId × Ledger :=
  (l.last + 1, { l with last := l.last + 1, claims := l.claims.insert (l.last + 1) 1 })

/-- One more claim on an object. -/
def acquire (l : Ledger) (o : ObjectId) : Except Misuse Ledger :=
  if l.isFreed o then .error (.acquireFreed o)
  else match l.claims.get? o with
    | none => .error (.acquireUnknown o)
    | some n => .ok { l with claims := l.claims.insert o (n + 1), acquires := l.acquires + 1 }

/-- One claim less on an object. Without a claim left it is freed. -/
def release (l : Ledger) (o : ObjectId) : Except Misuse Ledger :=
  if l.isFreed o then .error (.releaseFreed o)
  else match l.claims.get? o with
    | none => .error (.releaseUnknown o)
    | some n =>
      if n - 1 = 0 then
        .ok { l with claims := l.claims.erase o, freed := o :: l.freed, releases := l.releases + 1 }
      else .ok { l with claims := l.claims.insert o (n - 1), releases := l.releases + 1 }

end Ledger

/-! ## Texts -/

/-- An object of the ledger as it is written in messages. -/
def objectText (o : ObjectId) : String :=
  "TestObject(" ++ toString o ++ ")"

def Misuse.message : Misuse → String
  | .acquireFreed o => "acquire on freed object " ++ objectText o
  | .acquireUnknown o => "acquire on unknown object " ++ objectText o
  | .releaseFreed o => "double release of " ++ objectText o
  | .releaseUnknown o => "release of unknown object " ++ objectText o

end ClaimCells
