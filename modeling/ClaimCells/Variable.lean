import ClaimCells.Possession

/-!
# The variable behind a cell

A slot is a variable with or without a value. Each change counts its event in the profiler and
reports it, and is complete before any claim is given up: a script that a release sets off finds
the new state.
-/

namespace ClaimCells.Action

/-- A slot by its number; there is one for every cell. -/
def slot (id : SlotId) : Action Slot := do
  demand .noSuchCell ((← get).slots.get? id)

def setValue (id : SlotId) (value : Option ObjectId) : Action Unit := do
  modify fun s => { s with slots := s.slots.modify id ({ · with value }) }
  did (.set id value)

/-- A new slot, which takes the claim out of the hands. -/
def makeSlot (realm : Realm) (kind : CellKind) (name : String) (value : Option ObjectId) :
    Action SlotId := do
  record kind .constructed
  if value.isSome then record kind .bound
  emit (.constructed kind name value.isSome)
  let id ← fresh
  modify fun s => { s with slots := s.slots.insert id { realm, kind, name, value } }
  did (.made id { realm, kind, name, value })
  if let some o := value then letGo ⟨realm, o⟩
  return id

/-- Stores a claim out of the hands and takes the one that was there into them. -/
def replace (id : SlotId) (o : ObjectId) : Action (Option Claim) := do
  let v ← slot id
  let old := v.value.map (⟨v.realm, ·⟩ : ObjectId → Claim)
  record v.kind .bound
  letGo ⟨v.realm, o⟩
  setValue id (some o)
  if let some c := old then
    hold c
    record v.kind .released
  emit (.assigned v.kind v.name old.isSome)
  return old

/-- Takes the claim out of a slot into the hands. -/
def unbind (id : SlotId) (reason : UnbindReason) : Action (Option Claim) := do
  let v ← slot id
  match v.value with
  | none =>
    record v.kind .unboundAccess
    return none
  | some o =>
    setValue id none
    hold ⟨v.realm, o⟩
    record v.kind (match reason with | .release => .released | .transfer => .transferred)
    emit (.unbound v.kind v.name reason)
    return some ⟨v.realm, o⟩

/-- Ends a slot and gives up its claim. -/
def destroySlot (id : SlotId) : Action Unit := do
  let v ← slot id
  modify fun s => { s with slots := s.slots.erase id }
  did (.ended id)
  if let some o := v.value then
    hold ⟨v.realm, o⟩
    record v.kind .released
    emit (.destroyedBound v.kind v.name)
    release ⟨v.realm, o⟩

end ClaimCells.Action
