import ClaimCells.Toml.Value

/-!
# Decoding TOML

A record is written as a table, whose unknown entries are skipped, or as an array of its fields in
order, where more elements than fields do no harm. Whatever is left out keeps its value. A date
or time counts as a table in which nothing is known.

A choice is written as one of its names, or as a table whose only entry has that name and an
empty value.
-/

namespace ClaimCells.Toml

variable {α ρ : Type}

/-- Whether a value is a table or an array without content. -/
def isEmpty : Toml → Bool
  | .table entries => entries.isEmpty
  | .array items => items.isEmpty
  | _ => false

def bool? : Toml → Option Bool
  | .bool b => some b
  | _ => none

/-- One of several names. -/
def choice? (choices : List (String × α)) : Toml → Option α
  | .text name => choices.lookup name
  | .table [(name, content)] => if content.isEmpty then choices.lookup name else none
  | _ => none

/-- A field of a record: how to read it onto the record. -/
structure Field (ρ : Type) where
  name : String
  update : Toml → ρ → Option ρ

/-- A field that is read by `read?` and stored by `set`. -/
def Field.stored (name : String) (read? : Toml → Option α) (set : α → ρ → ρ) : Field ρ :=
  ⟨name, fun v r => (read? v).map (set · r)⟩

/-- Reads one entry of a table onto a record. -/
def readEntry (fields : List (Field ρ)) (r : ρ) (entry : String × Toml) : Option ρ :=
  match fields.find? (·.name = entry.1) with
  | some f => f.update entry.2 r
  | none => some r

/-- Reads a record onto the values of fields that are left out. -/
def record? (fields : List (Field ρ)) (start : ρ) : Toml → Option ρ
  | .table entries => entries.foldlM (readEntry fields) start
  | .array items => (fields.zip items).foldlM (fun r p => p.1.update p.2 r) start
  | .moment => some start
  | _ => none

end ClaimCells.Toml
