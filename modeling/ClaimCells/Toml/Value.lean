/-!
# TOML documents

A document is a tree of tables. Numbers, dates and times are recognised and not kept: nothing that
is read from a document uses them.

While a document is read, a table remembers how it came to be: by a header of its own, as a step
on the way to another table, or by a dotted key. `Node.within` walks to a table and changes it
there; a walk that would extend something already closed fails.
-/

namespace ClaimCells

inductive Toml
  | text (s : String)
  | bool (b : Bool)
  | number
  | moment
  | array (items : List Toml)
  | table (entries : List (String × Toml))

namespace Toml

/-- How a table came to be. -/
inductive Origin
  /-- By its own header, or in braces. -/
  | explicit
  /-- On the way of a header to a table below it. -/
  | implicit
  /-- By a dotted key. -/
  | dotted
deriving DecidableEq, Repr

/-- A part of a document that is still being read. -/
inductive Node
  | value (v : Toml)
  | table (origin : Origin) (entries : List (String × Node))
  /-- An array of tables, the last one first. -/
  | tables (last : Node) (earlier : List Node)

namespace Node

/-- The table without entries. -/
def empty (origin : Origin) : Node := .table origin []

/-- Sets a key; one that was there keeps its place. -/
def setEntry (k : String) (n : Node) : List (String × Node) → List (String × Node)
  | [] => [(k, n)]
  | (k', n') :: rest => if k' = k then (k, n) :: rest else (k', n') :: setEntry k n rest

/-- Changes the table at the end of a path, making tables on the way where there are none. With
`dotted` the path is that of a dotted key, which may only pass through tables without a header. -/
def within (dotted : Bool) (change : Node → Option Node) : List String → Node → Option Node
  | [], n => change n
  | k :: ks, .table origin entries => do
    let changed ← match entries.lookup k with
      | none => within dotted change ks (empty (if dotted then .dotted else .implicit))
      | some (.value _) => none
      | some (.tables last earlier) => (within dotted change ks last).map (.tables · earlier)
      | some (.table origin' entries') =>
        if dotted && origin' = .explicit then none
        else within dotted change ks (.table origin' entries')
    some (.table origin (setEntry k changed entries))
  | _ :: _, _ => none

/-- Adds the entry of a key, whose path may be dotted. A dotted path must end in a table that
dotted keys made, and the key must be new there. -/
def addEntry (root : Node) (path : List String) (k : String) (n : Node) : Option Node :=
  root.within true (fun
    | .table origin entries =>
      if (origin == .dotted) == path.isEmpty then none
      else if (entries.lookup k).isSome then none
      else some (.table origin (setEntry k n entries))
    | _ => none) path

mutual

/-- The value that has been read. -/
def freeze : Node → Toml
  | .value v => v
  | .table _ entries => .table (freezeEntries entries)
  | .tables last earlier => .array ((last.freeze :: freezeAll earlier).reverse)

def freezeEntries : List (String × Node) → List (String × Toml)
  | [] => []
  | (k, n) :: rest => (k, n.freeze) :: freezeEntries rest

def freezeAll : List Node → List Toml
  | [] => []
  | n :: ns => n.freeze :: freezeAll ns

end

end Node

/-- A document while it is read: the tables closed so far, and the table that entries go to. -/
structure Draft where
  root : Node := .empty .explicit
  /-- The open table; it is not in `root`. -/
  current : Node := .empty .explicit
  /-- Where the open table belongs, and whether it is a new element of an array of tables.
  Entries before the first header belong to the root itself. -/
  place : Option (List String × String × Bool) := none

namespace Draft

/-- Adds an entry to the open table. -/
def addEntry (d : Draft) (path : List String) (k : String) (v : Toml) : Option Draft :=
  (d.current.addEntry path k (.value v)).map fun current => { d with current }

/-- Puts the open table into its place. -/
def close (d : Draft) : Option Node :=
  match d.place with
  | none => some d.current
  | some (path, k, isElement) => d.root.within false (fun
    | .table origin entries =>
      match entries.lookup k, isElement with
      | none, true => some (.table origin (Node.setEntry k (.tables d.current []) entries))
      | some (.tables last earlier), true =>
        some (.table origin (Node.setEntry k (.tables d.current (last :: earlier)) entries))
      | none, false => some (.table origin (Node.setEntry k d.current entries))
      | some (.table .implicit _), false => some (.table origin (Node.setEntry k d.current entries))
      | some (.table .dotted _), false => some (.table origin (Node.setEntry k d.current entries))
      | some _, _ => none
    | _ => none) path

/-- What a header finds in its place. -/
def lookup? (k : String) : List String → Node → Option (Option Node)
  | [], .table _ entries => some (entries.lookup k)
  | p :: ps, .table _ entries => match entries.lookup p with
    | none => some none
    | some (.tables last _) => lookup? k ps last
    | some (.table origin entries) => lookup? k ps (.table origin entries)
    | some (.value _) => none
  | _, _ => none

/-- Opens the table of a header. A table that only lay on the way to others keeps its entries. -/
def openTable (d : Draft) (path : List String) (k : String) : Option Draft := do
  let root ← d.close
  let current ← match ← lookup? k path root with
    | none => some (Node.empty .explicit)
    | some (.table .implicit entries) => some (.table .explicit entries)
    | some _ => none
  some { root, current, place := some (path, k, false) }

/-- Opens a new element of the array of tables that a header names. -/
def openElement (d : Draft) (path : List String) (k : String) : Option Draft := do
  let root ← d.close
  match ← lookup? k path root with
  | none | some (.tables _ _) =>
    some { root, current := .empty .explicit, place := some (path, k, true) }
  | some _ => none

end Draft

end Toml

end ClaimCells
