import HostFleet.Toml.Value

/-!
# Tables under construction

Headers and dotted keys build one tree of tables, and the rules on what may be defined twice depend on how a table came
to be. An `Item` is a node of that tree while it is built. A table that was only implied by a longer header may still get
a header of its own, a table made by dotted keys may only be extended by dotted keys, and nothing else may be opened
again.
-/

namespace HostFleet.Toml

/-- How a table came to be. -/
inductive TableKind where
  /-- It has a header of its own, or is the document. -/
  | header
  /-- The header of a table inside it implied it. -/
  | implied
  /-- A dotted key made it. -/
  | dotted
  deriving DecidableEq, Repr

/-- A part of a document under construction. -/
inductive Item where
  | value (v : Value)
  | table (kind : TableKind) (entries : List (String × Item))
  /-- The tables of repeated headers, in order. -/
  | tables (elements : List (List (String × Item)))

/-- The entries of a table under construction, in the order in which they were introduced. -/
abbrev Draft := List (String × Item)

namespace Draft

def find? (draft : Draft) (key : String) : Option Item := (List.find? (fun e => e.1 = key) draft).map Prod.snd

def replace (draft : Draft) (key : String) (item : Item) : Draft :=
  draft.map fun e => if e.1 = key then (key, item) else e

/-- Changes the table at the end of a path from a table of a given kind, making tables on the way. Only dotted keys may
not pass through a table with a header; no path leads through a plain value, and through repeated headers it leads to the
last table. -/
def edit (dotted : Bool) (change : TableKind → Draft → Option Draft) :
    (path : List String) → TableKind → Draft → Option Draft
  | [], kind, draft => change kind draft
  | key :: path, _, draft =>
    match draft.find? key with
    | none => do
      let kind := if dotted then .dotted else .implied
      let inner ← edit dotted change path kind []
      some (draft ++ [(key, .table kind inner)])
    | some (.value _) => none
    | some (.table kind inner) =>
      if dotted ∧ kind = .header then none
      else do
        let inner ← edit dotted change path kind inner
        some (draft.replace key (.table kind inner))
    | some (.tables elements) =>
      match elements.getLast? with
      | none => none
      | some last => do
        let last ← edit dotted change path .header last
        some (draft.replace key (.tables (elements.dropLast ++ [last])))

/-- Defines a key by a dotted path from a table; the key must be new. A table that no dotted key made cannot be reached
by a dotted path. -/
def define (path : List String) (key : String) (v : Value) : TableKind → Draft → Option Draft :=
  edit true (fun kind draft =>
    if decide (kind = .dotted) = path.isEmpty ∨ (draft.find? key).isSome then none
    else some (draft ++ [(key, .value v)])) path

/-- Opens the table of a header. A table that was only implied so far is the same table, now introduced here. -/
def openTable (key : String) (draft : Draft) : Option Draft :=
  match draft.find? key with
  | none => some (draft ++ [(key, .table .header [])])
  | some (.table .implied inner) => some (List.filter (fun e => e.1 ≠ key) draft ++ [(key, .table .header inner)])
  | _ => none

/-- Opens the next table of a repeated header. -/
def openElement (key : String) (draft : Draft) : Option Draft :=
  match draft.find? key with
  | none => some (draft ++ [(key, .tables [[]])])
  | some (.tables elements) => some (draft.replace key (.tables (elements ++ [[]])))
  | _ => none

end Draft

mutual

def Item.finish : Item → Value
  | .value v => v
  | .table _ entries => .table (finishEntries entries)
  | .tables elements => .array (finishElements elements)

def finishEntries : List (String × Item) → Table
  | [] => []
  | (key, item) :: rest => (key, item.finish) :: finishEntries rest

def finishElements : List (List (String × Item)) → List Value
  | [] => []
  | entries :: rest => .table (finishEntries entries) :: finishElements rest

end

end HostFleet.Toml
