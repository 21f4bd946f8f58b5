import BuildWatch.Toml.Scalar

/-!
TOML documents as trees.  A table remembers what brought it about, because that
decides whether a later line may add to it.
-/

namespace BuildWatch.Toml

inductive Origin where
  | declared
  | implied
  | dotted
deriving Repr, DecidableEq

inductive Item where
  | scalar (value : Scalar)
  | array (items : List Item)
  /-- A table between braces; no later line may add to it. -/
  | braced (entries : List (String × Item))
  | table (origin : Origin) (entries : List (String × Item))
  /-- The tables of a header in double brackets, the latest first. -/
  | tables (latest : List (String × Item)) (earlier : List (List (String × Item)))
deriving Repr

instance : Inhabited Item := ⟨.scalar (.boolean false)⟩

abbrev Entries := List (String × Item)

namespace Entries

def get? (entries : Entries) (key : String) : Option Item :=
  entries.lookup key

def put (entries : Entries) (key : String) (item : Item) : Entries :=
  if entries.any (fun entry => entry.1 == key) then
    entries.map fun entry => if entry.1 == key then (key, item) else entry
  else entries ++ [(key, item)]

/-- Change the table a header's path leads to.  Tables on the way that do not
exist are implied; of several tables the latest is meant. -/
def underHeader? (change : Entries → Option Entries) :
    List String → Entries → Option Entries
  | [], entries => change entries
  | key :: path, entries =>
      match entries.get? key with
      | none => do
          let inner ← underHeader? change path []
          return entries.put key (.table .implied inner)
      | some (.table origin inner) => do
          let inner ← underHeader? change path inner
          return entries.put key (.table origin inner)
      | some (.tables latest earlier) => do
          let latest ← underHeader? change path latest
          return entries.put key (.tables latest earlier)
      | some _ => none

/-- Give the last part of a dotted key a value.  Tables on the way that do not
exist come from this key; one that was declared takes no such key, and the
innermost one must come from a dotted key itself. -/
def insertDotted? (item : Item) : List String → Option Origin → Entries → Option Entries
  | [], _, _ => none
  | [key], origin, entries =>
      if origin == some .declared || origin == some .implied then none
      else
        match entries.get? key with
        | none => some (entries ++ [(key, item)])
        | some _ => none
  | key :: path, _, entries =>
      match entries.get? key with
      | none => do
          let inner ← insertDotted? item path (some .dotted) []
          return entries.put key (.table .dotted inner)
      | some (.table .declared _) => none
      | some (.table origin inner) => do
          let inner ← insertDotted? item path (some origin) inner
          return entries.put key (.table origin inner)
      | some (.tables latest earlier) => do
          let latest ← insertDotted? item path (some .declared) latest
          return entries.put key (.tables latest earlier)
      | some _ => none

def insert? (entries : Entries) (key : List String) (item : Item) : Option Entries :=
  insertDotted? item key none entries

/-- Declare the table of a key.  It must be new, or so far only implied. -/
def declare? (key : String) (entries : Entries) : Option Entries :=
  match entries.get? key with
  | none => some (entries.put key (.table .declared []))
  | some (.table .implied inner) => some (entries.put key (.table .declared inner))
  | some _ => none

def append? (key : String) (entries : Entries) : Option Entries :=
  match entries.get? key with
  | none => some (entries.put key (.tables [] []))
  | some (.tables latest earlier) => some (entries.put key (.tables [] (latest :: earlier)))
  | some _ => none

end Entries

/-- A document while it is read: its entries, and the path of the latest header. -/
structure Draft where
  entries : Entries := []
  header : List String := []

namespace Draft

def assign? (draft : Draft) (key : List String) (item : Item) : Option Draft := do
  let entries ← Entries.underHeader? (·.insert? key item) draft.header draft.entries
  return { draft with entries := entries }

def openTable? (draft : Draft) (path : List String) : Option Draft := do
  let key ← path.getLast?
  let entries ← Entries.underHeader? (Entries.declare? key) path.dropLast draft.entries
  return { entries := entries, header := path }

def openElement? (draft : Draft) (path : List String) : Option Draft := do
  let key ← path.getLast?
  let entries ← Entries.underHeader? (Entries.append? key) path.dropLast draft.entries
  return { entries := entries, header := path }

end Draft

end BuildWatch.Toml
