import BuildWatch.Json.Value

/-!
Reading records from documents.  A record is an object whose unknown members
are ignored and whose known members stand at most once, or an array of the
fields in the order of their declaration.
-/

namespace BuildWatch.Json

/-! ### Scalars and lists -/

def Document.string? : Document → Option String
  | .string literal => literal.text?
  | _ => none

def Document.bool? : Document → Option Bool
  | .bool value => some value
  | _ => none

def Document.naturalBelow? (bound : Nat) : Document → Option Nat
  | .number literal =>
      match literal.number? with
      | some (.int value) =>
          if 0 ≤ value ∧ value.toNat < bound then some value.toNat else none
      | _ => none
  | _ => none

def Document.uint64? (document : Document) : Option UInt64 :=
  (document.naturalBelow? (Nat.pow 2 64)).map UInt64.ofNat

def Document.uint32? (document : Document) : Option UInt32 :=
  (document.naturalBelow? (Nat.pow 2 32)).map UInt32.ofNat

def Document.orNull? {α : Type} (read : Document → Option α) : Document → Option (Option α)
  | .null => some none
  | document => (read document).map some

def Document.list? {α : Type} (read : Document → Option α) : Document → Option (List α)
  | .array items => items.mapM read
  | _ => none

/-- One of some names; a name may also be written as the only key of an object,
with null for its value. -/
def Document.oneOf? {α : Type} (names : List (String × α)) : Document → Option α
  | .string literal => literal.text?.bind (names.lookup ·)
  | .object [(key, .null)] => key.text?.bind (names.lookup ·)
  | _ => none

/-! ### Records -/

structure Field where
  name : String
  aliases : List String := []
deriving Repr

def Field.answersTo (field : Field) (key : String) : Bool :=
  key == field.name || field.aliases.contains key

/-- The value given for a field, which must not be given twice. -/
def Field.pick? (field : Field) (members : List (String × Document)) :
    Option (Option Document) :=
  match members.filter (fun member => field.answersTo member.1) with
  | [] => some none
  | [member] => some (some member.2)
  | _ => none

def keyedMembers? (members : List (Literal × Document)) : Option (List (String × Document)) :=
  members.mapM fun member => (member.1.text?).map fun key => (key, member.2)

/-- The values given for the fields of a record, in the order of declaration. -/
def Document.fields? (fields : List Field) : Document → Option (List (Option Document))
  | .object members => do
      let members ← keyedMembers? members
      fields.mapM fun field => field.pick? members
  | .array items =>
      if items.length ≤ fields.length then
        some (items.map some ++ List.replicate (fields.length - items.length) none)
      else none
  | _ => none

def required {α : Type} (read : Document → Option α) : Option Document → Option α
  | some document => read document
  | none => none

def orElse {α : Type} (default : α) (read : Document → Option α) : Option Document → Option α
  | some document => read document
  | none => some default

def optional {α : Type} (read : Document → Option α) : Option Document → Option (Option α)
  | some document => document.orNull? read
  | none => some none

end BuildWatch.Json
