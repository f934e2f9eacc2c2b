import JobPlane.Json.Reader
import JobPlane.Json.Writer

/-!
# Records as JSON

A record is written as an object of its fields in the order they are declared. It is read from such an object with its members in
any order, or from an array of its fields in the order they are declared. Members that are no fields are passed over, and no field
may come twice.
-/

namespace JobPlane.Json

/-- Where a field may be left out. -/
inductive Need
  /-- Nowhere. -/
  | required
  /-- In an object. -/
  | optional
  /-- In an object, and at the end of an array. -/
  | defaulted
  deriving Repr, DecidableEq

/-- A field of an `α`. -/
structure Field (α : Type) where
  key : String
  need : Need
  /-- Reads the field into a record whose fields so far are read. -/
  read : α → Reader α

/-- A field that is read by a reader and put into its place. -/
def Field.of {α β : Type} (key : String) (need : Need) (read : Reader β) (put : β → α → α) : Field α :=
  ⟨key, need, fun a bs => (read bs).map fun (b, bs) => (put b a, bs)⟩

/-- Reads the members of a record's object. `seen` holds the keys of the fields read, and `fuel` bounds the number of
members. -/
def readFields {α : Type} (fields : List (Field α)) : Nat → Bool → List String → α → Reader α
  | 0, _, _, _, _ => .error .truncated
  | fuel + 1, first, seen, a, bs => do
    match ← nextKey first bs with
    | none =>
      if fields.all fun f => f.need != .required || seen.contains f.key then return (a, ← closeObject bs)
      else throw .mismatch
    | some bs =>
      let (k, bs) ← readStringFrom [] bs
      let k := String.ofList k
      match fields.find? fun f => f.key == k with
      | some f =>
        if seen.contains k then throw .mismatch
        else
          let (a, bs) ← f.read a (← readColon bs)
          readFields fields fuel false (k :: seen) a bs
      | none => readFields fields fuel false seen a (← skipValue (← readColon bs))

/-- Reads a record's fields from an array, in order. -/
def readTuple {α : Type} : List (Field α) → Bool → α → Reader α
  | [], _, a, bs => do return (a, ← closeArray bs)
  | f :: fs, first, a, bs => do
    match ← nextItem first bs with
    | none => if (f :: fs).all fun f => f.need = .defaulted then return (a, ← closeArray bs) else throw .mismatch
    | some bs =>
      let (a, bs) ← f.read a bs
      readTuple fs false a bs

/-- Reads a record; fields that are left out stay as in `blank`. -/
def readRecord {α : Type} (fields : List (Field α)) (blank : α) : Reader α := fun bs =>
  match skipBlanks bs with
  | 0x7B :: rest => readFields fields (rest.length + 1) true [] blank rest
  | 0x5B :: rest => readTuple fields true blank rest
  | bs => .error (refuse bs)

end JobPlane.Json
