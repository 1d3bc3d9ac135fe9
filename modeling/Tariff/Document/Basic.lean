import Tariff.Binary64

/-!
# Documents

Contracts, publications and the values in them are exchanged as documents: plain values, lists and
records.

## Main definitions

* `Document` — the values of a document
* `Document.member?` — the member of a record with a given name
* `Document.fields?` — the members of a record with given names, in their order

## Design notes

Numbers are kept apart by the way they are written.  Whole numbers of at most 64 bits are exact.
Numbers with a fraction or a power of ten, and whole numbers of more bits, are binary floating-point
numbers; they are never taken for whole numbers even if they have no fraction.

A record may also be written as a list of the values of its members, in their order; members at the
end may then be missing.
-/

namespace Tariff

/-- A value of a document. -/
inductive Document where
  /-- No value. -/
  | null
  /-- A truth value. -/
  | bool (value : Bool)
  /-- A whole number. -/
  | integer (value : Int)
  /-- A binary floating-point number with its sign, which a zero may have too. -/
  | fraction (negative : Bool) (magnitude : Binary64)
  /-- A text. -/
  | text (value : String)
  /-- Values in order. -/
  | list (items : List Document)
  /-- Values with names. -/
  | record (members : List (String × Document))

namespace Document

/-- The member of a record with a given name; the last one counts. -/
def member? (members : List (String × Document)) (name : String) : Option Document :=
  members.foldl (fun found (other, value) => if other = name then some value else found) none

/-- The values that a document has for the given names, each of which may be missing. -/
def fields? (names : List String) : Document → Option (List (Option Document))
  | record members => some (names.map (member? members))
  | list items =>
    if items.length ≤ names.length then
      some (items.map some ++ List.replicate (names.length - items.length) none)
    else none
  | _ => none

/-- A value that may be missing. -/
def ofOption : Option Document → Document
  | some value => value
  | none => null

end Document

end Tariff
