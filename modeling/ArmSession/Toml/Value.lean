/-!
# Values and tables

A document is a table of named values, some of which are tables again. How a table came to be
decides what may still be added to it:

* a table opened by a header takes the keys below that header and no others;
* a table that a header only passed through may be opened once, by a header of its own;
* a table made by a dotted key takes further dotted keys;
* an inline table is complete as it stands.
-/

namespace ArmSession.Toml

inductive Origin
  | header
  | path
  | dotted
  | inline
deriving DecidableEq

inductive Value
  | text (s : String)
  | integer (i : Int)
  | float (spelling : String)
  | boolean (b : Bool)
  | moment (spelling : String)
  | array (ofTables : Bool) (items : List Value)
  | table (origin : Origin) (entries : List (String × Value))

abbrev Entries := List (String × Value)

namespace Entries

def lookUp? (es : Entries) (key : String) : Option Value :=
  match es with
  | [] => none
  | (k, v) :: rest => if k = key then some v else lookUp? rest key

/-- A new key comes last; a key that is there keeps its place. -/
def put (es : Entries) (key : String) (v : Value) : Entries :=
  match es with
  | [] => [(key, v)]
  | (k, w) :: rest => if k = key then (k, v) :: rest else (k, w) :: put rest key v

theorem lookUp?_put (es : Entries) (key other : String) (v : Value) :
    (es.put key v).lookUp? other = if key = other then some v else es.lookUp? other := by
  induction es with
  | nil => simp [put, lookUp?]
  | cons e es ih =>
      obtain ⟨k, w⟩ := e
      by_cases hk : k = key
      · subst hk
        by_cases ho : k = other <;> simp [put, lookUp?, ho]
      · by_cases ho : k = other
        · subst ho
          simp [put, lookUp?, hk, Ne.symm hk]
        · simp [put, lookUp?, hk, ho, ih]

/-- Changes the table at the end of a path, making the tables on the way that are not there.
The path of a dotted key does not enter tables opened by headers, no path enters inline
tables, and an array of tables is entered at its last table. -/
def edit (dotted : Bool) (change : Origin → Entries → Option Entries) :
    List String → Origin → Entries → Option Entries
  | [], origin, es => change origin es
  | key :: path, _, es =>
    match es.lookUp? key with
    | none =>
      let made := if dotted then Origin.dotted else Origin.path
      (edit dotted change path made []).map fun sub => es.put key (.table made sub)
    | some (.table origin sub) =>
      if origin = .inline ∨ (dotted = true ∧ origin = .header) then none
      else (edit dotted change path origin sub).map fun sub => es.put key (.table origin sub)
    | some (.array true items) =>
      match items.getLast? with
      | some (.table origin sub) =>
        (edit dotted change path origin sub).map fun sub =>
          es.put key (.array true (items.dropLast ++ [.table origin sub]))
      | _ => none
    | some _ => none

end Entries

/-- A key with the keys that lead to it. -/
structure DottedKey where
  path : List String
  last : String
deriving DecidableEq

namespace DottedKey

def names (k : DottedKey) : List String := k.path ++ [k.last]

/-- Gives the key a value that it does not have yet. A dotted key ends in a table made by
dotted keys, and a plain key in one that was not. -/
def assign (k : DottedKey) (v : Value) : Origin → Entries → Option Entries :=
  Entries.edit true (fun origin es =>
    if (origin == .dotted) = k.path.isEmpty then none
    else match es.lookUp? k.last with
      | none => some (es.put k.last v)
      | some _ => none) k.path

def openTable (k : DottedKey) (root : Entries) : Option Entries :=
  Entries.edit false (fun _ es =>
    match es.lookUp? k.last with
    | none => some (es.put k.last (.table .header []))
    | some (.table .path sub) => some (es.put k.last (.table .header sub))
    | some _ => none) k.path .header root

def openElement (k : DottedKey) (root : Entries) : Option Entries :=
  Entries.edit false (fun _ es =>
    match es.lookUp? k.last with
    | none => some (es.put k.last (.array true [.table .header []]))
    | some (.array true items) => some (es.put k.last (.array true (items ++ [.table .header []])))
    | some _ => none) k.path .header root

end DottedKey

def inlineTable? (pairs : List (DottedKey × Value)) : Option Value :=
  let add (es : Entries) : DottedKey × Value → Option Entries
    | (k, v) => k.assign v .inline es
  (pairs.foldlM add []).map (.table .inline)

inductive Statement
  | header (key : DottedKey)
  | element (key : DottedKey)
  | assign (key : DottedKey) (value : Value)

structure Draft where
  root : Entries
  opened : List String

namespace Draft

def empty : Draft := ⟨[], []⟩

def add (d : Draft) : Statement → Option Draft
  | .header key => (key.openTable d.root).map fun root => ⟨root, key.names⟩
  | .element key => (key.openElement d.root).map fun root => ⟨root, key.names⟩
  | .assign key value =>
    (Entries.edit false (key.assign value) d.opened .header d.root).map fun root =>
      { d with root }

end Draft

def build? (statements : List Statement) : Option Entries :=
  (statements.foldlM Draft.add Draft.empty).map Draft.root

end ArmSession.Toml
