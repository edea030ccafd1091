import Resumable.Machine.Store

/-!
Data that a host hands to a machine.

A datum is a tree; placing it in a store makes a fresh array or object of every list and every
record in it.
-/

namespace Resumable

inductive Datum where
  | undefined
  | null
  | bool (value : Bool)
  | num (value : Float)
  | str (value : String)
  | array (items : List Datum)
  /-- Of two properties with one name the later one counts. -/
  | object (props : List (String × Datum))
  | fudged
  | error (info : ErrorInfo)
  /-- What the name is bound to globally, undefined if it is not bound. -/
  | global (name : String)
  deriving Inhabited

mutual

/-- The value that a datum stands for. -/
def Store.place (s : Store) : Datum → Value × Store
  | .undefined => (.undefined, s)
  | .null => (.null, s)
  | .bool b => (.bool b, s)
  | .num x => (.num x, s)
  | .str text => (.str text, s)
  | .array items =>
    let (values, s) := s.placeList items
    let (id, s) := s.newArray values.toArray
    (.array id, s)
  | .object props =>
    let (entries, s) := s.placeProps props
    let (id, s) := s.newObject { props := .ofList entries }
    (.object id, s)
  | .fudged => (.fudged, s)
  | .error info => (.error info, s)
  | .global name => (s.localD Store.globals name, s)

def Store.placeList (s : Store) : List Datum → List Value × Store
  | [] => ([], s)
  | datum :: rest =>
    let (value, s) := s.place datum
    let (values, s) := s.placeList rest
    (value :: values, s)

def Store.placeProps (s : Store) : List (String × Datum) → List (String × Value) × Store
  | [] => ([], s)
  | (key, datum) :: rest =>
    let (value, s) := s.place datum
    let (entries, s) := s.placeProps rest
    ((key, value) :: entries, s)

end

end Resumable
