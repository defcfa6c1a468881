/-! Data as it comes from outside, before anything is known about its shape. -/

namespace StreamCheck.Input

/-- A value of a document: a scalar, a list, or a mapping in the order of its keys. -/
inductive Datum where
  | null
  | truth (b : Bool)
  | whole (n : Int)
  | real (x : Float)
  | text (s : String)
  | bytes (bytes : List UInt8)
  | list (items : List Datum)
  | mapping (fields : List (String × Datum))
  /-- A text in which halves of characters stand alone. -/
  | broken (s : String)
  /-- A moment in time, of which nothing is kept. -/
  | moment
  /-- A set, of which nothing is kept but whether it is empty. -/
  | set (isEmpty : Bool)
deriving Inhabited

namespace Datum

def field? (key : String) : Datum → Option Datum
  | mapping fields => fields.lookup key
  | _ => none

/-- A mapping with a value under a key, in the place of the value that was there. -/
def insert (d : Datum) (key : String) (v : Datum) : Datum :=
  match d with
  | mapping fields =>
    if fields.any (·.1 == key) then
      mapping (fields.map fun f => if f.1 == key then (key, v) else f)
    else mapping (fields ++ [(key, v)])
  | d => d

def ofFields (fields : List (String × Datum)) : Datum :=
  fields.foldl (fun d (k, v) => d.insert k v) (mapping [])

mutual

/-- A value that another one replaces; of two mappings the fields are taken together. -/
def merge (base : Datum) : Datum → Datum
  | mapping fields =>
    match base with
    | mapping _ => mergeFields base fields
    | _ => mapping fields
  | d => d

def mergeFields (base : Datum) : List (String × Datum) → Datum
  | [] => base
  | (key, v) :: rest =>
    mergeFields (base.insert key ((base.field? key).elim v fun old => merge old v)) rest

end

def fields : Datum → List (String × Datum)
  | mapping fs => fs
  | _ => []

def items : Datum → List Datum
  | list xs => xs
  | _ => []

def isNothing : Datum → Bool
  | null => true
  | truth b => !b
  | whole n => n == 0
  | real x => x == 0.0
  | text s => s.isEmpty
  | bytes b => b.isEmpty
  | list xs => xs.isEmpty
  | mapping fs => fs.isEmpty
  | set isEmpty => isEmpty
  | broken _ | moment => false

end Datum

end StreamCheck.Input
