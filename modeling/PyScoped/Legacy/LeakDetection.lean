import PyScoped.Foundation.Json

/-! The leak detector of version 1: a scan of data for the values of secrets. -/

namespace PyScoped.Legacy.LeakDetection
open Foundation

/-- `val in obj` -/
def contains (obj val : String) : Bool := decide (val.toList <:+: obj.toList)

/-- The path of a member, and of an item. -/
def memberPath (path key : String) : String := if path ≠ "" then path ++ "." ++ key else key

def itemPath (path : String) (i : Nat) : String := path ++ "[" ++ toString i ++ "]"

/-- Whether one of the values, in whatever order the set has them, is in the text. -/
def leaks (knownValues : List String) (obj : String) : Bool := knownValues.any fun val => val ≠ "" && contains obj val

mutual
/-- `_scan_recursive` -/
def scanRecursive (knownValues : List String) (path : String) : Json → List String
  | .str obj => if leaks knownValues obj then [if path ≠ "" then path else "<root>"] else []
  | .obj members => scanMembers knownValues path members
  | .arr items => scanItems knownValues path 0 items
  | _ => []

def scanMembers (knownValues : List String) (path : String) : List (String × Json) → List String
  | [] => []
  | (key, value) :: members =>
    scanRecursive knownValues (memberPath path key) value ++ scanMembers knownValues path members

def scanItems (knownValues : List String) (path : String) (i : Nat) : List Json → List String
  | [] => []
  | item :: items => scanRecursive knownValues (itemPath path i) item ++ scanItems knownValues path (i + 1) items
end

/-- `scan_data`, of values that are given. -/
def scanData (data : Json) (knownValues : List String) : List String :=
  if knownValues = [] then [] else scanRecursive knownValues "" data

end PyScoped.Legacy.LeakDetection
