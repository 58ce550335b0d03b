import PrismServe.Router.HttpClient
import PrismServe.Worldctl.Termination

/-!
# Values of a Helm release

How the overrides of an upgrade are applied to the values of a release, when two
values count as equal, and which paths of a difference are reported.  The walk over
two values stops at the limit: it lists no more paths, and notes that it was cut.
-/

namespace PrismServe.Worldctl.Helm

open Lib

/-- `_helm_values_equal` -/
def valuesEqual (d : Json.Digest) (expected observed : Json) : Bool :=
  decide (Json.dumps d.unicode expected = Json.dumps d.unicode observed)

/-! ## Overrides -/

/-- `cursor[field] = value` -/
def assign (field : String) (value : Json) : JsonObject → JsonObject := writeEntries field value

/-- Set the value at a path; missing and null objects on the way are made. -/
def applyOverride (base : JsonObject) : List String → Json → Except CtlError JsonObject
  | [], _ => .error (.runtimeError "Helm override path is empty")
  | [field], replacement => .ok (assign field replacement base)
  | field :: rest, replacement =>
    match base.lookup field with
    | none => (applyOverride [] rest replacement).map fun child => assign field (.object child) base
    | some .null =>
      (applyOverride [] rest replacement).map fun child => assign field (.object child) base
    | some (.object fields) =>
      (applyOverride fields rest replacement).map fun child =>
        assign field (.object child) base
    | some _ => .error (.runtimeError "Helm override path conflicts with existing values")

/-- `_apply_helm_overrides` -/
def applyHelmOverrides (base : JsonObject) (overrides : List (List String × Json)) :
    Except CtlError JsonObject :=
  overrides.foldlM (fun value o => applyOverride value o.1 o.2) base

/-! ## Differences -/

/-- The paths that were listed, and whether the walk was cut. -/
structure Diff where
  paths : List String := []
  truncated : Bool := false
  deriving DecidableEq, Repr

/-- A character of a field in a path. -/
def escapeChar (c : Char) : List Char :=
  if c = '~' then ['~', '0'] else if c = '/' then ['~', '1'] else [c]

def child (path field : String) : String :=
  path ++ "/" ++ String.ofList (field.toList.flatMap escapeChar)

def append (limit : Nat) (path : String) (d : Diff) : Diff :=
  if limit ≤ d.paths.length then { d with truncated := true }
  else { d with paths := d.paths ++ [if path = "" then "/" else path] }

/-- `type(left) is type(right) and left == right`, for values that are not both containers of
one kind. -/
def leafEqual : Json → Json → Bool
  | .null, .null => true
  | .bool a, .bool b => decide (a = b)
  | .integer a, .integer b => decide (a = b)
  | .number a, .number b => decide (a = b)
  | .infinity a, .infinity b => decide (a = b)
  | .string a, .string b => decide (a = b)
  | _, _ => false

/-- `sorted(set(left) | set(right), key=str)` -/
def unionKeys (left right : JsonObject) : List String :=
  ((left.map Prod.fst ++ right.map Prod.fst).dedup).insertionSort (· ≤ ·)

/-- `str(index)` -/
def indexText (index : Nat) : String := String.ofList (Nat.toDigits 10 index)

/-- The walk from a value, still to be given the other value, the path and what was found. -/
abbrev Walk := Json → String → Diff → Diff

section Walks

variable (limit : Nat)

/-- The loop over the keys of two objects. -/
def walkKeys (walks : List (String × Walk)) (right : JsonObject) (path : String) :
    List String → Diff → Diff
  | [], d => d
  | key :: rest, d =>
    walkKeys walks right path rest
      (match walks.lookup key, right.lookup key with
        | some walk, some value => walk value (child path key) d
        | _, _ => append limit (child path key) d)

/-- The loop over the indices of two lists. -/
def walkIndices (walks : List Walk) (right : List Json) (path : String) :
    List Nat → Diff → Diff
  | [], d => d
  | index :: rest, d =>
    walkIndices walks right path rest
      (match walks[index]?, right[index]? with
        | some walk, some value => walk value (child path (indexText index)) d
        | _, _ => append limit (child path (indexText index)) d)

/-- Go on unless the limit is reached. -/
def unlessFull (d next : Diff) : Diff :=
  if limit ≤ d.paths.length then { d with truncated := true } else next

mutual

def walk : Json → Walk
  | .object left, right, path, d =>
    unlessFull limit d
      (match right with
        | .object right =>
          walkKeys limit (fieldWalks left) right path (unionKeys left right) d
        | _ => append limit path d)
  | .array left, right, path, d =>
    unlessFull limit d
      (match right with
        | .array right =>
          walkIndices limit (itemWalks left) right path
            (List.range (max left.length right.length)) d
        | _ => append limit path d)
  | left, right, path, d =>
    unlessFull limit d (if leafEqual left right then d else append limit path d)

def fieldWalks : JsonObject → List (String × Walk)
  | [] => []
  | (key, value) :: rest => (key, walk value) :: fieldWalks rest

def itemWalks : List Json → List Walk
  | [] => []
  | value :: rest => walk value :: itemWalks rest

end

/-- `_helm_value_diff_paths` -/
def helmValueDiffPaths (expected observed : Json) : Diff := walk limit expected observed "" {}

end Walks

end PrismServe.Worldctl.Helm
