import Mathlib.Tactic

/-!
# Exceptions and clock values of the serving process

`Exc` lists the exception classes that the scheduling code distinguishes in its
`except` clauses; every other class is `other`.  A cancellation is not an
`Exception` in the sense of the clauses `except Exception`, and `deadline` is
the cancellation that `asyncio.wait_for` injects and turns into a `timeout`.

Clock readings are integers: nothing below depends on their unit.
-/

namespace PrismServe

/-- A reading of `time.monotonic()`. -/
abbrev Time := Int

/-- `repr` of an identifier, as the messages quote it. -/
def quoted (s : String) : String := "'" ++ s ++ "'"

/-- `repr` of a list of identifiers. -/
def quotedList (l : List String) : String :=
  "[" ++ ", ".intercalate (l.map quoted) ++ "]"

inductive Exc
  | cancelled
  | deadline
  | timeout
  | ambiguous
  | inferRpc
  | prefixLoad
  | transferDispatch
  | outputCapacity
  | connection
  | quarantined (instanceId : String)
  | value (message : String)
  | key (missing : String)
  | assertion (message : String)
  | runtime (message : String)
  | type (message : String)
  | other
  deriving DecidableEq, Repr

namespace Exc

/-- What iterating over a value of another type raises. -/
def notIterable (typeName : String) : Exc := .type (quoted typeName ++ " object is not iterable")

/-- Whether a clause `except Exception` catches it. -/
def isException : Exc → Bool
  | cancelled => false
  | deadline => false
  | _ => true

/-- `ValueError` and its subclasses. -/
def isValueError : Exc → Bool
  | value _ => true
  | quarantined _ => true
  | _ => false

end Exc

end PrismServe
