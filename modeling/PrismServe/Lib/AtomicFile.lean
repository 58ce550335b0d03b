import Mathlib.Tactic

/-!
# A file that is replaced as a whole

A new version of the file is written to a temporary file, which is then renamed
over the old one.  Wherever such a write is cut short, the file holds either the
old or the new version; what may be left behind is the temporary file.
-/

namespace PrismServe.Lib

universe u

/-- The file, and whether some temporary file was left behind. -/
structure Directory (β : Type u) where
  main : Option β := none
  orphan : Bool := false

/-- How far a write has come. -/
inductive WriteEffect
  | untouched
  | orphaned
  | replaced
  deriving DecidableEq, Repr

/-- What comes of a write. -/
inductive WriteOutcome
  | done
  | fails (effect : WriteEffect) (error : String)
  | crashes (effect : WriteEffect)
  deriving DecidableEq, Repr

namespace Directory

variable {β : Type u}

def write (b : β) (d : Directory β) : WriteEffect → Directory β
  | .untouched => d
  | .orphaned => { d with orphan := true }
  | .replaced => { d with main := some b }

theorem write_main (b : β) (d : Directory β) (e : WriteEffect) :
    (d.write b e).main = d.main ∨ (d.write b e).main = some b := by
  cases e with
  | untouched =>
    exact .inl rfl
  | orphaned =>
    exact .inl rfl
  | replaced =>
    exact .inr rfl

end Directory

end PrismServe.Lib
