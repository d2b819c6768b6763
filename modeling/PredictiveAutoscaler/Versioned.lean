/-
A stored object whose version changes with every change of it and is never
handed out twice.  A snapshot stays truthful in this sense: whenever the
stored version is the snapshot's, the stored value is the snapshot's too.  A
conditional update that names the version of a snapshot therefore replaces
exactly the value that was read.
-/
import Mathlib.Data.Nat.Init

namespace PredictiveAutoscaler

universe u

variable {α : Type u}

/-- An object and the version of its last change. -/
structure Snapshot (α : Type u) where
  version : ℕ
  value : α
deriving DecidableEq

/-- The stored object, if any, and the last version handed out. -/
structure Versioned (α : Type u) where
  stored : Option (Snapshot α)
  revision : ℕ
  stored_le : ∀ p, stored = some p → p.version ≤ revision

/-- Create or change the object, under a new version. -/
def Versioned.put (c : Versioned α) (value : α) : Versioned α where
  stored := some ⟨c.revision + 1, value⟩
  revision := c.revision + 1
  stored_le := by
    rintro p ⟨⟩
    exact Nat.le_refl _

def Versioned.delete (c : Versioned α) : Versioned α where
  stored := none
  revision := c.revision + 1
  stored_le := by
    rintro p ⟨⟩

/-- A snapshot that was once read: no later version is its own, so that the
stored object is the snapshot whenever the versions agree. -/
def Versioned.Reads (c : Versioned α) (p : Snapshot α) : Prop :=
  p.version ≤ c.revision ∧
    ∀ q, c.stored = some q → q.version = p.version → q = p

theorem Versioned.reads_of_stored {c : Versioned α} {p : Snapshot α}
    (h : c.stored = some p) : c.Reads p := by
  refine ⟨c.stored_le p h, fun q hq _ => ?_⟩
  exact Option.some.inj (hq.symm.trans h)

theorem Versioned.Reads.put {c : Versioned α} {p : Snapshot α}
    (h : c.Reads p) (value : α) : (c.put value).Reads p := by
  refine ⟨Nat.le_succ_of_le h.1, ?_⟩
  rintro q ⟨⟩ hversion
  have hnew : c.revision + 1 = p.version := hversion
  have hold := h.1
  omega

theorem Versioned.Reads.delete {c : Versioned α} {p : Snapshot α}
    (h : c.Reads p) : c.delete.Reads p := by
  refine ⟨Nat.le_succ_of_le h.1, ?_⟩
  rintro q ⟨⟩

end PredictiveAutoscaler
