import GrantCatalog.Load

/-!
# Snapshots

What is known about all grantees at one time is published as a whole. Each publication counts the
generation up by one and **replaces** everything that was known before; a snapshot that someone
keeps does not change any more. The counter is a machine word, so generations start again at zero
after `2 ^ 64` publications.
-/

namespace GrantCatalog

/-- What is known about all grantees at one time. -/
structure Snapshot where
  /-- How many snapshots were published up to this one, counted in sixty-four bits. -/
  number : UInt64
  /-- What the grantees hold. -/
  entries : Holdings
  deriving DecidableEq

namespace Snapshot

/-- The snapshot before the first publication. -/
def initial : Snapshot := ⟨0, ∅⟩

instance : Inhabited Snapshot := ⟨initial⟩

/-- How many snapshots were published up to this one. -/
def generation (s : Snapshot) : Nat := s.number.toNat

/-- The snapshot published after this one. -/
def next (s : Snapshot) (entries : Holdings) : Snapshot := ⟨s.number + 1, entries⟩

/-- What a grantee holds, if it is known. -/
def find? (s : Snapshot) (g : Grantee) : Option Grants := s.entries[g]?

/-- How many grantees are known. -/
def size (s : Snapshot) : Nat := s.entries.size

/-- Nobody is known. -/
def isEmpty (s : Snapshot) : Bool := s.entries.isEmpty

end Snapshot

end GrantCatalog
