/-!
# Counters

What a store has done since it was made.  Counters are 64-bit words and only grow.
-/

namespace DocStore

/-- The counters of a store. -/
structure Metrics where
  predicatesCompiled : UInt64
  predicatesRejected : UInt64
  documentsWritten : UInt64
  writeConflicts : UInt64
  documentsRemoved : UInt64
  expiredRemoved : UInt64
  reads : UInt64
deriving DecidableEq, Repr

/-- Something that is counted. -/
inductive Count where
  | compiled
  | rejected
  | written
  | conflict
  | removed (records : UInt64)
  | expired (records : UInt64)
  | read
deriving DecidableEq, Repr

namespace Metrics

def zero : Metrics := ⟨0, 0, 0, 0, 0, 0, 0⟩

/-- The counters after something has been counted. -/
def add (m : Metrics) : Count → Metrics
  | .compiled => { m with predicatesCompiled := m.predicatesCompiled + 1 }
  | .rejected => { m with predicatesRejected := m.predicatesRejected + 1 }
  | .written => { m with documentsWritten := m.documentsWritten + 1 }
  | .conflict => { m with writeConflicts := m.writeConflicts + 1 }
  | .removed n => { m with documentsRemoved := m.documentsRemoved + n }
  | .expired n => { m with expiredRemoved := m.expiredRemoved + n }
  | .read => { m with reads := m.reads + 1 }

/-- Every counter with its name, in order. -/
def entries (m : Metrics) : List (String × UInt64) := [
  ("predicates_compiled", m.predicatesCompiled), ("predicates_rejected", m.predicatesRejected),
  ("documents_written", m.documentsWritten), ("write_conflicts", m.writeConflicts),
  ("documents_removed", m.documentsRemoved), ("expired_removed", m.expiredRemoved),
  ("reads", m.reads)]

end Metrics

end DocStore
