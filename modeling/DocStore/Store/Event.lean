/-!
# Events

What a store makes known of its work, under stable names.
-/

namespace DocStore

/-- Something that happens in a store. -/
inductive Event where
  | configLoaded
  | schemaBootstrapped
  | predicateCompiled
  | predicateRejected
  | documentWritten
  | writeConflict
  | documentRemoved
  | partitionCleared
  | expiredSwept
  | documentRead
  | partitionScanned
deriving DecidableEq, Repr

namespace Event

def name : Event → String
  | .configLoaded => "CONFIG_LOADED"
  | .schemaBootstrapped => "SCHEMA_BOOTSTRAPPED"
  | .predicateCompiled => "PREDICATE_COMPILED"
  | .predicateRejected => "PREDICATE_REJECTED"
  | .documentWritten => "DOCUMENT_WRITTEN"
  | .writeConflict => "WRITE_CONFLICT"
  | .documentRemoved => "DOCUMENT_REMOVED"
  | .partitionCleared => "PARTITION_CLEARED"
  | .expiredSwept => "EXPIRED_SWEPT"
  | .documentRead => "DOCUMENT_READ"
  | .partitionScanned => "PARTITION_SCANNED"

def all : List Event := [
  .configLoaded, .schemaBootstrapped, .predicateCompiled, .predicateRejected, .documentWritten,
  .writeConflict, .documentRemoved, .partitionCleared, .expiredSwept, .documentRead,
  .partitionScanned]

end Event

end DocStore
