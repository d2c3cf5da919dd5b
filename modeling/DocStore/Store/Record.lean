import DocStore.Instant.Basic
import DocStore.Json.Basic

/-!
# Records

A stored document with the instants of its life: when it was created, when it was last replaced, and
when it expires.
-/

namespace DocStore

/-- A stored document. -/
structure Record where
  value : Json
  created : Instant
  /-- When the value was last replaced, if ever. -/
  updated : Option Instant
  /-- When the record expires, if ever. -/
  expires : Option Instant
deriving Repr

namespace Record

def ofValue (value : Json) (now : Instant) (expires : Option Instant) : Record :=
  ⟨value, now, none, expires⟩

/-- The record with another value and expiry.  The instant of its creation stays. -/
def replace (record : Record) (value : Json) (now : Instant) (expires : Option Instant) : Record :=
  { record with value, updated := some now, expires }

/-- Whether a record has expired: at its expiry and ever after. -/
def isExpired (record : Record) (now : Instant) : Bool :=
  match record.expires with
  | some expiry => expiry ≤ now
  | none => false

end Record

/-- What a write does with what it finds under its key. -/
inductive WriteMode where
  /-- Writes only where there is no live record. -/
  | create
  /-- Writes only over a live record. -/
  | update
  /-- Writes in any case. -/
  | upsert
deriving DecidableEq, Repr

namespace WriteMode

def name : WriteMode → String
  | .create => "create"
  | .update => "update"
  | .upsert => "upsert"

def all : List WriteMode := [.create, .update, .upsert]

def ofName? (name : String) : Option WriteMode := all.find? fun mode => mode.name == name

/-- The record that a write leaves, given the record it finds; none if it must not write.  An
expired record is no live one, but only a create lets it be forgotten. -/
def written (mode : WriteMode) (found : Option Record) (value : Json) (now : Instant)
    (expires : Option Instant) : Option Record :=
  match mode, found with
  | .update, none => none
  | _, none => some (.ofValue value now expires)
  | .create, some record =>
    if record.isExpired now then some (.ofValue value now expires) else none
  | .update, some record =>
    if record.isExpired now then none else some (record.replace value now expires)
  | .upsert, some record => some (record.replace value now expires)

end WriteMode

end DocStore
