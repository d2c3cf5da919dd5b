import DocStore.Schema.Basic

/-!
# Database types

The scalar types of the database, and which of them holds each scalar type of a schema.
-/

namespace DocStore

/-- A scalar type of the database. -/
inductive SqlType where
  | smallint
  | integer
  | bigint
  | real
  | doublePrecision
  | numeric
  | boolean
  | text
  | timestamptz
  | uuid
deriving DecidableEq, Repr

namespace SqlType

def name : SqlType → String
  | .smallint => "smallint"
  | .integer => "integer"
  | .bigint => "bigint"
  | .real => "real"
  | .doublePrecision => "double precision"
  | .numeric => "numeric"
  | .boolean => "boolean"
  | .text => "text"
  | .timestamptz => "timestamptz"
  | .uuid => "uuid"

def all : List SqlType :=
  [.smallint, .integer, .bigint, .real, .doublePrecision, .numeric, .boolean, .text, .timestamptz,
    .uuid]

end SqlType

/-- The database type of a scalar on its own; enumerations are stored as text. -/
def ScalarType.sqlType : ScalarType → SqlType
  | .int16 => .smallint
  | .int32 => .integer
  | .int64 => .bigint
  | .float32 => .real
  | .float64 => .doublePrecision
  | .decimal => .numeric
  | .bool => .boolean
  | .text => .text
  | .timestamp => .timestamptz
  | .guid => .uuid
  | .enumeration .. => .text

end DocStore
