import TeamAccess.Store.Basic

/-! # Schema of the store

The columns, the rules and the indexes of every table, as a migration of an empty database creates
them.
-/

namespace TeamAccess.Migration

/-- The type of a column. -/
inductive ColumnType where
  | uuid
  | text
  | longText
  | flag
  | time
  deriving DecidableEq, Repr

/-- The name of a type. -/
def ColumnType.name : ColumnType → String
  | .uuid => "Uuid"
  | .text => "String"
  | .longText => "Text"
  | .flag => "Boolean"
  | .time => "DateTime"

/-- A column. -/
structure Column where
  name : String
  type : ColumnType
  nullable : Bool := false
  isKey : Bool := false
  target : Option Table := none
  deriving DecidableEq, Repr

/-- A column in words: its name, its type, and whether it may be empty, is part of the key or refers
to the rows of another table. -/
def Column.text (c : Column) : String :=
  s!"{c.name}:{c.type.name}:" ++ (if c.nullable then "null" else "not null")
    ++ (if c.isKey then ":pk" else "")
    ++ (c.target.map fun t => s!":fk {t.name}.id CASCADE").getD ""

/-- The column of an entity's identifier. -/
def identifier : Column := { name := "id", type := .uuid, isKey := true }

/-- A column with a text. -/
def textColumn (name : String) (nullable : Bool) : Column := { name, type := .text, nullable }

/-- The column of the time of creation. -/
def created : Column := { name := "created_at", type := .time }

/-- A column that refers to the rows of a table. -/
def reference (name : String) (target : Table) (isKey : Bool) : Column :=
  { name, type := .uuid, isKey, target := some target }

/-- The two columns of an edge. -/
def edge (left : String) (leftTable : Table) (right : String) (rightTable : Table) : List Column :=
  [reference left leftTable true, reference right rightTable true]

/-- The columns of a user's profile. -/
def profileColumns : UserKind → List Column
  | .managed => [textColumn "fullname" true, textColumn "email" true,
      { name := "suspended", type := .flag }]
  | .ldap => [textColumn "dn" true]
  | .oidc => [textColumn "subject_identifier" true, textColumn "email" true]

/-- The columns of a table, in order. -/
def columns : Table → List Column
  | .permissions => [identifier, textColumn "name" false,
      { name := "description", type := .longText, nullable := true }]
  | .teams => [identifier, textColumn "name" false, created]
  | .users k => profileColumns k ++ [identifier, textColumn "username" false, created]
  | .apiKeys => [identifier, textColumn "key" false, created]
  | .oidcGroups => [identifier, textColumn "name" false]
  | .ldapMappings => [identifier, reference "team_id" .teams false, textColumn "dn" false]
  | .oidcMappings =>
    [identifier, reference "team_id" .teams false, reference "group_id" .oidcGroups false]
  | .memberships (.user k) => edge "user_id" (.users k) "team_id" .teams
  | .memberships .apiKey => edge "api_key_id" .apiKeys "team_id" .teams
  | .userGrants k => edge "user_id" (.users k) "permission_id" .permissions
  | .teamGrants => edge "team_id" .teams "permission_id" .permissions

/-- The sets of columns in which no two rows of a table agree, the key apart. -/
def uniqueColumns : Table → List (List String)
  | .permissions | .teams | .oidcGroups => [["name"]]
  | .users _ => [["username"]]
  | .apiKeys => [["key"]]
  | .ldapMappings => [["team_id", "dn"]]
  | .oidcMappings => [["team_id", "group_id"]]
  | .memberships _ | .userGrants _ | .teamGrants => []

/-- Something that a migration creates. -/
inductive Creation where
  | index (name : String) (columns : List String)
  | table (table : Table)
  deriving DecidableEq, Repr

/-- The name of what is created. -/
def Creation.name : Creation → String
  | .index name _ => name
  | .table t => t.name

/-- The indexes, by name. -/
def indexes : List Creation :=
  [.index "ix_mapped_ldap_groups_dn" ["dn"], .index "ix_mapped_oidc_groups_group" ["group_id"]]

/-- What an empty database lacks: the indexes, then the tables by name. -/
def creations : List Creation := indexes ++ (sortedBy (·.name) Table.all).map .table

end TeamAccess.Migration
