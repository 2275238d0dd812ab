import TableService.Text.Case

/-!
# Dialects and identifiers

Two dialects are spoken. An identifier is written as it is if it is lower case, made of letters,
digits, `_` and `$`, does not begin with a digit or `$`, and is **no reserved word of the
dialect**; otherwise it stands between double quotes.
-/

namespace TableService
namespace Sql

/-- The dialects of SQL. -/
inductive Dialect where
  | postgresql
  | sqlite
  deriving DecidableEq, Repr, Inhabited

/-- The name of a dialect. -/
def Dialect.name : Dialect → Text
  | .postgresql => Text.ofString "postgresql"
  | .sqlite => Text.ofString "sqlite"

/-- The dialects, in the order in which they are offered. -/
def Dialect.all : List Dialect := [.postgresql, .sqlite]

/-- The dialect with a name. -/
def Dialect.ofName? (t : Text) : Option Dialect := all.find? fun d => d.name == t

/-- The words a dialect reserves. -/
def reservedWords : Dialect → List String
  | .postgresql => [
    "all", "analyse", "analyze", "and", "any", "array", "as", "asc", "asymmetric", "both",
    "case", "cast", "check", "collate", "column", "constraint", "create", "current_catalog",
    "current_date", "current_role", "current_time", "current_timestamp", "current_user",
    "default", "deferrable", "desc", "distinct", "do", "else", "end", "except", "false", "fetch",
    "for", "foreign", "from", "grant", "group", "having", "in", "initially", "intersect", "into",
    "leading", "limit", "localtime", "localtimestamp", "new", "not", "null", "of", "off",
    "offset", "old", "on", "only", "or", "order", "placing", "primary", "references",
    "returning", "select", "session_user", "some", "symmetric", "table", "then", "to",
    "trailing", "true", "union", "unique", "user", "using", "variadic", "when", "where",
    "window", "with", "authorization", "between", "binary", "cross", "current_schema", "freeze",
    "full", "ilike", "inner", "is", "isnull", "join", "left", "like", "natural", "notnull",
    "outer", "over", "overlaps", "right", "similar", "verbose"]
  | .sqlite => [
    "add", "after", "all", "alter", "analyze", "and", "as", "asc", "attach", "autoincrement",
    "before", "begin", "between", "by", "cascade", "case", "cast", "check", "collate", "column",
    "commit", "conflict", "constraint", "create", "cross", "current_date", "current_time",
    "current_timestamp", "database", "default", "deferrable", "deferred", "delete", "desc",
    "detach", "distinct", "drop", "each", "else", "end", "escape", "except", "exclusive",
    "exists", "explain", "false", "fail", "for", "foreign", "from", "full", "glob", "group",
    "having", "if", "ignore", "immediate", "in", "index", "indexed", "initially", "inner",
    "insert", "instead", "intersect", "into", "is", "isnull", "join", "key", "left", "like",
    "limit", "match", "natural", "not", "notnull", "null", "of", "offset", "on", "or", "order",
    "outer", "plan", "pragma", "primary", "query", "raise", "references", "reindex", "rename",
    "replace", "restrict", "right", "rollback", "row", "select", "set", "table", "temp",
    "temporary", "then", "to", "transaction", "trigger", "true", "union", "unique", "update",
    "using", "vacuum", "values", "view", "virtual", "when", "where"]

/-- Whether a character may stand in an identifier without quotes. -/
def isPlain (c : Char) : Bool := c.isAlphanum || c == '_' || c == '$'

/-- Whether an identifier has to be quoted. -/
def needsQuotes (d : Dialect) (name : Text) : Bool :=
  match name with
  | [] => true
  | c :: _ =>
    c.isDigit || c == '$' || !name.all isPlain || name.any Char.isUpper
      || (reservedWords d).any fun w => w.toList == name

/-- An identifier as it is written. Where placeholders begin with `%`, a `%` is doubled. -/
def identifier (d : Dialect) (name : Text) : Text :=
  let body := if d = .postgresql then Text.replaceChar '%' ['%', '%'] name else name
  if needsQuotes d name then '"' :: Text.replaceChar '"' ['"', '"'] body ++ ['"'] else body

end Sql
end TableService
