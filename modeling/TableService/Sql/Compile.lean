import TableService.Sql.Condition
import TableService.Query.Ordering

/-!
# From filters to conditions

Compiling looks up each field of a filter among the columns of a table and binds its operands:
**a text column is compared with tokens as they were written**, any other column with what they
spell. A null operand of an equality becomes a null test, and a boolean one a constant, except
on text columns, where it is a token like any other.

An order comparison and a pattern have no such form for a null or a boolean. **They cannot be
compiled with one**, although a filter that was put together by hand may have them.
-/

namespace TableService
namespace Sql

/-- What an operand is bound as. -/
def bind (text : Bool) (x : Operand) : Literal := if text then .text x.token else x.literal

/-- An equality or inequality with one operand. -/
def equality (text negated : Bool) (x : Operand) : Test :=
  let relation := if negated then Relation.ne else Relation.eq
  if x.literal = .null then .isNull negated
  else match bind text x with
    | .boolean b => .equalsConstant negated b
    | l => .compare relation l

/-- What an order comparison or a pattern has for its operand: what that is bound as, unless it is
null or a boolean. -/
def comparand (text : Bool) (x : Operand) : Except QueryFault Literal :=
  match bind text x with
  | .null | .boolean _ => .error .incomparable
  | l => .ok l

/-- The test a predicate becomes on a column that binds texts or not. -/
def compilePredicate (text : Bool) : Predicate → Except QueryFault Test
  | .null holds => .ok (.isNull !holds)
  | .compare .eq x => .ok (equality text false x)
  | .compare .ne x => .ok (equality text true x)
  | .compare r x => (comparand text x).map (.compare r)
  | .pattern caseless negated x => (comparand text x).map (.like caseless negated)
  | .among negated xs => .ok (.among negated (xs.map (bind text)))
  | .between negated low high => .ok (.between negated (bind text low) (bind text high))
  | .array test xs => .ok (.array test (xs.map (bind text)))

mutual

/-- The condition a filter becomes on a table. -/
def compile (table : Table) : Filter → Except QueryFault Condition
  | .test field p =>
    match table.column? field with
    | none => .error (.unknownField field none)
    | some c => (compilePredicate c.type.bindsText p).map (.test c)
  | .all parts =>
    match compileAll table parts with
    | .error e => .error e
    | .ok cs => .ok (.conj cs)
  | .any parts =>
    match compileAll table parts with
    | .error e => .error e
    | .ok cs => .ok (.disj cs)
  | .not part =>
    match compile table part with
    | .error e => .error e
    | .ok c => .ok c.negate

/-- The conditions several filters become. -/
def compileAll (table : Table) : List Filter → Except QueryFault (List Condition)
  | [] => .ok []
  | f :: fs =>
    match compile table f with
    | .error e => .error e
    | .ok c =>
      match compileAll table fs with
      | .error e => .error e
      | .ok cs => .ok (c :: cs)

end

/-- A column to sort by. -/
structure SortKey where
  column : Column
  descending : Bool
  deriving Repr, Inhabited

/-- The columns that sort keys name. -/
def compileOrder (table : Table) : List OrderItem → Except QueryFault (List SortKey)
  | [] => .ok []
  | x :: xs =>
    match table.column? x.field with
    | none => .error (.unsortable [x.field])
    | some c =>
      match compileOrder table xs with
      | .error e => .error e
      | .ok ks => .ok (⟨c, x.descending⟩ :: ks)

end Sql
end TableService
