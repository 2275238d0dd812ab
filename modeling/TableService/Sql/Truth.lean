/-!
# Three truth values

A condition on a row holds, fails, or is unknown, and **only the rows for which it holds are
taken**. The connectives are the strong ones: a conjunction fails as soon as one part fails,
whatever is unknown, and the negation of unknown is unknown. Conjunction is the lesser and
disjunction the greater of two values in the order `no`, `unknown`, `yes`.
-/

namespace TableService
namespace Sql

/-- A truth value. -/
inductive Truth where
  | no
  | unknown
  | yes
  deriving DecidableEq, Repr, Inhabited

namespace Truth

/-- A boolean as a truth value. -/
def ofBool : Bool → Truth
  | true => yes
  | false => no

/-- The negation. -/
def not : Truth → Truth
  | no => yes
  | unknown => unknown
  | yes => no

/-- The conjunction of two values. -/
def and : Truth → Truth → Truth
  | no, _ => no
  | _, no => no
  | yes, b => b
  | a, yes => a
  | unknown, unknown => unknown

/-- The disjunction of two values. -/
def or : Truth → Truth → Truth
  | yes, _ => yes
  | _, yes => yes
  | no, b => b
  | a, no => a
  | unknown, unknown => unknown

/-- The conjunction of several values. -/
def all (ts : List Truth) : Truth := ts.foldr and yes

/-- The disjunction of several values. -/
def any (ts : List Truth) : Truth := ts.foldr or no

/-- A value, or its negation. -/
def negateIf (negated : Bool) (t : Truth) : Truth := if negated then t.not else t

/-- Whether a condition with this value takes a row. -/
def holds (t : Truth) : Bool := t == yes

/-! ## Laws -/

@[simp] theorem not_not (t : Truth) : t.not.not = t := by cases t <;> rfl

@[simp] theorem and_yes (t : Truth) : t.and yes = t := by cases t <;> rfl

@[simp] theorem or_no (t : Truth) : t.or no = t := by cases t <;> rfl

theorem and_assoc (a b c : Truth) : (a.and b).and c = a.and (b.and c) := by
  cases a <;> cases b <;> cases c <;> rfl

theorem or_assoc (a b c : Truth) : (a.or b).or c = a.or (b.or c) := by
  cases a <;> cases b <;> cases c <;> rfl

@[simp] theorem not_ofBool (b : Bool) : (ofBool b).not = ofBool (!b) := by cases b <;> rfl

theorem holds_ofBool (b : Bool) : (ofBool b).holds = b := by cases b <;> rfl

theorem all_append (ss ts : List Truth) : all (ss ++ ts) = (all ss).and (all ts) := by
  induction ss with
  | nil => cases h : all ts <;> simp [all, and] at h ⊢ <;> simp [h]
  | cons s ss ih => simpa [all, and_assoc] using congrArg s.and ih

theorem any_append (ss ts : List Truth) : any (ss ++ ts) = (any ss).or (any ts) := by
  induction ss with
  | nil => cases h : any ts <;> simp [any, or] at h ⊢ <;> simp [h]
  | cons s ss ih => simpa [any, or_assoc] using congrArg s.or ih

/-- A conjunction holds exactly if both parts do. -/
theorem holds_and (a b : Truth) : (a.and b).holds = (a.holds && b.holds) := by
  cases a <;> cases b <;> rfl

end Truth
end Sql
end TableService
