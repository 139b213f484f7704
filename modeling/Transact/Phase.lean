/-! Where a transaction stands: active, until it reaches one of two ends. -/
namespace Transact

inductive Phase where
  | active
  | committed
  | rolledBack
deriving DecidableEq, Repr, Inhabited

namespace Phase

def name : Phase → String
  | active => "active"
  | committed => "committed"
  | rolledBack => "rolled_back"

def constantName : Phase → String
  | active => "ACTIVE"
  | committed => "COMMITTED"
  | rolledBack => "ROLLED_BACK"

def isTerminal : Phase → Bool
  | active => false
  | _ => true

def ofName? : String → Option Phase
  | "active" => some active
  | "committed" => some committed
  | "rolled_back" => some rolledBack
  | _ => none

@[simp] theorem ofName?_name (p : Phase) : ofName? p.name = some p := by cases p <;> rfl

theorem isTerminal_eq_false_iff {p : Phase} : p.isTerminal = false ↔ p = active := by
  cases p <;> simp [isTerminal]

theorem isTerminal_iff {p : Phase} : p.isTerminal = true ↔ p ≠ active := by
  cases p <;> simp [isTerminal]

end Phase
end Transact
