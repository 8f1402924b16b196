import Mathlib
import Neutrino.Library.Ledger

/-! Commits against a store of shared balances and one private record for each key: a commit
replaces its own key's record and posts to the balances. -/

namespace KeyedStore

open Ledger

variable {κ ρ α : Type} [DecidableEq κ] [Ord α] [Std.TransOrd α]

structure Store (κ ρ α : Type) [Ord α] where
  balances : Balances α
  records : κ → ρ

structure Change (κ ρ α : Type) where
  key : κ
  record : ρ
  postings : List (Posting α)

/-- The commit of a change leads from one store to the other. -/
structure Commits (before : Store κ ρ α) (change : Change κ ρ α) (after : Store κ ρ α) :
    Prop where
  posted : postAll before.balances change.postings = some after.balances
  records : after.records = Function.update before.records change.key change.record

namespace Commits

variable {before after : Store κ ρ α} {change : Change κ ρ α}

theorem record_self (committed : Commits before change after) :
    after.records change.key = change.record := by
  rw [committed.records, Function.update_self]

/-- A store and a change determine where a commit leads. -/
theorem unique {other : Store κ ρ α} (committed : Commits before change after)
    (again : Commits before change other) : after = other := by
  have balances : after.balances = other.balances :=
    Option.some.inj (committed.posted.symm.trans again.posted)
  have records : after.records = other.records := by rw [committed.records, again.records]
  cases after
  cases other
  simp_all

/-- A commit leaves the records of other keys alone. -/
theorem record_of_ne (committed : Commits before change after) {key : κ}
    (other : key ≠ change.key) : after.records key = before.records key := by
  rw [committed.records, Function.update_of_ne other]

/-- What every record satisfied and the new one does, every record satisfies afterwards. -/
theorem forall_records (property : κ → ρ → Prop) (committed : Commits before change after)
    (held : ∀ key, property key (before.records key))
    (new : property change.key change.record) : ∀ key, property key (after.records key) := by
  intro key
  by_cases same : key = change.key
  · subst same
    rw [committed.record_self]
    exact new
  · rw [committed.record_of_ne same]
    exact held key

variable [Std.LawfulEqOrd α] [DecidableEq α]

theorem balance (committed : Commits before change after) (account : α) :
    (Ledger.balance after.balances account).toInt =
      (Ledger.balance before.balances account).toInt +
        netWhere (fun key => key = account) change.postings :=
  balance_postAll committed.posted account

theorem total (committed : Commits before change after) (chosen : α → Bool) :
    totalWhere chosen after.balances =
      totalWhere chosen before.balances + netWhere chosen change.postings :=
  totalWhere_postAll chosen committed.posted

/-- Commits of different keys lead to the same store in either order. -/
theorem comm {start one two final other : Store κ ρ α} {first second : Change κ ρ α}
    (different : first.key ≠ second.key) (firstFirst : Commits start first one)
    (thenSecond : Commits one second final) (secondFirst : Commits start second two)
    (thenFirst : Commits two first other) : final = other := by
  have balances : final.balances = other.balances :=
    postAll_comm firstFirst.posted thenSecond.posted secondFirst.posted thenFirst.posted
  have records : final.records = other.records := by
    rw [thenSecond.records, firstFirst.records, thenFirst.records, secondFirst.records]
    exact Function.update_comm different _ _ _
  cases final
  cases other
  simp_all

end Commits

end KeyedStore
