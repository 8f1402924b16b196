import Mathlib

/-! A machine shared by tenants: each call runs on the state of its own tenant and on no other,
so what a tenant sees of an interleaving is its own calls alone. -/

namespace Tenants

variable {κ τ ι ρ : Type} [DecidableEq κ] (step : τ → ι → ρ × τ)

/-- One call: the state of its tenant goes through the step. -/
def serve (tenants : κ → τ) (call : κ × ι) : ρ × (κ → τ) :=
  let served := step (tenants call.1) call.2
  (served.1, Function.update tenants call.1 served.2)

/-- Every call in turn, with the result each tenant gets. -/
def serveAll : (κ → τ) → List (κ × ι) → List (κ × ρ) × (κ → τ)
  | tenants, [] => ([], tenants)
  | tenants, call :: rest =>
      let served := serve step tenants call
      let later := serveAll served.2 rest
      ((call.1, served.1) :: later.1, later.2)

/-- The entries of one tenant. -/
def own {α : Type} (tenant : κ) (entries : List (κ × α)) : List (κ × α) :=
  entries.filter fun entry => entry.1 = tenant

theorem serve_other (tenants : κ → τ) (call : κ × ι) {tenant : κ} (other : tenant ≠ call.1) :
    (serve step tenants call).2 tenant = tenants tenant :=
  Function.update_of_ne other _ _

theorem serve_own (tenants : κ → τ) (call : κ × ι) :
    (serve step tenants call).2 call.1 = (step (tenants call.1) call.2).2 :=
  Function.update_self _ _ _

/-- Among tenants that agree on one of them, that one is served alike. -/
theorem serveAll_own (tenant : κ) {tenants others : κ → τ}
    (same : tenants tenant = others tenant) (calls : List (κ × ι)) :
    own tenant (serveAll step tenants calls).1 =
        (serveAll step others (own tenant calls)).1 ∧
      (serveAll step tenants calls).2 tenant =
        (serveAll step others (own tenant calls)).2 tenant := by
  induction calls generalizing tenants others with
  | nil => exact ⟨rfl, same⟩
  | cons call rest ih =>
      by_cases mine : call.1 = tenant
      · have next : (serve step tenants call).2 tenant = (serve step others call).2 tenant := by
          rw [← mine, serve_own, serve_own, mine, same]
        have result : (serve step tenants call).1 = (serve step others call).1 := by
          simp only [serve, mine, same]
        obtain ⟨results, states⟩ := ih next
        constructor
        · simp only [own] at results
          simp [serveAll, own, mine, results, result]
        · simpa [serveAll, own, mine] using states
      · have next : (serve step tenants call).2 tenant = others tenant := by
          rw [serve_other step tenants call (Ne.symm mine), same]
        obtain ⟨results, states⟩ := ih next
        constructor
        · simp only [own] at results
          simpa [serveAll, own, mine] using results
        · simpa [serveAll, own, mine] using states

end Tenants
