import Mathlib
import Neutrino.Library.MachineInt

/-! Balances in 64-bit integers, posted to under overflow checks: what a sequence of postings
adds to one account and to any group of accounts. -/

namespace Ledger

section Posting

variable {κ : Type}

structure Posting (κ : Type) where
  account : κ
  delta : Int64
  deriving DecidableEq

/-- The sum of the postings to the chosen accounts. -/
def netWhere (chosen : κ → Bool) (postings : List (Posting κ)) : Int :=
  ((postings.filter fun posting => chosen posting.account).map (·.delta.toInt)).sum

@[simp] theorem netWhere_nil (chosen : κ → Bool) : netWhere chosen [] = 0 := rfl

theorem netWhere_cons (chosen : κ → Bool) (posting : Posting κ) (rest : List (Posting κ)) :
    netWhere chosen (posting :: rest) =
      (if chosen posting.account then posting.delta.toInt else 0) + netWhere chosen rest := by
  unfold netWhere
  cases hit : chosen posting.account <;> simp [hit]

theorem netWhere_perm (chosen : κ → Bool) {left right : List (Posting κ)}
    (same : left.Perm right) : netWhere chosen left = netWhere chosen right :=
  ((same.filter _).map _).sum_eq

end Posting

variable {κ : Type} [Ord κ]

/-- An account that is absent holds nothing. -/
abbrev Balances (κ : Type) [Ord κ] := Std.ExtTreeMap κ Int64

variable [Std.TransOrd κ]

def balance (balances : Balances κ) (account : κ) : Int64 := (balances[account]?).getD 0

/-- The posting added onto its account, or nothing when the sum overflows. -/
def post (balances : Balances κ) (posting : Posting κ) : Option (Balances κ) :=
  (MachineInt.checked ((balance balances posting.account).toInt + posting.delta.toInt)).map
    fun sum => balances.insert posting.account sum

def postAll : Balances κ → List (Posting κ) → Option (Balances κ)
  | balances, [] => some balances
  | balances, posting :: rest =>
      match post balances posting with
      | none => none
      | some posted => postAll posted rest

/-- The sum of the balances of the chosen accounts. -/
def totalWhere (chosen : κ → Bool) (balances : Balances κ) : Int :=
  ((balances.toList.filter fun entry => chosen entry.1).map (·.2.toInt)).sum

@[simp] theorem balance_empty (account : κ) : balance (∅ : Balances κ) account = 0 := by
  simp [balance]

theorem totalWhere_empty (chosen : κ → Bool) : totalWhere chosen (∅ : Balances κ) = 0 :=
  rfl

theorem postAll_cons {balances final : Balances κ} {posting : Posting κ}
    {rest : List (Posting κ)} :
    postAll balances (posting :: rest) = some final ↔
      ∃ posted, post balances posting = some posted ∧ postAll posted rest = some final := by
  simp only [postAll]
  cases post balances posting <;> simp

theorem postAll_append {balances final : Balances κ} {first second : List (Posting κ)} :
    postAll balances (first ++ second) = some final ↔
      ∃ posted, postAll balances first = some posted ∧ postAll posted second = some final := by
  induction first generalizing balances with
  | nil => simp [postAll]
  | cons posting rest ih =>
      simp only [List.cons_append, postAll_cons, ih]
      constructor
      · rintro ⟨next, stepped, posted, others, later⟩
        exact ⟨posted, ⟨next, stepped, others⟩, later⟩
      · rintro ⟨posted, ⟨next, stepped, others⟩, later⟩
        exact ⟨next, stepped, posted, others, later⟩

theorem post_eq_some {balances posted : Balances κ} {posting : Posting κ} :
    post balances posting = some posted ↔ ∃ sum : Int64,
      sum.toInt = (balance balances posting.account).toInt + posting.delta.toInt ∧
        posted = balances.insert posting.account sum := by
  simp only [post, Option.map_eq_some_iff, MachineInt.checked_eq_some]
  constructor
  · rintro ⟨sum, sumEq, rfl⟩
    exact ⟨sum, sumEq, rfl⟩
  · rintro ⟨sum, sumEq, rfl⟩
    exact ⟨sum, sumEq, rfl⟩

/-- A posting opens at most one account. -/
theorem postAll_size {balances final : Balances κ} {postings : List (Posting κ)}
    (accepted : postAll balances postings = some final) :
    final.size ≤ balances.size + postings.length := by
  induction postings generalizing balances with
  | nil =>
      obtain rfl := Option.some.inj accepted
      exact Nat.le_refl _
  | cons posting rest ih =>
      obtain ⟨posted, stepped, later⟩ := postAll_cons.mp accepted
      obtain ⟨sum, _, rfl⟩ := post_eq_some.mp stepped
      have opened := Std.ExtTreeMap.size_insert_le (t := balances) (k := posting.account)
        (v := sum)
      have others := ih later
      simp only [List.length_cons]
      omega

/-! One account. -/

variable [Std.LawfulEqOrd κ]

/-- A posting moves its own account by its delta and no other. -/
theorem balance_post [DecidableEq κ] {balances posted : Balances κ} {posting : Posting κ}
    (accepted : post balances posting = some posted) (account : κ) :
    (balance posted account).toInt = (balance balances account).toInt +
      (if posting.account = account then posting.delta.toInt else 0) := by
  obtain ⟨sum, sumEq, rfl⟩ := post_eq_some.mp accepted
  unfold balance at *
  rw [Std.ExtTreeMap.getElem?_insert]
  by_cases same : posting.account = account
  · subst same
    simpa using sumEq
  · simp [same]

theorem mem_post {balances posted : Balances κ} {posting : Posting κ}
    (accepted : post balances posting = some posted) (account : κ) :
    account ∈ posted ↔ posting.account = account ∨ account ∈ balances := by
  obtain ⟨sum, _, rfl⟩ := post_eq_some.mp accepted
  simp

/-- A sequence of postings moves every account by the sum of its deltas. -/
theorem balance_postAll [DecidableEq κ] {balances final : Balances κ} {postings : List (Posting κ)}
    (accepted : postAll balances postings = some final) (account : κ) :
    (balance final account).toInt = (balance balances account).toInt +
      netWhere (fun key => key = account) postings := by
  induction postings generalizing balances with
  | nil =>
      simp only [postAll, Option.some.injEq] at accepted
      subst accepted
      simp
  | cons posting rest ih =>
      obtain ⟨posted, stepped, later⟩ := postAll_cons.mp accepted
      rw [ih later, balance_post stepped account, netWhere_cons]
      simp only [decide_eq_true_eq]
      omega

/-- A sequence of postings is accepted exactly when every account stays in range after each. -/
theorem postAll_fits [DecidableEq κ] {balances : Balances κ} {postings : List (Posting κ)} :
    (∃ final, postAll balances postings = some final) ↔ ∀ before, before <+: postings →
      ∀ account, MachineInt.Fits ((balance balances account).toInt +
        netWhere (fun key => key = account) before) := by
  induction postings generalizing balances with
  | nil =>
      refine iff_of_true ⟨balances, rfl⟩ fun before starts account => ?_
      obtain rfl := List.prefix_nil.mp starts
      simpa using MachineInt.fits_toInt (balance balances account)
  | cons posting rest ih =>
      constructor
      · rintro ⟨final, accepted⟩ before starts account
        obtain ⟨posted, stepped, later⟩ := postAll_cons.mp accepted
        cases before with
        | nil => simpa using MachineInt.fits_toInt (balance balances account)
        | cons first before =>
            obtain ⟨rfl, starts'⟩ := List.cons_prefix_cons.mp starts
            have fits := ih.mp ⟨final, later⟩ before starts' account
            rw [balance_post stepped, Int.add_assoc] at fits
            rw [netWhere_cons]
            simpa only [decide_eq_true_eq] using fits
      · intro fits
        have here := fits [posting] (by simp) posting.account
        simp only [netWhere_cons, netWhere_nil, decide_true, if_true, Int.add_zero] at here
        have stepped : post balances posting = some (balances.insert posting.account
            (Int64.ofInt ((balance balances posting.account).toInt + posting.delta.toInt))) := by
          rw [post, MachineInt.checked_of_fits here]
          rfl
        obtain ⟨final, later⟩ := ih.mpr fun before starts account => by
          have fits := fits (posting :: before) (List.cons_prefix_cons.mpr ⟨rfl, starts⟩) account
          rw [netWhere_cons] at fits
          rw [balance_post stepped, Int.add_assoc]
          simpa only [decide_eq_true_eq] using fits
        exact ⟨final, postAll_cons.mpr ⟨_, stepped, later⟩⟩

theorem mem_postAll {balances final : Balances κ} {postings : List (Posting κ)}
    (accepted : postAll balances postings = some final) (account : κ) :
    account ∈ final ↔ (∃ posting ∈ postings, posting.account = account) ∨
      account ∈ balances := by
  induction postings generalizing balances with
  | nil =>
      simp only [postAll, Option.some.injEq] at accepted
      subst accepted
      simp
  | cons posting rest ih =>
      obtain ⟨posted, stepped, later⟩ := postAll_cons.mp accepted
      rw [ih later, mem_post stepped account]
      simp only [List.mem_cons, exists_eq_or_imp]
      grind

/-- Balances are determined by which accounts they hold and what each holds. -/
theorem balances_ext {left right : Balances κ}
    (held : ∀ account, account ∈ left ↔ account ∈ right)
    (same : ∀ account, (balance left account).toInt = (balance right account).toInt) :
    left = right := by
  apply Std.ExtTreeMap.ext_getElem?
  intro account
  have value := MachineInt.toInt_injective (same account)
  have membership := held account
  rw [Std.ExtTreeMap.mem_iff_isSome_getElem?, Std.ExtTreeMap.mem_iff_isSome_getElem?]
    at membership
  unfold balance at value
  cases inLeft : left[account]? <;> cases inRight : right[account]? <;>
    simp_all

/-- Postings in any order that fits lead to the same balances. -/
theorem postAll_perm [DecidableEq κ] {balances final other : Balances κ}
    {left right : List (Posting κ)} (same : left.Perm right)
    (one : postAll balances left = some final) (two : postAll balances right = some other) :
    final = other := by
  apply balances_ext
  · intro account
    rw [mem_postAll one, mem_postAll two]
    simp only [same.mem_iff]
  · intro account
    rw [balance_postAll one, balance_postAll two, netWhere_perm _ same]

/-- Two sequences of postings that both fit lead to the same balances in either order. -/
theorem postAll_comm [DecidableEq κ] {balances first second final other : Balances κ}
    {left right : List (Posting κ)}
    (one : postAll balances left = some first) (two : postAll first right = some final)
    (three : postAll balances right = some second)
    (four : postAll second left = some other) : final = other :=
  postAll_perm List.perm_append_comm (postAll_append.mpr ⟨first, one, two⟩)
    (postAll_append.mpr ⟨second, three, four⟩)

/-! Any group of accounts. -/

/-- An entry and the entries of the map without it are the entries of the map. -/
theorem toList_perm_erase [DecidableEq κ] {balances : Balances κ} {account : κ}
    {value : Int64} (held : balances[account]? = some value) :
    balances.toList.Perm ((account, value) :: (balances.erase account).toList) := by
  have fresh : ∀ map : Balances κ, map.toList.Nodup := fun map =>
    (@Std.ExtTreeMap.distinct_keys_toList _ _ _ map _).imp fun different same =>
      different (by rw [same]; exact Std.ReflOrd.compare_self)
  have notErased : (account, value) ∉ (balances.erase account).toList := by
    simp [Std.ExtTreeMap.mem_toList_iff_getElem?_eq_some]
  rw [List.perm_ext_iff_of_nodup (fresh _)
    (List.nodup_cons.mpr ⟨notErased, fresh _⟩)]
  rintro ⟨key, found⟩
  simp only [Std.ExtTreeMap.mem_toList_iff_getElem?_eq_some, List.mem_cons, Prod.mk.injEq,
    Std.ExtTreeMap.getElem?_erase]
  by_cases same : account = key
  · subst same
    simp [held, eq_comm]
  · simp [same, Ne.symm same]

theorem totalWhere_of_held [DecidableEq κ] (chosen : κ → Bool) {balances : Balances κ}
    {account : κ} {value : Int64} (held : balances[account]? = some value) :
    totalWhere chosen balances = (if chosen account then value.toInt else 0) +
      totalWhere chosen (balances.erase account) := by
  unfold totalWhere
  have same := (((toList_perm_erase held).filter fun entry => chosen entry.1).map
    fun entry => entry.2.toInt).sum_eq
  rw [same]
  cases hit : chosen account <;> simp [hit]

theorem totalWhere_split [DecidableEq κ] (chosen : κ → Bool) (balances : Balances κ)
    (account : κ) :
    totalWhere chosen balances =
      (if chosen account then (balance balances account).toInt else 0) +
        totalWhere chosen (balances.erase account) := by
  unfold balance
  cases held : balances[account]? with
  | some value => simpa using totalWhere_of_held chosen held
  | none =>
      have unchanged : balances.erase account = balances := by
        apply Std.ExtTreeMap.ext_getElem?
        intro key
        rw [Std.ExtTreeMap.getElem?_erase]
        by_cases same : account = key
        · subst same
          simp [held]
        · simp [same]
      simp [unchanged]

/-- A posting moves the total of a group by its delta when its account is in the group. -/
theorem totalWhere_post [DecidableEq κ] (chosen : κ → Bool) {balances posted : Balances κ}
    {posting : Posting κ} (accepted : post balances posting = some posted) :
    totalWhere chosen posted = totalWhere chosen balances +
      (if chosen posting.account then posting.delta.toInt else 0) := by
  obtain ⟨sum, sumEq, rfl⟩ := post_eq_some.mp accepted
  have erased : (balances.insert posting.account sum).erase posting.account =
      balances.erase posting.account := by
    apply Std.ExtTreeMap.ext_getElem?
    intro key
    rw [Std.ExtTreeMap.getElem?_erase, Std.ExtTreeMap.getElem?_erase,
      Std.ExtTreeMap.getElem?_insert]
    by_cases same : posting.account = key <;> simp [same]
  rw [totalWhere_split chosen balances posting.account,
    totalWhere_split chosen (balances.insert posting.account sum) posting.account, erased]
  cases hit : chosen posting.account
  · simp
  · simp only [balance, Std.ExtTreeMap.getElem?_insert_self, Option.getD_some, if_true]
    unfold balance at sumEq
    omega

theorem totalWhere_postAll [DecidableEq κ] (chosen : κ → Bool) {balances final : Balances κ}
    {postings : List (Posting κ)} (accepted : postAll balances postings = some final) :
    totalWhere chosen final = totalWhere chosen balances + netWhere chosen postings := by
  induction postings generalizing balances with
  | nil =>
      simp only [postAll, Option.some.injEq] at accepted
      subst accepted
      simp
  | cons posting rest ih =>
      obtain ⟨posted, stepped, later⟩ := postAll_cons.mp accepted
      rw [ih later, totalWhere_post chosen stepped, netWhere_cons]
      omega

end Ledger
