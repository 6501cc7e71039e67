import Mathlib.Data.List.Count
import Steve.Library.StepSystem

/-!
# Ledgers of acquired and released resources

A ledger records, in order, resources acquired under a key and resources released. It
settles if no resource is acquired while it is held and none is released that is not held;
what it settles to are the holdings at its end. In a ledger that settles, every resource has
been released as often as acquired, once more for each holding left.
-/

namespace Steve.Library

variable {K I : Type*} [DecidableEq I]

/-- A resource acquired under a key, or released. -/
inductive LedgerEntry (K I : Type*)
  | acquire (key : K) (resource : I)
  | release (resource : I)

/-- Take an entry into the holdings, refusing what cannot be. -/
def ledgerStep (holdings : List (K × I)) : LedgerEntry K I → Option (List (K × I))
  | .acquire key resource =>
    if resource ∈ holdings.map Prod.snd then none else some (holdings ++ [(key, resource)])
  | .release resource =>
    if resource ∈ holdings.map Prod.snd then
      some (holdings.eraseP fun holding => holding.2 = resource)
    else none

/-- The holdings at the end of a ledger that settles. -/
def settle (ledger : List (LedgerEntry K I)) : Option (List (K × I)) :=
  runSchedule ledgerStep [] ledger

/-- A resource acquired that is not held joins the holdings. -/
theorem settle_acquire {ledger : List (LedgerEntry K I)} {holdings : List (K × I)} (key : K)
    {resource : I} (h : settle ledger = some holdings)
    (hfree : resource ∉ holdings.map Prod.snd) :
    settle (ledger ++ [.acquire key resource]) = some (holdings ++ [(key, resource)]) := by
  rw [settle] at h ⊢
  rw [runSchedule_append, h, Option.bind_some, runSchedule, ledgerStep, if_neg hfree]
  rfl

/-- Releasing everything held, in the order of the holdings, leaves none. -/
theorem settle_release_all {ledger : List (LedgerEntry K I)} {holdings : List (K × I)}
    (h : settle ledger = some holdings) :
    settle (ledger ++ holdings.map fun holding => .release holding.2) = some [] := by
  rw [settle] at h ⊢
  rw [runSchedule_append, h, Option.bind_some]
  clear h
  induction holdings with
  | nil => rfl
  | cons holding rest ih =>
    have hheld : holding.2 ∈ (holding :: rest).map Prod.snd :=
      List.mem_map_of_mem List.mem_cons_self
    have hfirst : (holding :: rest).eraseP (fun other => decide (other.2 = holding.2)) = rest := by
      rw [List.eraseP_cons_of_pos]
      exact decide_eq_true rfl
    rw [List.map_cons, runSchedule, ledgerStep, if_pos hheld, hfirst]
    exact ih

/-- The number of times a ledger acquires a resource. -/
def acquisitions (ledger : List (LedgerEntry K I)) (resource : I) : ℕ :=
  ledger.countP fun
    | .acquire _ acquired => acquired = resource
    | .release _ => false

/-- The number of times it releases it. -/
def releases (ledger : List (LedgerEntry K I)) (resource : I) : ℕ :=
  ledger.countP fun
    | .acquire _ _ => false
    | .release released => released = resource

/-- The resources held after releasing one of them. -/
theorem map_snd_release (holdings : List (K × I)) (released : I) :
    (holdings.eraseP fun holding => holding.2 = released).map Prod.snd =
      (holdings.map Prod.snd).erase released := by
  rw [List.erase_eq_eraseP', List.eraseP_map]
  congr 2

/-- Where a ledger settles, the acquisitions of a resource are its releases and what is held
of it. -/
theorem settle_balance {ledger : List (LedgerEntry K I)} {holdings : List (K × I)}
    (h : settle ledger = some holdings) (resource : I) :
    acquisitions ledger resource =
      releases ledger resource + (holdings.map Prod.snd).count resource := by
  refine runSchedule_invariant (fun past held => acquisitions past resource =
    releases past resource + (held.map Prod.snd).count resource) rfl ?_ ledger holdings h
  intro past held entry next hpast hnext
  rw [acquisitions, releases] at hpast ⊢
  rw [List.countP_append, List.countP_append, List.countP_singleton, List.countP_singleton]
  cases entry with
  | acquire key acquired =>
    rw [ledgerStep] at hnext
    split at hnext
    · cases hnext
    · cases hnext
      rw [List.map_append, List.count_append, List.map_singleton, List.count_singleton]
      by_cases hsame : acquired = resource
      · simp only [hsame, decide_true, ↓reduceIte, Bool.false_eq_true, Nat.add_zero, BEq.rfl]
        omega
      · simp only [hsame, decide_false, Bool.false_eq_true, ↓reduceIte, Nat.add_zero, beq_iff_eq]
        omega
  | release released =>
    rw [ledgerStep] at hnext
    split at hnext
    · rename_i hheld
      cases hnext
      rw [map_snd_release, List.count_erase]
      by_cases hsame : released = resource
      · have hcount : 0 < (held.map Prod.snd).count resource :=
          List.count_pos_iff.mpr (hsame ▸ hheld)
        simp only [Bool.false_eq_true, ↓reduceIte, Nat.add_zero, hsame, decide_true, BEq.rfl]
        omega
      · simp only [Bool.false_eq_true, ↓reduceIte, Nat.add_zero, hsame, decide_false,
          beq_iff_eq, Nat.sub_zero]
        omega
    · cases hnext

end Steve.Library
