/-
  `mutations/engine.py` and the change sets of `mutations/policy.py`.

  `propose` tries at most `20 n + 20` times: it draws some operators, one proposal of each
  (no field twice), and keeps the result if the policy accepts it as a change set and its
  signature is new. `random.Random` is an `Rng`; `str` of a value is a parameter.
-/
import Mathlib.Data.Prod.Lex
import Mathlib.Data.String.Basic
import NeuroForge.Evaluation.Objectives
import NeuroForge.Lib.Random
import NeuroForge.Mutations.Operators

namespace NeuroForge

variable {ρ : Type}

/-! ## The policy -/

/-- The whole of `MutationPolicy`. -/
structure ChangePolicy extends MutationPolicy where
  maxChangesPerCandidate : IntIn 1 10 := ⟨3, by norm_num⟩
  forbiddenCombinations : List (String × String) := [("model.temperature", "output.format")]

/-- `validate_change_set`: whether a change set is acceptable, and the reason. -/
def ChangePolicy.validateChangeSet (policy : ChangePolicy) (fieldPaths : List String) :
    Bool × String :=
  if policy.maxChangesPerCandidate.val < fieldPaths.length then
    (false, s!"candidate touches {fieldPaths.length} fields, " ++
      s!"policy allows at most {policy.maxChangesPerCandidate.val}")
  else
    match fieldPaths.find? fun f => !policy.isAllowed f with
    | some f => (false, s!"field '{f}' is not permitted by mutation policy")
    | none =>
        match policy.forbiddenCombinations.find? fun c =>
          c.1 ∈ fieldPaths && c.2 ∈ fieldPaths with
        | some c => (false, s!"combination ({c.1}, {c.2}) is forbidden by mutation policy")
        | none => (true, "ok")

/-- A set of fields that may be changed together. -/
structure ChangePolicy.Permits (policy : ChangePolicy) (fieldPaths : List String) : Prop where
  atMost : (fieldPaths.length : ℤ) ≤ policy.maxChangesPerCandidate
  allowed : ∀ f ∈ fieldPaths, policy.isAllowed f = true
  combinations : ∀ c ∈ policy.forbiddenCombinations, ¬(c.1 ∈ fieldPaths ∧ c.2 ∈ fieldPaths)

theorem ChangePolicy.validateChangeSet_iff (policy : ChangePolicy) (fieldPaths : List String) :
    (policy.validateChangeSet fieldPaths).1 = true ↔ policy.Permits fieldPaths := by
  unfold validateChangeSet
  by_cases hmany : policy.maxChangesPerCandidate.val < fieldPaths.length
  · rw [if_pos hmany]
    constructor
    · intro h
      cases h
    · intro h
      exact absurd h.atMost (not_le.mpr hmany)
  · rw [if_neg hmany]
    cases hfield : fieldPaths.find? fun f => !policy.isAllowed f with
    | some f =>
        constructor
        · intro h
          cases h
        · intro h
          have hrefused := List.find?_some hfield
          rw [h.allowed f (List.mem_of_find?_eq_some hfield)] at hrefused
          cases hrefused
    | none =>
        have hallowed : ∀ f ∈ fieldPaths, policy.isAllowed f = true := by
          simpa using hfield
        cases hcombination : policy.forbiddenCombinations.find? fun c =>
            c.1 ∈ fieldPaths && c.2 ∈ fieldPaths with
        | some c =>
            constructor
            · intro h
              cases h
            · intro h
              have hboth := List.find?_some hcombination
              rw [Bool.and_eq_true, decide_eq_true_eq, decide_eq_true_eq] at hboth
              exact absurd hboth (h.combinations c (List.mem_of_find?_eq_some hcombination))
        | none =>
            have hnone : ∀ c ∈ policy.forbiddenCombinations,
                ¬(c.1 ∈ fieldPaths ∧ c.2 ∈ fieldPaths) := by
              simpa using hcombination
            exact ⟨fun _ => ⟨not_lt.mp hmany, hallowed, hnone⟩, fun _ => rfl⟩

/-! ## The engine -/

structure MutationEngine (ρ : Type) where
  policy : ChangePolicy
  rng : Rng ρ
  /-- `str(value)`. -/
  text : Value → String
  digest : GenomeDigest

/-- What `propose` keeps between two attempts. -/
structure Proposing (ρ : Type) where
  rng : ρ
  seenSignatures : List (List (String ×ₗ String)) := []
  candidates : List SystemGenome := []

namespace MutationEngine

variable (e : MutationEngine ρ)

/-- The operators whose names begin with one of the categories, or all if there are none. -/
def focused (focusCategories : List String) : List (String × Operator) :=
  let ops := operators fun q => e.text (.float q)
  if focusCategories = [] then ops
  else
    let focused := ops.filter fun op =>
      focusCategories.any fun c => decide (c.toList <+: op.1.toList)
    if focused = [] then ops else focused

/-- The loop over the chosen operators: one proposal of each, for a field not yet touched. -/
def gather (genome : SystemGenome) :
    List (String × Operator) → List String → ρ → List MutationProposal × ρ
  | [], _, s => ([], s)
  | op :: ops, touched, s =>
      let options := (op.2 genome).filter fun o =>
        e.policy.isAllowed o.fieldPath && decide (o.fieldPath ∉ touched)
      if h : options = [] then gather genome ops touched s
      else
        let (proposal, s) := e.rng.choice options h s
        let (proposals, s) := gather genome ops (proposal.fieldPath :: touched) s
        (proposal :: proposals, s)

/-- The fields and the texts of their new values, sorted. -/
def signature (proposals : List MutationProposal) : List (String ×ₗ String) :=
  (proposals.map fun p => toLex (p.fieldPath, e.text p.newValue)).insertionSort (· ≤ ·)

def record (genome : SystemGenome) (p : MutationProposal) : Except FieldError MutationRecord := do
  let oldValue ← getFieldByPath genome.config p.fieldPath
  return ⟨p.mutationType, p.fieldPath, oldValue, p.newValue, p.reason⟩

/-- The body of the loop. -/
def attempt (genome : SystemGenome) (ops : List (String × Operator)) (nextVersionStart : ℕ)
    (st : Proposing ρ) : Except FieldError (Proposing ρ) :=
  let (nChanges, s) := e.rng.randint 1 e.policy.maxChangesPerCandidate st.rng
  let (chosen, s) := e.rng.sample ops (min nChanges.toNat ops.length) s
  let (proposals, s) := e.gather genome chosen [] s
  if proposals = [] then .ok { st with rng := s }
  else if (e.policy.validateChangeSet (proposals.map (·.fieldPath))).1 = false then
    .ok { st with rng := s }
  else if e.signature proposals ∈ st.seenSignatures then .ok { st with rng := s }
  else do
    let overrides := Dict.ofEntries (proposals.map fun p => (p.fieldPath, p.newValue))
    let records ← proposals.mapM (record genome)
    let child ← genome.derive e.digest records overrides
      (nextVersionStart + st.candidates.length) (genome.generation + 1)
    return {
      rng := s
      seenSignatures := e.signature proposals :: st.seenSignatures
      candidates := st.candidates ++ [child] }

/-- The loop, with `left` attempts left. -/
def attempts (genome : SystemGenome) (ops : List (String × Operator)) (nCandidates : ℤ)
    (nextVersionStart : ℕ) : ℕ → Proposing ρ → Except FieldError (Proposing ρ)
  | 0, st => .ok st
  | left + 1, st =>
      if st.candidates.length < nCandidates then do
        let st ← e.attempt genome ops nextVersionStart st
        attempts genome ops nCandidates nextVersionStart left st
      else .ok st

/-- The candidates, with the next state of the generator. -/
def propose (genome : SystemGenome) (nCandidates : ℤ) (nextVersionStart : ℕ)
    (focusCategories : List String) (s : ρ) : Except FieldError (List SystemGenome × ρ) := do
  let st ← e.attempts genome (e.focused focusCategories) nCandidates nextVersionStart
    (nCandidates * 20 + 20).toNat { rng := s }
  return (st.candidates, st.rng)

end MutationEngine

end NeuroForge
