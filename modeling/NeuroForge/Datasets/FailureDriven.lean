/-
  `failure_driven_challenges`: when it fails loudly, and what it returns otherwise.

  Each round asks for eight times as many cases as are wanted. A domain with at most eight
  categories that generates them round robin makes at least `n` of each, so the first round
  is enough as soon as one requested category is known (`found_of_known`); if none is, no
  round finds anything (`raises_of_unknown`). A category the domain does not have is noticed
  only in the second case: beside a known one it is passed over in silence.
-/
import NeuroForge.Datasets.Evolution
import NeuroForge.Domains.BuiltIn

namespace NeuroForge

open Rounding CaseGenerator

variable {ρ : Type}

/-- The category is one the domain generates. -/
def ApplicationDomain.Generates (domain : ApplicationDomain) (category : String) : Prop :=
  ∃ n range seed, ∃ c ∈ domain.generateCases n range seed, c.category = category

/-- What is asked of challenges made for failing categories. -/
structure Targeted (wanted : List String) (n : ℤ) (found : List Challenge) : Prop where
  length : (found.length : ℤ) = n
  nodup : (found.map (·.challengeId)).Nodup
  category : ∀ c ∈ found, c.category ∈ wanted
  difficulty : ∀ c ∈ found, 1/2 ≤ c.difficulty.val ∧ c.difficulty.val ≤ 19/20

/-- Exactly for an unknown category there is an error, and otherwise what was asked for. -/
structure FailsLoudly (domain : ApplicationDomain) (wanted : List String) (n seed : ℤ) :
    Prop where
  raises : (∃ e, failureDrivenChallenges domain wanted n seed = .error e) ↔
    ∃ c ∈ wanted, ¬domain.Generates c
  returns : ∀ found, failureDrivenChallenges domain wanted n seed = .ok found →
    Targeted wanted n found

theorem hardRange_valid : ValidRange hardRange := by
  norm_num [ValidRange, hardRange]

theorem roundTo_hardRange : roundTo 3 hardRange.1 = 1/2 ∧ roundTo 3 hardRange.2 = 19/20 := by
  constructor
  · exact roundTo_of_mem_decimals (mem_decimals.mpr ⟨500, by norm_num [hardRange]⟩)
  · exact roundTo_of_mem_decimals (mem_decimals.mpr ⟨950, by norm_num [hardRange]⟩)

namespace RoundRobinDomain

variable (d : RoundRobinDomain ρ)

/-- The cases one round keeps. -/
def kept (wanted : List String) (n seed : ℤ) : List Challenge :=
  (d.toDomain.generateCases (max (n * 8) 16) hardRange seed).filter fun c =>
    c.category ∈ wanted && d.validate c

theorem mem_kept {wanted : List String} {n seed : ℤ} {c : Challenge}
    (hc : c ∈ d.kept wanted n seed) :
    c ∈ d.toDomain.generateCases (max (n * 8) 16) hardRange seed ∧ c.category ∈ wanted := by
  obtain ⟨hmem, hkeep⟩ := List.mem_filter.mp hc
  rw [Bool.and_eq_true, decide_eq_true_eq] at hkeep
  exact ⟨hmem, hkeep.1⟩

/-- One round makes enough of every category it knows. -/
theorem le_length_kept {wanted : List String} {category : String} (hwanted : category ∈ wanted)
    (hknown : category ∈ d.categories) (n seed : ℤ) :
    n ≤ (d.kept wanted n seed).length := by
  obtain ⟨hspec, hvalid⟩ := d.toDomain_spec hardRange_valid (max (n * 8) 16) seed
  have hshare := d.le_countP_category hspec hknown
  have hcount : (d.toDomain.generateCases (max (n * 8) 16) hardRange seed).countP
      (fun c => c.category = category) ≤ (d.kept wanted n seed).length := by
    rw [kept, ← List.countP_eq_length_filter]
    refine List.countP_mono_left fun c hc hcategory => ?_
    have hcategory : c.category = category := of_decide_eq_true hcategory
    rw [hcategory, hvalid c hc, decide_eq_true hwanted]
    rfl
  have height : n.toNat ≤ (max (n * 8) 16).toNat / d.kinds.length := by
    rw [Nat.le_div_iff_mul_le d.kinds_pos]
    calc n.toNat * d.kinds.length ≤ n.toNat * 8 := Nat.mul_le_mul_left _ d.atMostEight
      _ ≤ (max (n * 8) 16).toNat := by omega
  omega

theorem collectFailing_succ (wanted : List String) (n seed : ℤ) (rounds round : ℕ)
    (found : List Challenge) :
    collectFailing d.toDomain wanted n seed (rounds + 1) round found =
      if n ≤ (found ++ d.kept wanted n (seed + round)).length then
        some ((found ++ d.kept wanted n (seed + round)).take n.toNat)
      else collectFailing d.toDomain wanted n seed rounds (round + 1)
        (found ++ d.kept wanted n (seed + round)) := rfl

/-- With one known category the first round is enough. -/
theorem found_of_known {wanted : List String} {category : String} (hwanted : category ∈ wanted)
    (hknown : category ∈ d.categories) {n : ℤ} (hn : 1 ≤ n) (seed : ℤ) :
    failureDrivenChallenges d.toDomain wanted n seed =
      .ok ((d.kept wanted n seed).take n.toNat) := by
  have hnonempty : wanted ≠ [] := List.ne_nil_of_mem hwanted
  have hlength := d.le_length_kept hwanted hknown n seed
  have hcollect : collectFailing d.toDomain wanted n seed 50 0 [] =
      some ((d.kept wanted n seed).take n.toNat) := by
    have hzero : seed + (0 : ℕ) = seed := add_zero seed
    rw [d.collectFailing_succ wanted n seed 49 0 [], List.nil_append, hzero, if_pos hlength]
  have hpos : ¬n < 1 := not_lt.mpr hn
  rw [failureDrivenChallenges, if_neg hpos, if_neg hnonempty, hcollect]

theorem targeted_kept {wanted : List String} {n : ℤ} (hn : 1 ≤ n) {seed : ℤ}
    (hlength : n ≤ (d.kept wanted n seed).length) :
    Targeted wanted n ((d.kept wanted n seed).take n.toNat) where
  length := by
    rw [List.length_take]
    omega
  nodup := by
    have hspec := (d.toDomain_spec hardRange_valid (max (n * 8) 16) seed).1
    have hsublist : ((d.kept wanted n seed).take n.toNat).Sublist
        (d.toDomain.generateCases (max (n * 8) 16) hardRange seed) :=
      (List.take_sublist _ _).trans List.filter_sublist
    exact (d.nodup_challengeId hspec).sublist (hsublist.map _)
  category c hc := (d.mem_kept (List.mem_of_mem_take hc)).2
  difficulty c hc := by
    have hspec := (d.toDomain_spec hardRange_valid (max (n * 8) 16) seed).1
    obtain ⟨i, hi⟩ := exists_caseAt hspec (d.mem_kept (List.mem_of_mem_take hc)).1
    rw [← roundTo_hardRange.1, ← roundTo_hardRange.2]
    exact ⟨hi.lower, hi.upper⟩

/-- If no requested category is known, no round finds anything. -/
theorem raises_of_unknown {wanted : List String} (hnonempty : wanted ≠ [])
    (hunknown : ∀ c ∈ wanted, c ∉ d.categories) {n : ℤ} (hn : 1 ≤ n) (seed : ℤ) :
    ∃ e, failureDrivenChallenges d.toDomain wanted n seed = .error e := by
  have hkept : ∀ seed, d.kept wanted n seed = [] := by
    intro seed
    rw [List.eq_nil_iff_forall_not_mem]
    intro c hc
    obtain ⟨hmem, hwanted⟩ := d.mem_kept hc
    exact hunknown _ hwanted (d.category_mem hmem)
  have hcollect : ∀ rounds round,
      collectFailing d.toDomain wanted n seed rounds round [] = none := by
    intro rounds
    induction rounds with
    | zero => exact fun _ => rfl
    | succ rounds ih =>
        intro round
        have hnone : ¬n ≤ (([] : List Challenge).length : ℤ) := by
          rw [List.length_nil]
          omega
        rw [d.collectFailing_succ, hkept, List.append_nil, if_neg hnone, ih]
  have hpos : ¬n < 1 := not_lt.mpr hn
  rw [failureDrivenChallenges, if_neg hpos, if_neg hnonempty, hcollect]
  exact ⟨_, rfl⟩

/-- The categories a domain generates are the ones it lists. -/
theorem generates_iff (category : String) :
    d.toDomain.Generates category ↔ category ∈ d.categories := by
  constructor
  · rintro ⟨n, range, seed, c, hc, rfl⟩
    exact d.category_mem hc
  · intro hknown
    have hlength := d.le_length_kept (List.mem_singleton_self category) hknown 1 0
    obtain ⟨c, hc⟩ := List.exists_mem_of_length_pos (by omega : 0 < (d.kept [category] 1 0).length)
    obtain ⟨hmem, hcategory⟩ := d.mem_kept hc
    exact ⟨_, _, _, c, hmem, List.mem_singleton.mp hcategory⟩

/-- **Unknown categories.** Challenges for failing categories come as promised, with an error
    exactly for an unknown category, if and only if the requested categories are all known
    or all unknown. -/
theorem failsLoudly_iff {wanted : List String} (hnonempty : wanted ≠ []) {n : ℤ} (hn : 1 ≤ n)
    (seed : ℤ) : FailsLoudly d.toDomain wanted n seed ↔
      (∀ c ∈ wanted, d.toDomain.Generates c) ∨ ∀ c ∈ wanted, ¬d.toDomain.Generates c := by
  constructor
  · intro h
    by_contra hmixed
    obtain ⟨⟨unknown, hunknown, hmissing⟩, known, hknown, hgenerated⟩ :
        (∃ c ∈ wanted, ¬d.toDomain.Generates c) ∧ ∃ c ∈ wanted, d.toDomain.Generates c := by
      simpa using not_or.mp hmixed
    obtain ⟨e, he⟩ := h.raises.mpr ⟨unknown, hunknown, hmissing⟩
    rw [d.found_of_known hknown ((d.generates_iff known).mp hgenerated) hn seed] at he
    cases he
  · rintro (hall | hnone)
    · obtain ⟨known, hknown⟩ := List.exists_mem_of_ne_nil wanted hnonempty
      have hmem := (d.generates_iff known).mp (hall known hknown)
      have hfound := d.found_of_known hknown hmem hn seed
      constructor
      · rw [hfound]
        constructor
        · rintro ⟨e, he⟩
          cases he
        · rintro ⟨c, hc, hmissing⟩
          exact absurd (hall c hc) hmissing
      · intro found h
        rw [hfound] at h
        cases h
        exact d.targeted_kept hn (d.le_length_kept hknown hmem n seed)
    · have hunknown : ∀ c ∈ wanted, c ∉ d.categories := fun c hc hmem =>
        hnone c hc ((d.generates_iff c).mpr hmem)
      obtain ⟨e, he⟩ := d.raises_of_unknown hnonempty hunknown hn seed
      obtain ⟨c, hc⟩ := List.exists_mem_of_ne_nil wanted hnonempty
      constructor
      · exact ⟨fun _ => ⟨c, hc, hnone c hc⟩, fun _ => ⟨e, he⟩⟩
      · intro found h
        rw [he] at h
        cases h

end RoundRobinDomain

/-- ForgeSupport, with the same draw every time. -/
def supportExample : RoundRobinDomain Unit :=
  ForgeSupport.domain (constantRng (1/2) 0) (constantRng_lawful (by norm_num) (by norm_num) 0)
    fun _ _ _ => ()

theorem refundRequest_known : "refund_request" ∈ supportExample.categories := by decide

theorem failsLoudly_refundRequest :
    FailsLoudly supportExample.toDomain ["refund_request"] 5 3 := by
  refine (supportExample.failsLoudly_iff (List.cons_ne_nil _ _) (by omega) 3).mpr (Or.inl ?_)
  intro c hc
  rw [List.mem_singleton.mp hc]
  exact (supportExample.generates_iff _).mpr refundRequest_known

/-- Beside a known category, one that ForgeSupport does not have goes unnoticed. -/
theorem unknownCategory_passes :
    ¬FailsLoudly supportExample.toDomain ["refund_request", "no_such_category"] 3 1 := by
  intro h
  have hunknown : ¬supportExample.toDomain.Generates "no_such_category" := by
    rw [supportExample.generates_iff]
    decide
  obtain ⟨e, he⟩ := h.raises.mpr ⟨"no_such_category", by simp, hunknown⟩
  rw [supportExample.found_of_known List.mem_cons_self refundRequest_known (by omega) 1] at he
  cases he

end NeuroForge
