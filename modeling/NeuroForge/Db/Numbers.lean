/-
  Candidate version numbers: what an experiment reserves and what the next one gets.

  `nextCandidateVersion` is the least number above every genome and every reservation of an
  application (`nextCandidateVersion_le_iff`), so an experiment that starts there is apart
  from all that are already stored.
-/
import Mathlib.Order.Interval.Finset.Nat
import NeuroForge.Db.Repository

namespace NeuroForge

def ExperimentRecord.firstVersion (r : ExperimentRecord) : ℕ :=
  r.config.firstCandidateVersion.getD 2

/-- The first number after those an experiment has reserved. -/
def ExperimentRecord.endVersion (r : ExperimentRecord) : ℕ :=
  r.firstVersion + r.config.budget.maxCandidates

/-- The numbers an experiment has reserved for its candidates. -/
def ExperimentRecord.reserved (r : ExperimentRecord) : Finset ℕ :=
  Finset.Ico r.firstVersion r.endVersion

theorem ExperimentRecord.first_mem_reserved (r : ExperimentRecord) :
    r.firstVersion ∈ r.reserved := by
  have hpos := r.config.budget.candidates_pos
  unfold reserved endVersion
  rw [Finset.mem_Ico]
  omega

/-- No number is reserved by two experiments of one application. -/
def DisjointNumbers (db : Database) : Prop :=
  db.experiments.Pairwise fun r r' =>
    r.applicationId = r'.applicationId → Disjoint r.reserved r'.reserved

theorem disjoint_of_end_le {r r' : ExperimentRecord} (h : r.endVersion ≤ r'.firstVersion) :
    Disjoint r.reserved r'.reserved := by
  rw [Finset.disjoint_left]
  intro n hn hn'
  unfold ExperimentRecord.reserved at hn hn'
  rw [Finset.mem_Ico] at hn hn'
  omega

theorem not_disjoint_of_first_eq {r r' : ExperimentRecord} (h : r.firstVersion = r'.firstVersion) :
    ¬ Disjoint r.reserved r'.reserved := by
  intro hdisjoint
  have hmem := r'.first_mem_reserved
  rw [← h] at hmem
  exact Finset.disjoint_left.mp hdisjoint r.first_mem_reserved hmem

theorem foldl_max_le_iff {α : Type} (f : α → ℕ) (xs : List α) (start n : ℕ) :
    xs.foldl (fun m x => max m (f x)) start ≤ n ↔ start ≤ n ∧ ∀ x ∈ xs, f x ≤ n := by
  induction xs generalizing start with
  | nil => simp
  | cons x xs ih =>
      rw [List.foldl_cons, ih, max_le_iff, List.forall_mem_cons, and_assoc]

namespace Database

variable {db : Database}

theorem nextCandidateVersion_le_iff {applicationId : String} {n : ℕ} :
    db.nextCandidateVersion applicationId ≤ n ↔ 2 ≤ n ∧
      (∀ g ∈ db.genomes, g.systemId = applicationId → g.version + 1 ≤ n) ∧
      ∀ r ∈ db.experiments, r.applicationId = applicationId → r.endVersion ≤ n := by
  have hgenomes : (∀ g ∈ db.listGenomesForSystem applicationId, g.version + 1 ≤ n) ↔
      ∀ g ∈ db.genomes, g.systemId = applicationId → g.version + 1 ≤ n := by
    unfold listGenomesForSystem
    simp only [List.mem_insertionSort, List.mem_filter, decide_eq_true_eq, and_imp]
  have hexperiments : (∀ r ∈ db.experiments.filter (·.applicationId = applicationId),
      r.config.firstCandidateVersion.getD 2 + r.config.budget.maxCandidates ≤ n) ↔
      ∀ r ∈ db.experiments, r.applicationId = applicationId → r.endVersion ≤ n := by
    simp only [List.mem_filter, decide_eq_true_eq, and_imp]
    rfl
  unfold nextCandidateVersion
  rw [foldl_max_le_iff, foldl_max_le_iff, hgenomes, hexperiments, and_assoc]

theorem two_le_nextCandidateVersion (applicationId : String) :
    2 ≤ db.nextCandidateVersion applicationId :=
  (nextCandidateVersion_le_iff.mp le_rfl).1

theorem end_le_nextCandidateVersion {r : ExperimentRecord} (hr : r ∈ db.experiments) :
    r.endVersion ≤ db.nextCandidateVersion r.applicationId :=
  (nextCandidateVersion_le_iff.mp le_rfl).2.2 r hr rfl

/-- No other experiment of the application begins with one of the `n` numbers from `first` on. -/
theorem candidateVersionClash_eq_none {experimentId applicationId : String} {first n : ℕ}
    (h : db.candidateVersionClash experimentId applicationId first n = none)
    {r : ExperimentRecord} (hr : r ∈ db.experiments) (happ : r.applicationId = applicationId)
    (hid : r.experimentId ≠ experimentId) {otherFirst : ℕ}
    (hother : r.config.firstCandidateVersion = some otherFirst) (hne : otherFirst ≠ 0) :
    ¬ (first ≤ otherFirst ∧ otherFirst < first + n) := by
  unfold candidateVersionClash at h
  have hmem : r ∈ db.experiments.filter fun r =>
      r.applicationId = applicationId ∧ r.experimentId ≠ experimentId := by
    rw [List.mem_filter, decide_eq_true_eq]
    exact ⟨hr, happ, hid⟩
  have hnone := List.find?_eq_none.mp (Option.map_eq_none_iff.mp h) r hmem
  rw [hother] at hnone
  simpa only [decide_eq_true_eq, hne, ne_eq, not_false_eq_true, true_and] using hnone

/-- Genomes numbered 1 and experiments of other applications do not count. -/
theorem nextCandidateVersion_append {db' : Database} {genomes : List GenomeRecord}
    {experiments : List ExperimentRecord} {applicationId : String}
    (hgenomes : db'.genomes = db.genomes ++ genomes) (hv1 : ∀ g ∈ genomes, g.version = 1)
    (hexperiments : db'.experiments = db.experiments ++ experiments)
    (hother : ∀ r ∈ experiments, r.applicationId ≠ applicationId) :
    db'.nextCandidateVersion applicationId = db.nextCandidateVersion applicationId := by
  refine eq_of_forall_ge_iff fun n => ?_
  rw [nextCandidateVersion_le_iff, nextCandidateVersion_le_iff, hgenomes, hexperiments]
  constructor
  · rintro ⟨htwo, hg, hr⟩
    exact ⟨htwo, fun g hmem => hg g (List.mem_append_left _ hmem),
      fun r hmem => hr r (List.mem_append_left _ hmem)⟩
  · rintro ⟨htwo, hg, hr⟩
    refine ⟨htwo, fun g hmem hsys => ?_, fun r hmem happ => ?_⟩
    · rcases List.mem_append.mp hmem with hmem | hmem
      · exact hg g hmem hsys
      · have hversion := hv1 g hmem
        omega
    · rcases List.mem_append.mp hmem with hmem | hmem
      · exact hr r hmem happ
      · exact absurd happ (hother r hmem)

/-- An experiment that begins above all others of its application is apart from them. -/
theorem disjointNumbers_append {r : ExperimentRecord} (h : DisjointNumbers db)
    (hr : ∀ e ∈ db.experiments, e.applicationId = r.applicationId →
      e.endVersion ≤ r.firstVersion) :
    DisjointNumbers { db with experiments := db.experiments ++ [r] } := by
  refine List.pairwise_append.mpr ⟨h, List.pairwise_singleton _ _, fun e he r' hr' happ => ?_⟩
  rw [List.mem_singleton.mp hr'] at happ ⊢
  exact disjoint_of_end_le (hr e he happ)

end Database

end NeuroForge
