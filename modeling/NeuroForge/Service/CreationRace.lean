/-
  Experiments that are created at the same time.

  A creation reads the genomes and experiments of its application to choose the first number
  of its candidates and commits its rows later; the keys of the tables are the only
  constraints that can refuse them. Two creations of one application that read before either
  committed get the same first number. `disjoint_numbers_iff`: reservations are disjoint in
  every state of a run exactly when nobody commits an experiment of the application between
  a creation's read and its commit.
-/
import NeuroForge.Db.Numbers
import NeuroForge.Service.DatasetRace
import NeuroForge.Service.Effects

namespace NeuroForge

open Database Snapshot

/-! ## The rows of a creation -/

/-- `db'` has the rows of `db`, with new ones behind them in the tables a creation writes. -/
structure Extends (db db' : Database) : Prop where
  applications : db.applications <+: db'.applications
  genomes : db.genomes <+: db'.genomes
  datasets : db.datasets <+: db'.datasets
  experiments : db.experiments <+: db'.experiments
  decisions : db'.decisions = db.decisions
  holdouts : db'.holdouts = db.holdouts
  approvals : db'.approvals = db.approvals
  canaries : db'.canaries = db.canaries

/-- The rows that a session has added. -/
def rowsAdded (db db' : Database) : Database where
  applications := db'.applications.drop db.applications.length
  genomes := db'.genomes.drop db.genomes.length
  datasets := db'.datasets.drop db.datasets.length
  experiments := db'.experiments.drop db.experiments.length

def addRows (db rows : Database) : Database :=
  { db with
    applications := db.applications ++ rows.applications
    genomes := db.genomes ++ rows.genomes
    datasets := db.datasets ++ rows.datasets
    experiments := db.experiments ++ rows.experiments }

theorem extends_rfl {db : Database} : Extends db db :=
  ⟨List.prefix_rfl, List.prefix_rfl, List.prefix_rfl, List.prefix_rfl, rfl, rfl, rfl, rfl⟩

theorem Extends.trans {db₁ db₂ db₃ : Database} (h₁ : Extends db₁ db₂) (h₂ : Extends db₂ db₃) :
    Extends db₁ db₃ where
  applications := h₁.applications.trans h₂.applications
  genomes := h₁.genomes.trans h₂.genomes
  datasets := h₁.datasets.trans h₂.datasets
  experiments := h₁.experiments.trans h₂.experiments
  decisions := h₂.decisions.trans h₁.decisions
  holdouts := h₂.holdouts.trans h₁.holdouts
  approvals := h₂.approvals.trans h₁.approvals
  canaries := h₂.canaries.trans h₁.canaries

/-- The rows of a session, added to what it had read, are what it leaves. -/
theorem Extends.addRows_rowsAdded {db db' : Database} (h : Extends db db') :
    addRows db (rowsAdded db db') = db' := by
  obtain ⟨happlications, hgenomes, hdatasets, hexperiments, h₁, h₂, h₃, h₄⟩ := h
  unfold addRows rowsAdded
  rw [List.prefix_iff_eq_append.mp happlications, List.prefix_iff_eq_append.mp hgenomes,
    List.prefix_iff_eq_append.mp hdatasets, List.prefix_iff_eq_append.mp hexperiments,
    ← h₁, ← h₂, ← h₃, ← h₄]

section Writes

variable {p : Platform} {db : Database}

theorem extends_upsertApplication (id name domainName : String) :
    Extends db (db.upsertApplication id name domainName) := by
  unfold upsertApplication
  split
  · exact extends_rfl
  · exact { extends_rfl with applications := List.prefix_append _ _ }

theorem extends_saveGenome (digest : GenomeDigest) (g : SystemGenome) :
    Extends db (db.saveGenome digest g) := by
  unfold saveGenome
  split
  · exact extends_rfl
  · exact { extends_rfl with genomes := List.prefix_append _ _ }

theorem extends_saveDatasetVersion (d : DatasetVersion) : Extends db (db.saveDatasetVersion d) := by
  unfold saveDatasetVersion
  split
  · exact extends_rfl
  · exact { extends_rfl with datasets := List.prefix_append _ _ }

theorem extends_withApplication (body : ExperimentCreateRequest) :
    Extends db (withApplication p db body) := by
  have happ : Extends db (db.upsertApplication body.systemId.1 body.systemId.1 body.domain) :=
    extends_upsertApplication _ _ _
  refine happ.trans ?_
  unfold withApplication withOriginal
  split
  · exact extends_rfl
  · exact extends_saveGenome _ _

theorem extends_withDataset {body : ExperimentCreateRequest} {datasetId : String}
    {db' : Database} (h : withDataset p db body datasetId = .ok db') : Extends db db' := by
  unfold withDataset at h
  split at h
  · rw [← Except.ok.inj h]
    exact extends_saveDatasetVersion _
  · split at h
    · split_ifs at h
      rw [← Except.ok.inj h]
      exact extends_rfl
    · rw [← Except.ok.inj h]
      exact extends_rfl

/-- The genomes that a creation adds are numbered 1. -/
theorem genomes_withApplication (p : Platform) (db : Database)
    (body : ExperimentCreateRequest) : ∃ genomes,
    (withApplication p db body).genomes = db.genomes ++ genomes ∧ ∀ g ∈ genomes, g.version = 1 := by
  have hnone : ∀ g ∈ ([] : List GenomeRecord), g.version = 1 := by simp
  unfold withApplication withOriginal
  split
  · exact ⟨[], by simp, hnone⟩
  · unfold saveGenome
    split
    · exact ⟨[], by simp, hnone⟩
    · refine ⟨_, congrArg (· ++ _) (genomes_upsertApplication ..), fun g hg => ?_⟩
      rw [List.mem_singleton.mp hg]
      rfl

/-- What a creation adds: an experiment that starts at the next free number. -/
structure CreatedRow (db : Database) (r : ExperimentRecord) : Prop where
  fresh : db.getExperiment r.experimentId = none
  first : r.config.firstCandidateVersion = some (db.nextCandidateVersion r.applicationId)

theorem createExperiment_adds {body : ExperimentCreateRequest} {db' : Database}
    (h : createExperiment p db body = .ok db') : Extends db db' ∧
      (∃ r, db'.experiments = db.experiments ++ [r] ∧ CreatedRow db r) ∧
      ∃ genomes, db'.genomes = db.genomes ++ genomes ∧ ∀ g ∈ genomes, g.version = 1 := by
  obtain ⟨baseline, seeded, searchSpace, objectives, hnew, -, hseeded, rfl⟩ :=
    createExperiment_steps h
  obtain ⟨hgenomes, -, hexperiments⟩ := withDataset_ok hseeded
  rw [experiments_withApplication] at hexperiments
  obtain ⟨genomes, hadded, hv1⟩ := genomes_withApplication p db body
  rw [hadded] at hgenomes
  have hnext : seeded.nextCandidateVersion body.systemId.1 =
      db.nextCandidateVersion body.systemId.1 :=
    nextCandidateVersion_append hgenomes hv1 (hexperiments.trans (List.append_nil _).symm)
      fun r hr => absurd hr List.not_mem_nil
  have hnone : seeded.getExperiment body.experimentId.1 = none := by
    rw [getExperiment, hexperiments]
    exact hnew
  have hextends := (extends_withApplication body).trans (extends_withDataset hseeded)
  unfold saveExperiment
  rw [show (createdConfig seeded body body.usedDataset baseline searchSpace objectives).experimentId
    = body.experimentId.1 from rfl, hnone]
  refine ⟨hextends.trans { extends_rfl with experiments := List.prefix_append _ _ },
    ⟨_, by rw [hexperiments], hnew, ?_⟩, genomes, hgenomes, hv1⟩
  exact congrArg some hnext

/-- The rows of a creation, committed with nothing in between, are the creation. -/
theorem addRows_createExperiment {body : ExperimentCreateRequest} {db' : Database}
    (h : createExperiment p db body = .ok db') : addRows db (rowsAdded db db') = db' :=
  (createExperiment_adds h).1.addRows_rowsAdded

end Writes

/-! ## Creations that overlap -/

/-- The rows a creation is about to insert. -/
def prepareCreation (p : Platform) (db : Database) (body : ExperimentCreateRequest) :
    Option Database :=
  (createExperiment p db body).toOption.map (rowsAdded db)

/-- No row has a key that is already there: the primary keys of applications, genomes and
    experiments, and the unique hash of datasets. -/
def KeysFree (digest : DatasetDigest) (db rows : Database) : Prop :=
  (∀ r ∈ rows.applications, r.id ∉ db.applications.map (·.id)) ∧
  (∀ r ∈ rows.genomes, r.hash ∉ db.genomes.map (·.hash)) ∧
  (∀ r ∈ rows.datasets, r.hash digest ∉ db.datasets.map (·.hash digest)) ∧
  ∀ r ∈ rows.experiments, r.experimentId ∉ db.experiments.map (·.experimentId)

instance (digest : DatasetDigest) (db rows : Database) : Decidable (KeysFree digest db rows) := by
  unfold KeysFree
  infer_instance

def insertCreation (digest : DatasetDigest) (db rows : Database) : Option Database :=
  if KeysFree digest db rows then some (addRows db rows) else none

abbrev CreationClients (ι : Type) := Snapshot.Clients ι Database Database

def creationStep {ι : Type} [DecidableEq ι] (p : Platform) (digest : DatasetDigest) :
    CreationClients ι → ι × Snapshot.Action ExperimentCreateRequest → Option (CreationClients ι) :=
  Interleaving.step (Snapshot.next (prepareCreation p) (insertCreation digest))

/-- The experiments committed since a creation read. -/
def createdSince (db : Database) (p : Pending Database Database) : List ExperimentRecord :=
  db.experiments.drop p.seen.experiments.length

/-- Nobody has committed an experiment of its application since a creation read. -/
def AloneSinceRead (db : Database) (p : Pending Database Database) : Prop :=
  ∀ r ∈ p.write.experiments, ∀ e ∈ createdSince db p, e.applicationId ≠ r.applicationId

/-- The first number of a prepared experiment is still the next one, or it has been given
    away since. -/
structure Numbered (db : Database) (p : Pending Database Database) (r : ExperimentRecord) :
    Prop where
  row : p.write.experiments = [r]
  first : (∀ e ∈ createdSince db p, e.applicationId ≠ r.applicationId) ∧
      r.firstVersion = db.nextCandidateVersion r.applicationId ∨
    ∃ e ∈ createdSince db p, e.applicationId = r.applicationId ∧ e.firstVersion = r.firstVersion

structure Allocated (db : Database) (p : Pending Database Database) : Prop where
  older : p.seen.experiments <+: db.experiments
  original : ∀ g ∈ p.write.genomes, g.version = 1
  numbered : ∃ r, Numbered db p r

section Race

variable {platform : Platform} {digest : DatasetDigest}

theorem prepareCreation_eq_some {db rows : Database} {body : ExperimentCreateRequest}
    (h : prepareCreation platform db body = some rows) :
    (∀ g ∈ rows.genomes, g.version = 1) ∧
      ∃ r, rows.experiments = [r] ∧ r.firstVersion = db.nextCandidateVersion r.applicationId := by
  obtain ⟨db', hdb', rfl⟩ := Option.map_eq_some_iff.mp h
  obtain ⟨-, ⟨r, hr, hcreated⟩, genomes, hgenomes, hv1⟩ :=
    createExperiment_adds (Fallible.toOption_eq_some.mp hdb')
  have hfirst : r.firstVersion = db.nextCandidateVersion r.applicationId := by
    unfold ExperimentRecord.firstVersion
    rw [hcreated.first, Option.getD_some]
  unfold rowsAdded
  rw [hr, hgenomes, List.drop_left, List.drop_left]
  exact ⟨hv1, r, rfl, hfirst⟩

theorem allocated_read {db rows : Database} {body : ExperimentCreateRequest}
    (h : prepareCreation platform db body = some rows) : Allocated db ⟨db, rows⟩ := by
  obtain ⟨hv1, r, hr, hfirst⟩ := prepareCreation_eq_some h
  refine ⟨List.prefix_rfl, hv1, r, hr, .inl ⟨fun e he => ?_, hfirst⟩⟩
  unfold createdSince at he
  rw [List.drop_length] at he
  exact absurd he List.not_mem_nil

theorem insertCreation_eq_some {db rows db' : Database}
    (h : insertCreation digest db rows = some db') : db' = addRows db rows := by
  unfold insertCreation at h
  split_ifs at h
  exact (Option.some.inj h).symm

/-- What a creation that read earlier finds new after a commit. -/
theorem createdSince_addRows {db rows : Database} {q : Pending Database Database}
    (hq : q.seen.experiments <+: db.experiments) :
    createdSince (addRows db rows) q = createdSince db q ++ rows.experiments := by
  unfold createdSince addRows
  exact List.drop_append_of_le_length hq.length_le

theorem Allocated.addRows {db rows : Database} {r : ExperimentRecord}
    {q : Pending Database Database} (hq : Allocated db q) (hr : rows.experiments = [r])
    (hv1 : ∀ g ∈ rows.genomes, g.version = 1)
    (hfirst : r.firstVersion = db.nextCandidateVersion r.applicationId) :
    Allocated (addRows db rows) q := by
  obtain ⟨own, hrow, hown⟩ := hq.numbered
  refine ⟨hq.older.trans (List.prefix_append _ _), hq.original, own, hrow, ?_⟩
  rw [createdSince_addRows hq.older, hr]
  rcases hown with ⟨halone, hnext⟩ | ⟨e, he, hsame⟩
  · by_cases happ : r.applicationId = own.applicationId
    · -- the number is given away
      refine .inr ⟨r, List.mem_append_right _ (List.mem_singleton_self r), happ, ?_⟩
      rw [hfirst, hnext, happ]
    · refine .inl ⟨fun e he => ?_, ?_⟩
      · rcases List.mem_append.mp he with he | he
        · exact halone e he
        · rw [List.mem_singleton.mp he]
          exact happ
      · have hgenomes : (NeuroForge.addRows db rows).genomes = db.genomes ++ rows.genomes := rfl
        have hexperiments : (NeuroForge.addRows db rows).experiments =
            db.experiments ++ rows.experiments := rfl
        rw [hnext]
        refine (nextCandidateVersion_append hgenomes hv1 hexperiments fun e he => ?_).symm
        rw [hr] at he
        rw [List.mem_singleton.mp he]
        exact happ
  · exact .inr ⟨e, List.mem_append_left _ he, hsame⟩

theorem disjointNumbers_insert {db db' : Database} {p : Pending Database Database}
    (hdb : DisjointNumbers db) (hp : Allocated db p)
    (hinsert : insertCreation digest db p.write = some db') (halone : AloneSinceRead db p) :
    DisjointNumbers db' ∧ ∀ q, Allocated db q → Allocated db' q := by
  obtain ⟨r, hr, hfirst⟩ := hp.numbered
  have hnext : r.firstVersion = db.nextCandidateVersion r.applicationId := by
    rcases hfirst with ⟨-, hnext⟩ | ⟨e, he, happ, -⟩
    · exact hnext
    · have hne := halone r (by rw [hr]; exact List.mem_singleton_self r) e he
      exact absurd happ hne
  rw [insertCreation_eq_some hinsert]
  refine ⟨?_, fun q hq => hq.addRows hr hp.original hnext⟩
  have happend := disjointNumbers_append (r := r) hdb fun e he happ => by
    rw [hnext, ← happ]
    exact end_le_nextCandidateVersion he
  unfold DisjointNumbers addRows
  rw [hr]
  exact happend

theorem alone_of_disjointNumbers {db db' : Database} {p : Pending Database Database}
    (hp : Allocated db p) (hinsert : insertCreation digest db p.write = some db')
    (hdb' : DisjointNumbers db') : AloneSinceRead db p := by
  obtain ⟨r, hr, hfirst⟩ := hp.numbered
  rcases hfirst with ⟨halone, -⟩ | ⟨e, he, happ, hsame⟩
  · intro r' hr'
    rw [hr] at hr'
    rw [List.mem_singleton.mp hr']
    exact halone
  · rw [insertCreation_eq_some hinsert] at hdb'
    have hmem : e ∈ db.experiments := List.mem_of_mem_drop he
    have hpair := (List.pairwise_append.mp hdb').2.2 e hmem r
      (by rw [hr]; exact List.mem_singleton_self r) happ
    exact absurd hpair (not_disjoint_of_first_eq hsame)

section Example

/-- `exp-1` is created; then `exp-2` and `exp-3` read before either commits. -/
def racingCreations : List (ℕ × Snapshot.Action ExperimentCreateRequest) :=
  [(0, .read (exampleBody exp1 "champion" 1 usualFloor)), (0, .commit),
    (0, .read (exampleBody exp2 "champion" 2 usualFloor)),
    (1, .read (exampleBody exp3 "champion" 3 usualFloor)), (1, .commit), (0, .commit)]

def exampleCreationStep :
    CreationClients ℕ → ℕ × Snapshot.Action ExperimentCreateRequest → Option (CreationClients ℕ) :=
  creationStep examplePlatform exampleDatasetDigest

/-- `exp-2` and `exp-3` have both reserved the numbers from 202 on. -/
theorem racingCreations_overlap : ∃ s, Transition.run exampleCreationStep (start {})
    racingCreations = some s ∧ ¬ DisjointNumbers s.shared := by
  have hrows : (Transition.run exampleCreationStep (start {}) racingCreations).map
      (fun s => s.shared.experiments.map fun r =>
        (r.experimentId, r.applicationId, r.firstVersion, r.endVersion)) =
      some [("exp-1", "app", 2, 202), ("exp-3", "app", 202, 402), ("exp-2", "app", 202, 402)] := by
    decide +kernel
  obtain ⟨s, hs, hrows⟩ := Option.map_eq_some_iff.mp hrows
  refine ⟨s, hs, fun hdisjoint => ?_⟩
  obtain ⟨r₁, rest, hexperiments, -, hrest⟩ := List.map_eq_cons_iff.mp hrows
  obtain ⟨r₂, rest, rfl, h₂, hrest⟩ := List.map_eq_cons_iff.mp hrest
  obtain ⟨r₃, rest, rfl, h₃, -⟩ := List.map_eq_cons_iff.mp hrest
  simp only [Prod.mk.injEq] at h₂ h₃
  unfold DisjointNumbers at hdisjoint
  rw [hexperiments] at hdisjoint
  have hpair := (List.pairwise_cons.mp (List.pairwise_cons.mp hdisjoint).2).1 r₃
    List.mem_cons_self (h₂.2.1.trans h₃.2.1.symm)
  exact not_disjoint_of_first_eq (h₂.2.2.1.trans h₃.2.2.1.symm) hpair

end Example

/-- **Numbers of concurrent creations.** However creations interleave, no candidate number is
    reserved twice in an application in every state exactly when nobody commits an
    experiment of the application between a creation's read and its commit. -/
theorem disjoint_numbers_iff {ι : Type} [DecidableEq ι] {db : Database}
    (hdb : DisjointNumbers db) {as : List (ι × Snapshot.Action ExperimentCreateRequest)}
    {s : CreationClients ι}
    (hrun : Transition.run (creationStep platform digest) (start db) as = some s) :
    (∀ pre, pre <+: as → ∀ t,
      Transition.run (creationStep platform digest) (start db) pre = some t →
        DisjointNumbers t.shared) ↔
    Transition.Guarded (creationStep platform digest)
      (CommitsFresh (insertCreation digest) AloneSinceRead) (start db) as :=
  always_good_iff Allocated (fun _ _ _ _ h => allocated_read h)
    (fun _ _ _ hdb hp hinsert halone => disjointNumbers_insert hdb hp hinsert halone)
    (fun _ _ _ _ hp hinsert hdb' => alone_of_disjointNumbers hp hinsert hdb') hdb hrun

end Race

theorem disjoint_numbers_racing : ¬ Transition.Guarded exampleCreationStep
    (CommitsFresh (insertCreation exampleDatasetDigest) AloneSinceRead) (start {})
    racingCreations := by
  obtain ⟨s, hs, hoverlap⟩ := racingCreations_overlap
  intro hguarded
  have hempty : DisjointNumbers {} := List.Pairwise.nil
  have hdisjoint := (disjoint_numbers_iff hempty hs).mpr hguarded
  exact hoverlap (hdisjoint racingCreations List.prefix_rfl s hs)

/-- Two experiments of one application with the same numbers. -/
theorem numbers_reserved_twice : ∃ s, Transition.run exampleCreationStep (start {})
    racingCreations = some s ∧ ¬ DisjointNumbers s.shared :=
  racingCreations_overlap

end NeuroForge
