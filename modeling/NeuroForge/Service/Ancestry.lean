/-
  The stored genomes of an application are a tree.

  A genome is stored under the hash of its content, and the first save is the one that
  counts: a configuration that is found again keeps the version, the parent and the
  generation it was first stored with. So an edge of the tree is only ever written with a
  new row. That row is a candidate on record, numbered from its experiment's first number
  on, with the experiment's baseline as its parent; and an experiment begins above every
  number there is, its baseline's too (`Rooted.based`). Versions and generations therefore
  grow along every edge (`HasParent`).
-/
import NeuroForge.Service.Numbering

namespace NeuroForge

open Fallible Database Transition

variable {ρ : Type} {p : Platform} {db : Database} {w w' : World}

/-! ## Candidates -/

namespace ExperimentEngine

variable {e : ExperimentEngine ρ}

/-- A candidate of the engine: a child of its baseline, of a later generation. -/
structure Bred (e : ExperimentEngine ρ) (g : SystemGenome) : Prop where
  parent : g.parentHash = some (e.baselineGenome.hash e.genomeDigest)
  generation : e.baselineGenome.generation < g.generation

theorem deriveCandidate_bred {point : Point} {version index : ℕ} {g : SystemGenome}
    (h : e.deriveCandidate point version index = .ok g) : Bred e g := by
  obtain ⟨records, -, h⟩ := bind_eq_ok.mp h
  unfold raiseField at h
  split at h
  · rename_i child hchild
    rw [← Except.ok.inj h]
    obtain ⟨-, -, hparent, hgeneration, -⟩ := SystemGenome.derive_ok hchild
    refine ⟨hparent, ?_⟩
    rw [hgeneration]
    omega
  · cases h

theorem deriveBatch_bred {index : ℕ} {points : List Point} {version : ℕ}
    {genomes : List SystemGenome} (h : e.deriveBatch index points version = .ok genomes) :
    ∀ g ∈ genomes, Bred e g := by
  induction points generalizing version genomes with
  | nil =>
      cases h
      simp
  | cons point points ih =>
      obtain ⟨genome, hgenome, h⟩ := bind_eq_ok.mp h
      obtain ⟨rest, hrest, h⟩ := bind_eq_ok.mp h
      cases h
      intro g hg
      rcases List.mem_cons.mp hg with rfl | hg
      · exact deriveCandidate_bred hgenome
      · exact ih hrest g hg

/-- Only candidates are added to the record. -/
theorem savedCandidates_bred (s : State ρ) (a : Action) :
    ∀ g ∈ e.savedCandidates s a, Bred e g := by
  intro g hg
  unfold savedCandidates at hg
  split at hg
  · split at hg
    · split at hg
      · split at hg
        · rename_i p _ _ _ _ _ batch _
          cases hbatch : e.deriveBatch p.generationIndex batch.points p.nextVersion with
          | error message =>
              rw [hbatch] at hg
              cases hg
          | ok genomes =>
              rw [hbatch] at hg
              exact deriveBatch_bred hbatch g hg
        · cases hg
      · cases hg
    · cases hg
  · cases hg

theorem acts_bred {s : State ρ} {recorded : List SystemGenome} {actions : List Action}
    {l : Life ρ} (hrun : run Life.next ⟨e, s, recorded⟩ (actions.map .act) = some l) :
    ∀ g ∈ l.recorded, g ∈ recorded ∨ Bred e g := by
  induction actions generalizing s recorded with
  | nil =>
      obtain rfl := Option.some.inj hrun
      exact fun g hg => .inl hg
  | cons a actions ih =>
      rw [List.map_cons, run_cons] at hrun
      obtain ⟨l', hnext, hrun⟩ := Option.bind_eq_some_iff.mp hrun
      obtain ⟨s', -, rfl⟩ := Option.map_eq_some_iff.mp hnext
      intro g hg
      rcases ih hrun g hg with hmem | hbred
      · rcases List.mem_append.mp hmem with hmem | hmem
        · exact .inl hmem
        · exact .inr (savedCandidates_bred s a g hmem)
      · exact .inr hbred

end ExperimentEngine

/-! ## Rows and their parents -/

/-- One of the rows is the genome's parent: of the same application, with a smaller version
    and a smaller generation. -/
def HasParent (rows : List GenomeRecord) (g : SystemGenome) : Prop :=
  ∃ parent ∈ rows, g.parentHash = some parent.hash ∧ parent.systemId = g.systemId ∧
    parent.version < g.version ∧ parent.data.generation < g.generation

/-- What is stored under a hash stays so. -/
def KeepsRows (rows rows' : List GenomeRecord) : Prop :=
  ∀ r ∈ rows, ∃ r' ∈ rows', r'.hash = r.hash ∧ r'.data = r.data

theorem keepsRows_prefix {rows rows' : List GenomeRecord} (h : rows <+: rows') :
    KeepsRows rows rows' := fun r hr => ⟨r, h.subset hr, rfl, rfl⟩

theorem keepsRows_of_eraseStatus {rows rows' : List GenomeRecord}
    (h : rows'.map GenomeRecord.eraseStatus = rows.map GenomeRecord.eraseStatus) :
    KeepsRows rows rows' := by
  intro r hr
  have hmem := List.mem_map_of_mem (f := GenomeRecord.eraseStatus) hr
  rw [← h] at hmem
  obtain ⟨r', hr', herase⟩ := List.mem_map.mp hmem
  injection herase with hhash _ hdata
  exact ⟨r', hr', hhash, hdata⟩

theorem HasParent.mono {rows rows' : List GenomeRecord} {g : SystemGenome}
    (h : HasParent rows g) (hkeeps : KeepsRows rows rows') : HasParent rows' g := by
  obtain ⟨parent, hmem, hhash, hsystem, hversion, hgeneration⟩ := h
  obtain ⟨parent', hmem', hhash', hdata⟩ := hkeeps parent hmem
  refine ⟨parent', hmem', ?_, ?_, ?_, ?_⟩
  · rw [hhash, hhash']
  · rw [← hsystem, GenomeRecord.systemId, hdata]
    rfl
  · rw [GenomeRecord.version, hdata]
    exact hversion
  · rw [hdata]
    exact hgeneration

/-! ## Worlds whose genomes are a tree -/

structure Rooted (p : Platform) (w : World) : Prop where
  numbered : WellNumbered p w
  rootless : ∀ g ∈ w.db.genomes, g.version = 1 → g.data.parentHash = none
  one : ∀ g ∈ w.db.genomes, ∀ g' ∈ w.db.genomes, g.version = 1 → g'.version = 1 →
    g.systemId = g'.systemId → g.hash = g'.hash
  based : ∀ r ∈ w.db.experiments, ∀ b ∈ w.db.genomes, r.config.baselineHash = some b.hash →
    b.version < r.firstVersion
  recorded : ∀ r ∈ w.db.experiments, ∀ c ∈ w.recorded r.experimentId,
    HasParent w.db.genomes c
  parents : ∀ g ∈ w.db.genomes, g.version = 1 ∨ HasParent w.db.genomes g.data

theorem rooted_empty (p : Platform) : Rooted p {} where
  numbered := wellNumbered_empty p
  rootless := by simp
  one := by simp
  based := by simp
  recorded := by simp
  parents := by simp

/-- What the tree depends on of the rows of experiments. -/
def SameOrigins (rows rows' : List ExperimentRecord) : Prop :=
  ∀ r' ∈ rows', ∃ r ∈ rows, r'.experimentId = r.experimentId ∧
    r'.config.baselineHash = r.config.baselineHash ∧ r'.firstVersion = r.firstVersion

theorem sameOrigins_of_sameProgress {rows rows' : List ExperimentRecord}
    (h : rows'.map ExperimentRecord.eraseProgress = rows.map ExperimentRecord.eraseProgress) :
    SameOrigins rows rows' := by
  intro r' hr'
  obtain ⟨r, hr, hid, -, hconfig⟩ := exists_row h hr'
  refine ⟨r, hr, hid, by rw [hconfig], ?_⟩
  unfold ExperimentRecord.firstVersion
  rw [hconfig]

/-- Rows are changed in place, and what is recorded may grow by candidates with parents; a
    genome that is new is no v1 and has its parent. -/
theorem Rooted.update (h : Rooted p w) (hnumbered : WellNumbered p w')
    (horigins : SameOrigins w.db.experiments w'.db.experiments)
    (hkeeps : KeepsRows w.db.genomes w'.db.genomes)
    (hrecorded : ∀ r ∈ w.db.experiments, ∀ c ∈ w'.recorded r.experimentId,
      HasParent w.db.genomes c)
    (hgenomes : ∀ g ∈ w'.db.genomes,
      (∃ g₀ ∈ w.db.genomes, g₀.hash = g.hash ∧ g₀.data = g.data) ∨
        g.version ≠ 1 ∧ (∀ r ∈ w.db.experiments, r.config.baselineHash ≠ some g.hash) ∧
          HasParent w.db.genomes g.data) : Rooted p w' := by
  have hold : ∀ g ∈ w'.db.genomes, g.version = 1 →
      ∃ g₀ ∈ w.db.genomes, g₀.hash = g.hash ∧ g₀.data = g.data := by
    intro g hg hone
    rcases hgenomes g hg with hold | ⟨hne, -⟩
    · exact hold
    · exact absurd hone hne
  refine ⟨hnumbered, ?_, ?_, ?_, ?_, ?_⟩
  · intro g hg hone
    obtain ⟨g₀, hg₀, -, hdata⟩ := hold g hg hone
    rw [← hdata]
    refine h.rootless g₀ hg₀ ?_
    rw [GenomeRecord.version, hdata]
    exact hone
  · intro g hg g' hg' hone hone' hsystem
    obtain ⟨g₀, hg₀, hhash, hdata⟩ := hold g hg hone
    obtain ⟨g₀', hg₀', hhash', hdata'⟩ := hold g' hg' hone'
    rw [← hhash, ← hhash']
    unfold GenomeRecord.version GenomeRecord.systemId at *
    rw [← hdata] at hone hsystem
    rw [← hdata'] at hone' hsystem
    exact h.one g₀ hg₀ g₀' hg₀' hone hone' hsystem
  · intro r' hr' b hb hbaseline
    obtain ⟨r, hr, -, hhash, hfirst⟩ := horigins r' hr'
    rw [hhash] at hbaseline
    rcases hgenomes b hb with ⟨b₀, hb₀, hhash₀, hdata⟩ | ⟨-, hnone, -⟩
    · rw [hfirst, GenomeRecord.version, ← hdata]
      exact h.based r hr b₀ hb₀ (hbaseline.trans (congrArg some hhash₀.symm))
    · exact absurd hbaseline (hnone r hr)
  · intro r' hr' c hc
    obtain ⟨r, hr, hid, -, -⟩ := horigins r' hr'
    rw [hid] at hc
    exact (hrecorded r hr c hc).mono hkeeps
  · intro g hg
    rcases hgenomes g hg with ⟨g₀, hg₀, -, hdata⟩ | ⟨-, -, hparent⟩
    · rw [GenomeRecord.version, ← hdata]
      exact (h.parents g₀ hg₀).imp_right (·.mono hkeeps)
    · exact .inr (hparent.mono hkeeps)

/-- The baseline of an experiment is stored. -/
theorem WellNumbered.baseline_row (h : WellNumbered p w) {r : ExperimentRecord}
    (hr : r ∈ w.db.experiments) :
    ∃ b ∈ w.db.genomes, r.config.baselineHash = some b.hash ∧ b.systemId = r.applicationId := by
  obtain ⟨-, -, hash, hhash, hsystem, -⟩ :=
    h.sound.wellFormed.experiments _ r (getExperiment_of_mem h.ids hr)
  obtain ⟨b, hb, hsys⟩ := Option.map_eq_some_iff.mp hsystem
  refine ⟨b, List.mem_of_find?_eq_some hb, ?_, hsys⟩
  rw [hhash, hash_of_getGenomeRecord hb]

theorem WellNumbered.row_eq (h : WellNumbered p w) {g g' : GenomeRecord}
    (hg : g ∈ w.db.genomes) (hg' : g' ∈ w.db.genomes) (hhash : g.hash = g'.hash) : g = g' :=
  List.inj_on_of_nodup_map h.sound.wellFormed.nodup hg hg' hhash

theorem WellNumbered.hash_eq (h : WellNumbered p w) {g : GenomeRecord}
    (hg : g ∈ w.db.genomes) : g.hash = g.data.hash p.genomeDigest :=
  (h.sound.wellFormed.hashed _ g
    (getGenomeRecord_of_mem h.sound.wellFormed.nodup hg)).symm

/-! ## Requests -/

theorem Rooted.of_sameRows (h : Rooted p w) {db' : Database} (hsame : SameRows w.db db')
    (hnumbered : WellNumbered p { w with db := db' }) : Rooted p { w with db := db' } := by
  refine h.update hnumbered (sameOrigins_of_sameProgress hsame.experiments)
    (keepsRows_of_eraseStatus hsame.genomes) h.recorded fun g hg => .inl ?_
  have hmem := List.mem_map_of_mem (f := GenomeRecord.eraseStatus) hg
  rw [hsame.genomes] at hmem
  obtain ⟨g₀, hg₀, herase⟩ := List.mem_map.mp hmem
  injection herase with hhash _ hdata
  exact ⟨g₀, hg₀, hhash, hdata⟩

/-- A creation adds no genome, or the v1 of an application that has none. -/
theorem genomes_createExperiment {body : ExperimentCreateRequest} {db' : Database}
    (h : createExperiment p db body = .ok db') : db'.genomes = db.genomes ∨
      originalBaseline db body.systemId.1 = none ∧ ∃ g, db'.genomes = db.genomes ++ [g] ∧
        g.data = { systemId := body.systemId.1, version := 1 } := by
  obtain ⟨baseline, seeded, searchSpace, objectives, -, -, hseeded, rfl⟩ :=
    createExperiment_steps h
  rw [genomes_saveExperiment, (withDataset_ok hseeded).1]
  have happ : (db.upsertApplication body.systemId.1 body.systemId.1 body.domain).genomes =
      db.genomes := genomes_upsertApplication ..
  have horiginal : originalBaseline
      (db.upsertApplication body.systemId.1 body.systemId.1 body.domain) body.systemId.1 =
      originalBaseline db body.systemId.1 := by
    rw [originalBaseline_eq, happ, ← originalBaseline_eq]
  unfold withApplication withOriginal
  rw [horiginal]
  split
  · exact .inl happ
  · rename_i hnone
    unfold saveGenome
    split
    · exact .inl happ
    · exact .inr ⟨hnone, _, congrArg (· ++ _) happ, rfl⟩

theorem mem_genomes_created {body : ExperimentCreateRequest} {db' : Database} {g : GenomeRecord}
    (h : createExperiment p db body = .ok db') (hg : g ∈ db'.genomes) :
    g ∈ db.genomes ∨ g.data = { systemId := body.systemId.1, version := 1 } ∧
      originalBaseline db body.systemId.1 = none := by
  rcases genomes_createExperiment h with hsame | ⟨hnone, v1, happ, hdata⟩
  · rw [hsame] at hg
    exact .inl hg
  · rw [happ] at hg
    rcases List.mem_append.mp hg with hg | hg
    · exact .inl hg
    · rw [List.mem_singleton.mp hg]
      exact .inr ⟨hdata, hnone⟩

theorem version_ne_of_originalBaseline {systemId : String}
    (h : originalBaseline db systemId = none) :
    ∀ g ∈ db.genomes, g.systemId = systemId → g.version ≠ 1 := by
  intro g hg hsystem hone
  rw [originalBaseline_eq] at h
  have hnone := List.find?_eq_none.mp h g hg
  simp [hsystem, hone] at hnone

/-- An experiment is created, above everything that is stored. -/
theorem Rooted.created (h : Rooted p w) {body : ExperimentCreateRequest} {db' : Database}
    (hcreated : createExperiment p w.db body = .ok db')
    (hnumbered : WellNumbered p { w with db := db' }) : Rooted p { w with db := db' } := by
  obtain ⟨hextends, ⟨r, hexperiments, hrow⟩, added, hadded, hv1⟩ :=
    createExperiment_adds hcreated
  have hkeeps : KeepsRows w.db.genomes db'.genomes := keepsRows_prefix ⟨added, hadded.symm⟩
  have hnew := fun g => mem_genomes_created (g := g) hcreated
  have hrows : ∀ r' ∈ db'.experiments, r' ∈ w.db.experiments ∨ r' = r := by
    intro r' hr'
    rw [hexperiments] at hr'
    simpa using hr'
  -- a v1 is added once: its application has none before
  have hapart : ∀ g ∈ w.db.genomes, ∀ g' ∈ db'.genomes, g.version = 1 →
      g.systemId = g'.systemId → g' ∈ w.db.genomes := by
    intro g hg g' hg' hone hsystem
    rcases hnew g' hg' with hold | ⟨hdata, hnone⟩
    · exact hold
    · have hsys : g'.systemId = body.systemId.1 := by
        rw [GenomeRecord.systemId, hdata]
      exact absurd hone (version_ne_of_originalBaseline hnone g hg (hsystem.trans hsys))
  refine ⟨hnumbered, ?_, ?_, ?_, ?_, ?_⟩
  · intro g hg hone
    rcases hnew g hg with hold | ⟨hdata, -⟩
    · exact h.rootless g hold hone
    · rw [hdata]
  · intro g hg g' hg' hone hone' hsystem
    rcases hnew g hg with hold | ⟨hdata, -⟩
    · exact h.one g hold g' (hapart g hold g' hg' hone hsystem) hone hone' hsystem
    · rcases hnew g' hg' with hold' | ⟨hdata', -⟩
      · have hold := hapart g' hold' g hg hone' hsystem.symm
        exact h.one g hold g' hold' hone hone' hsystem
      · have hsame : g.data = g'.data := hdata.trans hdata'.symm
        rw [hnumbered.hash_eq hg, hnumbered.hash_eq hg', hsame]
  · intro r' hr' b hb hbaseline
    rcases hrows r' hr' with hr' | rfl
    · obtain ⟨b₀, hb₀, hhash, -⟩ := h.numbered.baseline_row hr'
      have hsame : b₀.hash = b.hash := Option.some.inj (hhash.symm.trans hbaseline)
      obtain rfl := hnumbered.row_eq (hextends.genomes.subset hb₀) hb hsame
      exact h.based r' hr' b₀ hb₀ hbaseline
    · obtain ⟨b₀, hb₀, hhash, hsystem⟩ := hnumbered.baseline_row hr'
      have hsame : b₀.hash = b.hash := Option.some.inj (hhash.symm.trans hbaseline)
      obtain rfl := hnumbered.row_eq hb₀ hb hsame
      obtain ⟨htwo, habove, -⟩ :=
        nextCandidateVersion_le_iff.mp (le_refl (w.db.nextCandidateVersion r'.applicationId))
      unfold ExperimentRecord.firstVersion
      rw [hrow.first, Option.getD_some]
      rcases hnew b₀ hb₀ with hold | ⟨hdata, -⟩
      · exact habove b₀ hold hsystem
      · rw [GenomeRecord.version, hdata]
        exact htwo
  · intro r' hr' c hc
    rcases hrows r' hr' with hr' | rfl
    · exact (h.recorded r' hr' c hc).mono hkeeps
    · have hnone : w.recorded r'.experimentId = [] := (h.numbered.unused _ hrow.fresh).2
      have hmem : c ∈ w.recorded r'.experimentId := hc
      rw [hnone] at hmem
      cases hmem
  · intro g hg
    rcases hnew g hg with hold | ⟨hdata, -⟩
    · exact (h.parents g hold).imp_right (·.mono hkeeps)
    · refine .inl ?_
      rw [GenomeRecord.version, hdata]

theorem Rooted.served (h : Rooted p w) {now : ℕ} {request : Request} {db' : Database}
    (hserved : Served p w.db now request db')
    (hrun : ∀ id checkpoint answer, request ≠ .runExperiment id checkpoint answer) :
    Rooted p { w with db := db' } := by
  have hnumbered := h.numbered.served hserved hrun
  by_cases hadds : request.AddsRows
  · cases hserved with
    | unchanged => exact h
    | created hcreated => exact h.created hcreated hnumbered
    | failed | ran => exact absurd rfl (hrun _ _ _)
    | _ => exact absurd hadds id
  · exact h.of_sameRows (hserved.sameRows hadds) hnumbered

/-! ## Resumes -/

theorem sameOrigins_reconfigured {record : ExperimentRecord} {config : ExperimentConfig}
    (hids : (db.experiments.map (·.experimentId)).Nodup) (hrecord : record ∈ db.experiments)
    (hkeeps : KeepsNumbers record.config config) :
    SameOrigins db.experiments (db.experiments.map (reconfigured record.experimentId config)) := by
  intro r' hr'
  obtain ⟨r, hr, rfl⟩ := List.mem_map.mp hr'
  refine ⟨r, hr, ?_⟩
  by_cases hid : r.experimentId = record.experimentId
  · obtain rfl := List.inj_on_of_nodup_map hids hr hrecord hid
    rw [reconfigured_self]
    unfold ExperimentRecord.firstVersion
    dsimp only
    rw [hkeeps.baseline, hkeeps.first]
    exact ⟨rfl, rfl, rfl⟩
  · rw [reconfigured_of_ne hid]
    exact ⟨rfl, rfl, rfl⟩

theorem Rooted.resumed (h : Rooted p w) {record : ExperimentRecord} {experimentId : String}
    {extraCandidates : ℕ} (hextra : 1 ≤ extraCandidates)
    (hget : w.db.getExperiment experimentId = some record) {config : ExperimentConfig}
    (hconfig : config =
      resumedConfig record.config (w.disk experimentId) extraCandidates hextra)
    (hclash : resumeClash w.db record config = none) :
    Rooted p { w with db := markExperiment w.db record.applicationId config .running } := by
  have hnumbered := h.numbered.resumed hextra hget hconfig hclash
  have hrecord := mem_of_getExperiment hget
  obtain rfl := experimentId_of_getExperiment hget
  have hkeeps : KeepsNumbers record.config config :=
    hconfig ▸ keepsNumbers_resumed record.config _ extraCandidates hextra
  have hid := hkeeps.id.trans (h.numbered.config_id hrecord)
  have hgenomes : (markExperiment w.db record.applicationId config .running).genomes =
      w.db.genomes := genomes_saveExperiment ..
  refine h.update hnumbered ?_ ?_ h.recorded ?_
  · rw [← hid] at hget
    dsimp only
    rw [experiments_markRunning hget, hid]
    exact sameOrigins_reconfigured h.numbered.ids hrecord hkeeps
  · exact keepsRows_prefix (hgenomes ▸ List.prefix_rfl)
  · intro g hg
    rw [hgenomes] at hg
    exact .inl ⟨g, hg, rfl, rfl⟩

/-! ## Runs -/

section Run

variable {host : Host ρ}

theorem Rooted.marked (h : Rooted p w) {record : ExperimentRecord}
    (hrecord : record ∈ w.db.experiments) (applicationId : String) (status : ExperimentStatus) :
    Rooted p { w with db := markExperiment w.db applicationId record.config status } := by
  refine h.of_sameRows ⟨?_, ?_⟩ (h.numbered.marked hrecord applicationId status)
  · exact ((h.numbered.storedAs hrecord).resaved applicationId none status).1
  · exact congrArg _ (genomes_saveExperiment ..)

/-- What a run starts from is the row of its experiment's baseline. -/
theorem startRun_row (hwf : WellFormed p.genomeDigest db) {record : ExperimentRecord}
    {checkpoint : Option ExperimentCheckpoint} {input : RunInput}
    (hload : db.getExperiment record.experimentId = some record)
    (hstart : startRun db record checkpoint = .ok input) :
    ∃ b ∈ db.genomes, record.config.baselineHash = some b.hash ∧
      b.hash = input.baseline.hash p.genomeDigest ∧
      b.data.generation = input.baseline.generation := by
  obtain ⟨-, -, hbase, -⟩ := startRun_ok hstart
  obtain ⟨-, -, hash, hhash, hsystem, -⟩ := hwf.experiments _ record hload
  unfold baselineForRun at hbase
  rw [hhash, nonEmpty_of_ne (ne_empty_of_systemOf hwf hsystem)] at hbase
  obtain ⟨b, hb, hgenome, -, -⟩ := getGenome_eq_some hbase
  have hown := hash_of_getGenomeRecord hb
  refine ⟨b, List.mem_of_find?_eq_some hb, ?_, ?_, ?_⟩
  · rw [hhash, hown]
  · rw [hown, hash_of_getGenome hwf hbase]
  · rw [hgenome]
    rfl

/-- The candidates on record after a run have their parent among the genomes. -/
theorem Rooted.bred (h : Rooted host.platform w) {record : ExperimentRecord}
    (hrecord : record ∈ w.db.experiments) {input : RunInput} {e : ExperimentEngine ρ}
    (hstart : startRun w.db record (w.disk record.experimentId) = .ok input)
    (hsetUp : host.setUp input = .ok e) {actions : List ExperimentEngine.Action} {l : Life ρ}
    (hacts : run Life.next ⟨e, { disk := w.disk record.experimentId },
      w.recorded record.experimentId⟩ (actions.map .act) = some l)
    (hleaves : Leaves host.platform.genomeDigest record input (w.recorded record.experimentId) l) :
    ∀ c ∈ l.recorded, HasParent w.db.genomes c := by
  intro c hc
  rcases ExperimentEngine.acts_bred hacts c hc with hold | hbred
  · exact h.recorded record hrecord c hold
  · obtain ⟨-, hbaseline, hdigest⟩ := setUp_ok hsetUp
    obtain ⟨b, hb, hhash, hown, hgeneration⟩ := startRun_row h.numbered.sound.wellFormed
      (getExperiment_of_mem h.numbered.ids hrecord) hstart
    obtain ⟨b', hb', hhash', hsystem⟩ := h.numbered.baseline_row hrecord
    obtain rfl := h.numbered.row_eq hb hb' (Option.some.inj (hhash.symm.trans hhash'))
    have hversion : c.version ∈ l.recorded.map (·.version) := List.mem_map_of_mem hc
    rw [hleaves.booked.versions, List.mem_range'_1] at hversion
    have hbelow := h.based record hrecord b hb hhash
    refine ⟨b, hb, ?_, ?_, ?_, ?_⟩
    · rw [hbred.parent, hbaseline, hdigest, hown]
    · rw [hsystem, (hleaves.booked.derived c hc).1]
      rfl
    · exact hbelow.trans_le hversion.1
    · rw [hgeneration, ← hbaseline]
      exact hbred.generation

theorem genomes_prefix_afterRun {digest : GenomeDigest} {input : RunInput}
    (phase : ExperimentEngine.Phase ρ) :
    db.genomes <+: (afterRun digest db input phase).genomes := by
  cases phase with
  | returned result =>
      have hsame : (afterRun digest db input (ExperimentEngine.Phase.returned (ρ := ρ)
          result)).genomes = (db.saveGenome digest result.bestGenome).genomes :=
        genomes_saveExperiment ..
      rw [hsame]
      exact (extends_saveGenome digest result.bestGenome).genomes
  | raised message =>
      have hmarked : (markExperiment db input.applicationId input.config .failed).genomes =
          db.genomes := genomes_saveExperiment ..
      exact hmarked ▸ List.prefix_rfl
  | _ => exact List.prefix_rfl

theorem Rooted.left (h : Rooted host.platform w) {record : ExperimentRecord}
    (hrecord : record ∈ w.db.experiments) {input : RunInput}
    (hconfig : input.config = record.config) (hfit : RunFits host.platform w.db input)
    {l : Life ρ} (hleaves : Leaves host.platform.genomeDigest record input
      (w.recorded record.experimentId) l)
    (hbred : ∀ c ∈ l.recorded, HasParent w.db.genomes c) :
    Rooted host.platform
      { db := afterRun host.platform.genomeDigest
          (markExperiment w.db input.applicationId input.config .running) input l.state.phase
        disk := Function.update w.disk record.experimentId l.state.disk
        recorded := Function.update w.recorded record.experimentId l.recorded } := by
  have hnumbered := h.numbered.left hrecord hconfig hfit hleaves
  obtain ⟨hrows, hstored⟩ :=
    (h.numbered.storedAs hrecord).resaved input.applicationId none .running
  rw [← hconfig] at hstored hrows
  have hmarked : (markExperiment w.db input.applicationId input.config .running).genomes =
      w.db.genomes := genomes_saveExperiment ..
  refine h.update hnumbered
    (sameOrigins_of_sameProgress ((experiments_afterRun hstored _).trans hrows)) ?_ ?_ ?_
  · refine keepsRows_prefix ?_
    rw [← hmarked]
    exact genomes_prefix_afterRun _
  · intro r hr c hc
    by_cases hid : r.experimentId = record.experimentId
    · rw [hid] at hc
      dsimp only at hc
      rw [Function.update_self] at hc
      exact hbred c hc
    · dsimp only at hc
      rw [Function.update_of_ne hid] at hc
      exact h.recorded r hr c hc
  · intro g hg
    rcases hleaves.new_genome hfit hg with hold | ⟨hmem, hunstored⟩
    · exact .inl ⟨g, hold, rfl, rfl⟩
    · refine .inr ⟨?_, ?_, hbred _ hmem⟩
      · have hversion : g.data.version ∈ l.recorded.map (·.version) := List.mem_map_of_mem hmem
        rw [hleaves.booked.versions, List.mem_range'_1] at hversion
        have htwo := h.numbered.first_le hrecord
        have hfirst : (record.origin host.platform.genomeDigest).firstVersion =
          record.firstVersion := rfl
        unfold GenomeRecord.version
        omega
      · intro r hr hbaseline
        obtain ⟨b, hb, hhash, -⟩ := h.numbered.baseline_row hr
        have hsame : b.hash = g.data.hash host.platform.genomeDigest := by
          rw [← hnumbered.hash_eq hg]
          exact Option.some.inj (hhash.symm.trans hbaseline)
        have hstored := getGenomeRecord_of_mem h.numbered.sound.wellFormed.nodup hb
        rw [hsame, hunstored] at hstored
        cases hstored

/-! ## Histories -/

theorem Rooted.operate (h : Rooted host.platform w) {operation : Operation}
    (hstep : operate host w operation = some w') : Rooted host.platform w' := by
  cases operate_did hstep with
  | served hrequest => exact h.served (serve_did _) hrequest
  | refused => exact h
  | failed hload => exact h.marked (mem_of_getExperiment (loadRun_ok hload)) _ _
  | ran hload hstart hsetUp hacts =>
      have hget := loadRun_ok hload
      have hrecord := mem_of_getExperiment hget
      obtain rfl := experimentId_of_getExperiment hget
      obtain ⟨-, hconfig, -⟩ := startRun_ok hstart
      have hfit := startRun_fits h.numbered.sound.wellFormed hload hstart
      have hleaves := h.numbered.leaves hrecord hconfig hfit hsetUp hacts
      exact h.left hrecord hconfig hfit hleaves (h.bred hrecord hstart hsetUp hacts hleaves)
  | resumed hextra hget hconfig hclash => exact h.resumed hextra hget hconfig hclash

/-! ## The tree -/

/-- The edge from a stored genome to the one it was derived from. -/
def IsParent (db : Database) (g parent : GenomeRecord) : Prop :=
  g ∈ db.genomes ∧ parent ∈ db.genomes ∧ g.data.parentHash = some parent.hash

theorem Rooted.parent_lt (h : Rooted p w) {g parent : GenomeRecord}
    (hparent : IsParent w.db g parent) : parent.version < g.version ∧
      parent.systemId = g.systemId ∧ parent.data.generation < g.data.generation := by
  obtain ⟨hg, hmem, hhash⟩ := hparent
  rcases h.parents g hg with hone | ⟨parent', hmem', hhash', hsystem, hversion, hgeneration⟩
  · have hnone := h.rootless g hg hone
    rw [hhash] at hnone
    cases hnone
  · have hsame : parent.hash = parent'.hash := Option.some.inj (hhash.symm.trans hhash')
    obtain rfl := h.numbered.row_eq hmem hmem' hsame
    exact ⟨hversion, hsystem, hgeneration⟩

/-- Every genome has one parent, but the v1. -/
theorem Rooted.existsUnique_parent (h : Rooted p w) {g : GenomeRecord} (hg : g ∈ w.db.genomes)
    (hne : g.version ≠ 1) : ∃! parent, IsParent w.db g parent := by
  rcases h.parents g hg with hone | ⟨parent, hmem, hhash, -⟩
  · exact absurd hone hne
  · refine ⟨parent, ⟨hg, hmem, hhash⟩, ?_⟩
    rintro parent' ⟨-, hmem', hhash'⟩
    exact h.numbered.row_eq hmem' hmem (Option.some.inj (hhash'.symm.trans hhash))

/-- The parents of a genome lead to the v1 of its application. -/
theorem Rooted.exists_root (h : Rooted p w) {g : GenomeRecord} (hg : g ∈ w.db.genomes) :
    ∃ root ∈ w.db.genomes, root.version = 1 ∧ root.systemId = g.systemId ∧
      Relation.ReflTransGen (IsParent w.db) g root := by
  have hstep : ∀ a : GenomeRecord, a ∈ w.db.genomes ∧ a.systemId = g.systemId →
      a.version = 1 ∨ ∃ b, (b ∈ w.db.genomes ∧ b.systemId = g.systemId) ∧
        IsParent w.db a b ∧ b.version < a.version := by
    rintro a ⟨ha, hsystem⟩
    by_cases hone : a.version = 1
    · exact .inl hone
    · obtain ⟨parent, hparent, -⟩ := h.existsUnique_parent ha hone
      obtain ⟨hversion, hsame, -⟩ := h.parent_lt hparent
      exact .inr ⟨parent, ⟨hparent.2.1, hsame.trans hsystem⟩, hparent, hversion⟩
  obtain ⟨root, ⟨hroot, hsystem⟩, hone, hpath⟩ :=
    exists_end_of_measure GenomeRecord.version hstep ⟨hg, rfl⟩
  exact ⟨root, hroot, hone, hsystem, hpath⟩

/-- **The tree of genomes.** After every history of operations, the stored genomes of an
    application are a tree rooted at its v1: there is one v1, without a parent; every other
    genome has one stored parent, of the same application, with a smaller version and a
    smaller generation; the parents of a genome lead to the v1, and never back to it. -/
theorem stored_genomes_are_a_tree (host : Host ρ) (history : List Operation) (w : World)
    (hrun : run (NeuroForge.operate host) {} history = some w) :
    (∀ g ∈ w.db.genomes, g.version ≠ 1 →
      ∃ parent, IsParent w.db g parent ∧ (∀ other, IsParent w.db g other → other = parent) ∧
        parent.systemId = g.systemId ∧ parent.version < g.version ∧
        parent.data.generation < g.data.generation) ∧
    (∀ g ∈ w.db.genomes, ∃! root, root ∈ w.db.genomes ∧ root.systemId = g.systemId ∧
      root.version = 1) ∧
    (∀ g ∈ w.db.genomes, ∃ root, root.version = 1 ∧ root.data.parentHash = none ∧
      root.systemId = g.systemId ∧ Relation.ReflTransGen (IsParent w.db) g root) ∧
    ∀ g, ¬ Relation.TransGen (IsParent w.db) g g := by
  have h : Rooted host.platform w :=
    run_invariant (fun _ _ _ h hstep => h.operate hstep) (rooted_empty _) hrun
  refine ⟨?_, ?_, ?_, ?_⟩
  · intro g hg hne
    obtain ⟨parent, hparent, hunique⟩ := h.existsUnique_parent hg hne
    obtain ⟨hversion, hsystem, hgeneration⟩ := h.parent_lt hparent
    exact ⟨parent, hparent, hunique, hsystem, hversion, hgeneration⟩
  · intro g hg
    obtain ⟨root, hroot, hone, hsystem, -⟩ := h.exists_root hg
    refine ⟨root, ⟨hroot, hsystem, hone⟩, ?_⟩
    rintro root' ⟨hroot', hsystem', hone'⟩
    exact h.numbered.row_eq hroot' hroot
      (h.one root' hroot' root hroot hone' hone (hsystem'.trans hsystem.symm))
  · intro g hg
    obtain ⟨root, hroot, hone, hsystem, hpath⟩ := h.exists_root hg
    exact ⟨root, hone, h.rootless root hroot hone, hsystem, hpath⟩
  · intro g hcycle
    have hless := lt_of_transGen (μ := GenomeRecord.version)
      (fun a b hab => (h.parent_lt hab).1) hcycle
    exact absurd hless (lt_irrefl _)

section Example

/-- An experiment of two candidates runs to its end. -/
def wholeRun (experimentId : String) : Operation :=
  .run experimentId [.start, .turn 0 0, .checkConvergence, .turn 0 0, .checkConvergence,
    .turn 0 0, .stop, .finalize 0]

/-- `exp-1` starts from the v1 and finds a better genome; `exp-2` starts from that one and
    proposes it again, as a child of itself. -/
def exampleRediscovery : List Operation :=
  [exampleCreation exp1, wholeRun "exp-1",
    .serve ⟨1, .createExperiment { exampleBody exp2 "app-8" 1 usualFloor with
      strategy := "random", batchSize := 1, budget := some twoCandidates }⟩,
    wholeRun "exp-2"]

end Example

/-- The candidate that is its own parent is on record under another number, but its row is
    the one that was there. -/
theorem stored_genomes_are_a_tree_rediscovered : ∃ w,
    run (NeuroForge.operate exampleHost) {} exampleRediscovery = some w ∧
    (w.recorded "exp-2").map (fun g => (g.hash exampleDigest, g.version, g.parentHash)) =
      [("app-8", 4, some "app-8"), ("app-3", 5, some "app-8")] ∧
    w.db.genomes.map (fun g => (g.hash, g.version, g.data.parentHash)) =
      [("app-5", 1, none), ("app-8", 2, some "app-5")] ∧
    ∀ g ∈ w.db.genomes, ∃ root, root.version = 1 ∧ root.data.parentHash = none ∧
      root.systemId = g.systemId ∧ Relation.ReflTransGen (IsParent w.db) g root := by
  have hfacts : (run (NeuroForge.operate exampleHost) {} exampleRediscovery).map
      (fun w => decide (
        (w.recorded "exp-2").map (fun g => (g.hash exampleDigest, g.version, g.parentHash)) =
          [("app-8", 4, some "app-8"), ("app-3", 5, some "app-8")] ∧
        w.db.genomes.map (fun g => (g.hash, g.version, g.data.parentHash)) =
          [("app-5", 1, none), ("app-8", 2, some "app-5")])) = some true := by
    decide +kernel
  obtain ⟨w, hw, hfacts⟩ := Option.map_eq_some_iff.mp hfacts
  obtain ⟨hrecorded, hgenomes⟩ := of_decide_eq_true hfacts
  obtain ⟨-, -, hroots, -⟩ := stored_genomes_are_a_tree exampleHost exampleRediscovery w hw
  exact ⟨w, hw, hrecorded, hgenomes, hroots⟩

end Run

end NeuroForge
