/-
  What every request keeps true of the database, besides the status column.

  A genome's row is stored under its own hash and its application has an original; every
  approval is of a stored genome; an experiment records the baseline its result was
  measured against (`WellFormed`). One lemma for each write says that it keeps this.
-/
import NeuroForge.Experiments.Runner
import NeuroForge.Promotion.Agreement

namespace NeuroForge

open Database

/-! ## Rows of experiments -/

section Experiments

variable {db : Database}

/-- The row an experiment has after a save. -/
def savedExperiment (db : Database) (applicationId : String) (config : ExperimentConfig)
    (result : Option ExperimentResult) (status : ExperimentStatus) : ExperimentRecord :=
  match db.getExperiment config.experimentId with
  | none => ⟨config.experimentId, applicationId, status, config, result⟩
  | some r => { r with status := status, config := config, result := result.or r.result }

theorem experimentId_of_getExperiment {id : String} {e : ExperimentRecord}
    (h : db.getExperiment id = some e) : e.experimentId = id := by
  simpa using List.find?_some h

theorem getExperiment_saveExperiment (applicationId : String) (config : ExperimentConfig)
    (result : Option ExperimentResult) (status : ExperimentStatus) (id : String) :
    (db.saveExperiment applicationId config result status).getExperiment id =
      if id = config.experimentId then
        some (savedExperiment db applicationId config result status)
      else db.getExperiment id := by
  unfold saveExperiment savedExperiment
  rcases hold : db.getExperiment config.experimentId with _ | old
  · unfold getExperiment
    dsimp only
    rw [List.find?_append]
    split_ifs with hid
    · subst hid
      have hnone : db.experiments.find? (·.experimentId = config.experimentId) = none := hold
      rw [hnone]
      simp
    · have hother : ([⟨config.experimentId, applicationId, status, config, result⟩] :
          List ExperimentRecord).find? (·.experimentId = id) = none := by
        simpa using fun h : config.experimentId = id => hid h.symm
      rw [hother, Option.or_none]
  · have hmap : ∀ rows : List ExperimentRecord, (rows.map fun r =>
        if r.experimentId = config.experimentId then
          { r with status := status, config := config, result := result.or r.result }
        else r).find? (·.experimentId = id) =
        (rows.find? (·.experimentId = id)).map fun r =>
          if id = config.experimentId then
            { r with status := status, config := config, result := result.or r.result }
          else r := by
      intro rows
      induction rows with
      | nil => rfl
      | cons r rows ih =>
          rw [List.map_cons]
          by_cases hid : r.experimentId = id
          · subst hid
            rw [List.find?_cons_of_pos (by split_ifs <;> simp),
              List.find?_cons_of_pos (by simp), Option.map_some]
          · rw [List.find?_cons_of_neg (by split_ifs <;> simpa using hid),
              List.find?_cons_of_neg (by simpa using hid), ih]
    unfold getExperiment
    dsimp only
    rw [hmap]
    split_ifs with hid
    · subst hid
      have hsome : db.experiments.find? (·.experimentId = config.experimentId) = some old := hold
      rw [hsome]
      rfl
    · simp

/-- A failed run is marked as running first; nothing of that mark remains. -/
theorem markExperiment_again (db : Database) (applicationId : String)
    (config : ExperimentConfig) (status status' : ExperimentStatus) :
    markExperiment (markExperiment db applicationId config status) applicationId config status' =
      markExperiment db applicationId config status' := by
  have hsaved : (db.saveExperiment applicationId config none status).getExperiment
      config.experimentId = some (savedExperiment db applicationId config none status) := by
    rw [getExperiment_saveExperiment, if_pos rfl]
  unfold markExperiment
  generalize hfirst : db.saveExperiment applicationId config none status = first at hsaved
  unfold saveExperiment at hfirst ⊢
  rw [hsaved]
  cases hold : db.getExperiment config.experimentId with
  | none =>
      rw [hold] at hfirst
      subst hfirst
      have hother : ∀ r ∈ db.experiments, r.experimentId ≠ config.experimentId := by
        simpa [getExperiment] using hold
      dsimp only
      rw [List.map_append, List.map_cons, List.map_nil, if_pos rfl]
      congr 2
      calc db.experiments.map _ = db.experiments.map id :=
            List.map_congr_left fun r hr => if_neg (hother r hr)
        _ = db.experiments := List.map_id _
  | some old =>
      rw [hold] at hfirst
      subst hfirst
      dsimp only
      rw [List.map_map]
      congr 2
      funext r
      by_cases hr : r.experimentId = config.experimentId
      · simp [hr]
      · simp [hr]

end Experiments

/-! ## Well-formed databases -/

/-- An experiment whose baseline is recorded, and whose result was measured against it. -/
structure Recorded (digest : GenomeDigest) (db : Database) (e : ExperimentRecord) : Prop where
  id : e.config.experimentId = e.experimentId
  named : e.experimentId ≠ ""
  baseline : ∃ hash, e.config.baselineHash = some hash ∧
    systemOf db hash = some e.applicationId ∧
    ∀ result, e.result = some result → result.baselineGenome.hash digest = hash

structure WellFormed (digest : GenomeDigest) (db : Database) : Prop where
  nodup : (db.genomes.map (·.hash)).Nodup
  hashed : ∀ hash r, db.getGenomeRecord hash = some r → r.data.hash digest = hash
  original : ∀ hash systemId, systemOf db hash = some systemId →
    ∃ r, originalBaseline db systemId = some r
  known : ApprovalsKnown db
  experiments : ∀ id e, db.getExperiment id = some e → Recorded digest db e

theorem wellFormed_empty (digest : GenomeDigest) : WellFormed digest {} where
  nodup := List.nodup_nil
  hashed := by
    intro hash r h
    cases h
  original := by
    intro hash systemId h
    cases h
  known := by
    intro a h
    cases h
  experiments := by
    intro id e h
    cases h

section Writes

variable {digest : GenomeDigest} {db db' : Database}

theorem getGenomeRecord_of_mem (hnd : (db.genomes.map (·.hash)).Nodup) {r : GenomeRecord}
    (h : r ∈ db.genomes) : db.getGenomeRecord r.hash = some r := by
  rcases hfound : db.getGenomeRecord r.hash with _ | r'
  · exact absurd (List.find?_eq_none.mp hfound r h) (by simp)
  · have hmem : r' ∈ db.genomes := List.mem_of_find?_eq_some hfound
    have hhash := hash_of_getGenomeRecord hfound
    rw [List.inj_on_of_nodup_map hnd hmem h hhash]

theorem Recorded.mono {e : ExperimentRecord} (h : Recorded digest db e)
    (hsys : ∀ hash systemId, systemOf db hash = some systemId →
      systemOf db' hash = some systemId) : Recorded digest db' e := by
  obtain ⟨hid, hnamed, hash, hbase, hsystem, hresult⟩ := h
  exact ⟨hid, hnamed, hash, hbase, hsys _ _ hsystem, hresult⟩

/-- A write to other tables. -/
theorem WellFormed.of_eq (h : WellFormed digest db) (hgenomes : db'.genomes = db.genomes)
    (happrovals : db'.approvals = db.approvals) (hexp : db'.experiments = db.experiments) :
    WellFormed digest db' := by
  have hget : ∀ hash, db'.getGenomeRecord hash = db.getGenomeRecord hash := fun hash => by
    rw [getGenomeRecord, hgenomes, getGenomeRecord]
  have hsys : ∀ hash, systemOf db' hash = systemOf db hash := fun hash => by
    rw [systemOf, hget, systemOf]
  refine ⟨hgenomes ▸ h.nodup, fun hash r hr => h.hashed hash r (hget hash ▸ hr),
    fun hash systemId hs => ?_, fun a ha => ?_, fun id e he => ?_⟩
  · obtain ⟨r, hr⟩ := h.original hash systemId (hsys hash ▸ hs)
    refine ⟨r, ?_⟩
    rw [originalBaseline_eq] at hr ⊢
    rw [hgenomes]
    exact hr
  · rw [happrovals] at ha
    obtain ⟨s, hs⟩ := h.known a ha
    exact ⟨s, (hsys _).trans hs⟩
  · have hold : db.getExperiment id = some e := by
      rw [getExperiment, ← hexp]
      exact he
    exact (h.experiments id e hold).mono fun hash systemId hs => (hsys hash).trans hs

/-- A write to the status column. -/
theorem WellFormed.of_eraseStatus (h : WellFormed digest db)
    (herase : db'.eraseStatus = db.eraseStatus) : WellFormed digest db' := by
  refine ⟨?_, fun hash r hr => ?_, fun hash systemId hs => ?_, fun a ha => ?_,
    fun id e he => ?_⟩
  · have hhashes := congrArg (fun d : Database => d.genomes.map (·.hash)) herase
    unfold eraseStatus at hhashes
    simp only [List.map_map] at hhashes
    rw [show db'.genomes.map (·.hash) = db.genomes.map (·.hash) from hhashes]
    exact h.nodup
  · have hget := congrArg (·.getGenomeRecord hash) herase
    rw [getGenomeRecord_eraseStatus, getGenomeRecord_eraseStatus, hr] at hget
    obtain ⟨r', hr', heq⟩ := Option.map_eq_some_iff.mp hget.symm
    have hdata := congrArg GenomeRecord.data heq
    rw [← show r'.data = r.data from hdata]
    exact h.hashed hash r' hr'
  · rw [systemOf_congr herase] at hs
    obtain ⟨r, hr⟩ := h.original hash systemId hs
    have hsame := originalBaseline_congr herase systemId
    rw [hr] at hsame
    obtain ⟨r', hr', -⟩ := Option.map_eq_some_iff.mp hsame
    exact ⟨r', hr'⟩
  · rw [approvals_of_eraseStatus herase] at ha
    obtain ⟨s, hs⟩ := h.known a ha
    exact ⟨s, (systemOf_congr herase _).trans hs⟩
  · have hold : db.getExperiment id = some e := by
      rw [getExperiment, ← experiments_of_eraseStatus herase]
      exact he
    exact (h.experiments id e hold).mono fun hash systemId hs =>
      (systemOf_congr herase hash).trans hs

theorem systemOf_saveGenome {g : SystemGenome} {hash systemId : String}
    (h : systemOf db hash = some systemId) :
    systemOf (db.saveGenome digest g) hash = some systemId := by
  obtain ⟨r, hr, hsys⟩ := Option.map_eq_some_iff.mp h
  unfold systemOf
  rw [getGenomeRecord_saveGenome, hr, Option.some_or, Option.map_some, hsys]

/-- A genome of an application that has an original is saved, or the original itself. -/
theorem WellFormed.saveGenome (h : WellFormed digest db) {g : SystemGenome}
    (horig : db.getGenomeRecord (g.hash digest) = none →
      ∃ r, originalBaseline (db.saveGenome digest g) g.systemId = some r) :
    WellFormed digest (db.saveGenome digest g) := by
  have happ : (db.saveGenome digest g).approvals = db.approvals := approvals_saveGenome digest g
  have hexp : (db.saveGenome digest g).experiments = db.experiments :=
    experiments_saveGenome digest g
  refine ⟨?_, fun hash r hr => ?_, fun hash systemId hs => ?_, fun a ha => ?_,
    fun id e he => ?_⟩
  · unfold Database.saveGenome
    split
    · exact h.nodup
    · rename_i hnone
      dsimp only
      rw [List.map_append, List.nodup_append]
      refine ⟨h.nodup, List.nodup_singleton _, ?_⟩
      intro a ha b hb hab
      obtain ⟨r, hr, rfl⟩ := List.mem_map.mp ha
      rw [List.mem_singleton.mp hb] at hab
      exact absurd (List.find?_eq_none.mp hnone r hr) (by simpa using hab)
  · rw [getGenomeRecord_saveGenome] at hr
    rcases Option.or_eq_some_iff.mp hr with hr | ⟨-, hr⟩
    · exact h.hashed hash r hr
    · split_ifs at hr with hhash
      rw [← Option.some.inj hr]
      exact hhash
  · unfold systemOf at hs
    rw [getGenomeRecord_saveGenome] at hs
    obtain ⟨r, hr, hsys⟩ := Option.map_eq_some_iff.mp hs
    rcases Option.or_eq_some_iff.mp hr with hr | ⟨hnone, hr⟩
    · have hold : systemOf db hash = some systemId := by
        rw [systemOf, hr, Option.map_some, hsys]
      obtain ⟨o, ho⟩ := h.original hash systemId hold
      exact ⟨o, originalBaseline_saveGenome ho⟩
    · split_ifs at hr with hhash
      rw [← Option.some.inj hr] at hsys
      rw [← hsys]
      exact horig (hhash ▸ hnone)
  · rw [happ] at ha
    obtain ⟨s, hs⟩ := h.known a ha
    exact ⟨s, systemOf_saveGenome hs⟩
  · have hold : db.getExperiment id = some e := by
      rw [getExperiment, ← hexp]
      exact he
    exact (h.experiments id e hold).mono fun hash systemId hs => systemOf_saveGenome hs

/-- An experiment is created with a recorded baseline, or saved again with the one it has. -/
theorem WellFormed.saveExperiment (h : WellFormed digest db) {applicationId : String}
    {config : ExperimentConfig} {result : Option ExperimentResult} {status : ExperimentStatus}
    (hrec : Recorded digest db (savedExperiment db applicationId config result status)) :
    WellFormed digest (db.saveExperiment applicationId config result status) := by
  have hgenomes : (db.saveExperiment applicationId config result status).genomes =
      db.genomes := genomes_saveExperiment ..
  have happ : (db.saveExperiment applicationId config result status).approvals =
      db.approvals := approvals_saveExperiment ..
  have hsys : ∀ hash, systemOf (db.saveExperiment applicationId config result status) hash =
      systemOf db hash := fun hash => by
    rw [systemOf, getGenomeRecord, hgenomes, systemOf, getGenomeRecord]
  refine ⟨hgenomes ▸ h.nodup, fun hash r hr => ?_, fun hash systemId hs => ?_,
    fun a ha => ?_, fun id e he => ?_⟩
  · rw [getGenomeRecord, hgenomes] at hr
    exact h.hashed hash r hr
  · obtain ⟨o, ho⟩ := h.original hash systemId (hsys hash ▸ hs)
    refine ⟨o, ?_⟩
    rw [originalBaseline_eq] at ho ⊢
    rw [hgenomes]
    exact ho
  · rw [happ] at ha
    obtain ⟨s, hs⟩ := h.known a ha
    exact ⟨s, (hsys _).trans hs⟩
  · rw [getExperiment_saveExperiment] at he
    split_ifs at he
    · rw [← Option.some.inj he]
      exact hrec.mono fun hash systemId hs => (hsys hash).trans hs
    · exact (h.experiments id e he).mono fun hash systemId hs => (hsys hash).trans hs

/-- A production change of a stored genome. -/
theorem WellFormed.savePromotionApproval (h : WellFormed digest db) {hash systemId : String}
    (hsys : systemOf db hash = some systemId) (experimentId : Option String)
    (approvedBy : String) (action : ApprovalAction) (now : ℕ) :
    WellFormed digest (db.savePromotionApproval hash experimentId approvedBy action now) := by
  refine ⟨h.nodup, h.hashed, h.original, fun a ha => ?_, fun id e he =>
    (h.experiments id e he).mono fun _ _ hs => hs⟩
  rcases List.mem_append.mp ha with ha | ha
  · exact h.known a ha
  · rw [List.mem_singleton.mp ha]
    exact ⟨systemId, hsys⟩

end Writes

end NeuroForge
