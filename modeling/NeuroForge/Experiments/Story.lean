/-
  The event log and the checkpoint tell one story.

  Events are appended one by one, the checkpoint is replaced once a generation. What a
  process logs before it dies stays in the log under numbers that the next process gives out
  again; the candidates on record are numbered below them. So the last evaluation logged for
  a number on record is the recorded one (`Standing`), whatever lost attempts lie between:
  `write_story` says that every step keeps this, with `RecordedAs` relating the rounds of the
  checkpoint to the scores they were made of.
-/
import NeuroForge.Experiments.Journal

namespace NeuroForge

open Fallible Transition

variable {ρ : Type}

namespace ExperimentEngine

variable {e : ExperimentEngine ρ}

/-! ## Batches of candidates -/

theorem deriveBatch_concat {index : ℕ} {points : List Point} {point : Point} {version : ℕ}
    {genomes : List SystemGenome} {genome : SystemGenome}
    (h : e.deriveBatch index points version = .ok genomes)
    (hpoint : e.deriveCandidate point (version + points.length) index = .ok genome) :
    e.deriveBatch index (points ++ [point]) version = .ok (genomes ++ [genome]) := by
  induction points generalizing version genomes with
  | nil =>
      obtain rfl : [] = genomes := Except.ok.inj h
      have hfirst : e.deriveCandidate point version index = .ok genome := hpoint
      simp only [List.nil_append, deriveBatch, hfirst, ok_bind]
      rfl
  | cons p points ih =>
      obtain ⟨g, hg, h⟩ := bind_eq_ok.mp h
      obtain ⟨rest, hrest, h⟩ := bind_eq_ok.mp h
      obtain rfl := Except.ok.inj h
      have hlast : e.deriveCandidate point (version + 1 + points.length) index = .ok genome := by
        rw [← hpoint, List.length_cons]
        congr 1
        omega
      simp only [List.cons_append, deriveBatch, hg, ok_bind, ih hrest hlast]
      rfl

theorem deriveBatch_getElem {index : ℕ} {points : List Point} {version : ℕ}
    {genomes : List SystemGenome} (h : e.deriveBatch index points version = .ok genomes)
    {i : ℕ} {genome : SystemGenome} (hi : genomes[i]? = some genome) :
    ∃ point, points[i]? = some point ∧
      e.deriveCandidate point (version + i) index = .ok genome := by
  induction points generalizing version genomes i with
  | nil =>
      obtain rfl : [] = genomes := Except.ok.inj h
      cases hi
  | cons p points ih =>
      obtain ⟨g, hg, h⟩ := bind_eq_ok.mp h
      obtain ⟨rest, hrest, h⟩ := bind_eq_ok.mp h
      obtain rfl := Except.ok.inj h
      cases i with
      | zero =>
          obtain rfl := Option.some.inj hi
          exact ⟨p, rfl, hg⟩
      | succ i =>
          obtain ⟨point, hpoint, hderive⟩ := ih hrest hi
          refine ⟨point, hpoint, ?_⟩
          rw [← hderive]
          congr 1
          omega

/-! ## What the checkpoint holds -/

/-- The rounds of the checkpoint on disk. -/
def diskBatches (disk : Option ExperimentCheckpoint) : List TellBatch :=
  (disk.map (·.tellBatches)).getD []

theorem tellBatches_loadCheckpoint (disk : Option ExperimentCheckpoint) :
    (e.loadCheckpoint disk).tellBatches = diskBatches disk := by
  cases disk with
  | none => rfl
  | some c =>
      unfold loadCheckpoint asRunning
      dsimp only
      split_ifs <;> rfl

theorem diskBatches_resaved (disk : Option ExperimentCheckpoint) :
    diskBatches (disk.map fun _ => e.loadCheckpoint disk) = diskBatches disk := by
  cases disk with
  | none => rfl
  | some c => exact tellBatches_loadCheckpoint (e := e) (some c)

/-- Rounds and the scores they are made of: the candidates are derived from the points of
    their round, numbered on from the first version, and told with their fitness. -/
inductive RecordedAs (e : ExperimentEngine ρ) : List TellBatch → List Scored → Prop where
  | nil : RecordedAs e [] []
  | snoc {batches : List TellBatch} {scores : List Scored} {batch : TellBatch}
      {news : List Scored} (h : RecordedAs e batches scores)
      (hderive : e.deriveBatch batches.length batch.points (e.firstVersion + scores.length) =
        .ok (news.map (·.genome)))
      (hfitness : batch.fitness = news.map (·.fitness))
      (hgeneration : ∀ s ∈ news, s.generation = batches.length) :
      RecordedAs e (batches ++ [batch]) (scores ++ news)

theorem RecordedAs.length {batches : List TellBatch} {scores : List Scored}
    (h : RecordedAs e batches scores) :
    (batches.map (·.points.length)).sum = scores.length := by
  induction h with
  | nil => rfl
  | snoc _ hderive _ _ ih =>
      have hlen := length_deriveBatch hderive
      rw [List.length_map] at hlen
      rw [List.map_append, List.sum_append, ih, List.length_append, hlen]
      simp

theorem RecordedAs.length_points {batches : List TellBatch} {scores : List Scored}
    (h : RecordedAs e batches scores) : (batches.flatMap (·.points)).length = scores.length := by
  rw [List.length_flatMap, h.length]

theorem RecordedAs.fitness {batches : List TellBatch} {scores : List Scored}
    (h : RecordedAs e batches scores) :
    batches.flatMap (·.fitness) = scores.map (·.fitness) := by
  induction h with
  | nil => rfl
  | snoc _ _ hfitness _ ih =>
      rw [List.flatMap_append, ih, List.map_append]
      simp [hfitness]

/-- A score on record is that of the candidate derived from the point at its place. -/
theorem RecordedAs.derived {batches : List TellBatch} {scores : List Scored}
    (h : RecordedAs e batches scores) {i : ℕ} {s : Scored} (hi : scores[i]? = some s) :
    ∃ point, (batches.flatMap (·.points))[i]? = some point ∧
      e.deriveCandidate point (e.firstVersion + i) s.generation = .ok s.genome := by
  induction h with
  | nil => cases hi
  | @snoc batches scores batch news h hderive _ hgeneration ih =>
      have hlen := h.length_points
      rw [List.flatMap_append]
      by_cases hold : i < scores.length
      · rw [List.getElem?_append_left hold] at hi
        obtain ⟨point, hpoint, hgenome⟩ := ih hi
        refine ⟨point, ?_, hgenome⟩
        rw [List.getElem?_append_left (by omega)]
        exact hpoint
      · rw [List.getElem?_append_right (by omega)] at hi
        have hgenome : (news.map (·.genome))[i - scores.length]? = some s.genome := by
          rw [List.getElem?_map, hi]
          rfl
        obtain ⟨point, hpoint, hcandidate⟩ := deriveBatch_getElem hderive hgenome
        refine ⟨point, ?_, ?_⟩
        · rw [List.getElem?_append_right (by omega), hlen]
          simpa using hpoint
        · rw [hgeneration s (List.mem_of_getElem? hi), ← hcandidate]
          congr 1
          omega

/-! ## What the log says last -/

/-- The scores are the last word of the log on the numbers from the first version on. -/
def Standing (e : ExperimentEngine ρ) (log : List EngineEvent) (scores : List Scored) : Prop :=
  ∀ i s, scores[i]? = some s →
    Dict.get? (latestByVersion log) (e.firstVersion + i) = some (s.payload e.genomeDigest)

theorem standing_nil : Standing e [] [] := by
  intro i s hi
  simp at hi

theorem Standing.quiet {log events : List EngineEvent} {scores : List Scored}
    (h : Standing e log scores) (hquiet : evaluations events = []) :
    Standing e (log ++ events) scores := by
  intro i s hi
  rw [latestByVersion_quiet log hquiet]
  exact h i s hi

/-- What a process that died had logged beyond the record is no longer spoken of. -/
theorem Standing.initial {log : List EngineEvent} {scores news : List Scored}
    (h : Standing e log (scores ++ news)) : Standing e log scores := by
  intro i s hi
  refine h i s ?_
  rw [List.getElem?_append_left (List.getElem?_eq_some_iff.mp hi).1]
  exact hi

/-- An evaluation under the next number leaves the last word on the others. -/
theorem Standing.evaluated {log : List EngineEvent} {scores : List Scored} {s : Scored}
    (h : Standing e log scores) (hversion : s.genome.version = e.firstVersion + scores.length) :
    Standing e (log ++ [.candidateEvaluated (s.payload e.genomeDigest)]) (scores ++ [s]) := by
  intro i t hi
  rw [latestByVersion_evaluated]
  have hpayload : (s.payload e.genomeDigest).version = e.firstVersion + scores.length :=
    hversion
  rw [hpayload]
  rcases lt_trichotomy i scores.length with hlt | rfl | hgt
  · rw [if_neg (by omega)]
    rw [List.getElem?_append_left hlt] at hi
    exact h i t hi
  · rw [if_pos rfl]
    rw [List.getElem?_concat_length] at hi
    rw [Option.some.inj hi]
  · rw [List.getElem?_eq_none (by rw [List.length_append, List.length_singleton]; omega)] at hi
    cases hi

/-! ## What a process holds -/

/-- The variables of a process agree with the rounds on disk and their `n` candidates. -/
structure Holds (e : ExperimentEngine ρ) (batches : List TellBatch) (n : ℕ) (p : Progress ρ) :
    Prop where
  tellBatches : p.ckpt.tellBatches = batches
  nextVersion : p.nextVersion = e.firstVersion + n
  generationIndex : p.generationIndex = batches.length

/-- The candidates derived so far are those of the first points. -/
structure Generating (e : ExperimentEngine ρ) (p : Progress ρ) (r : Round ρ) : Prop where
  derived : e.deriveBatch p.generationIndex (r.points.take r.genomes.length) p.nextVersion =
    .ok r.genomes
  fresh : r.scored = []

/-- The candidates evaluated so far are the first ones. -/
structure Evaluating (e : ExperimentEngine ρ) (p : Progress ρ) (r : Round ρ) : Prop where
  derived : e.deriveBatch p.generationIndex r.points p.nextVersion = .ok r.genomes
  scored : r.scored.map (·.genome) = r.genomes.take r.scored.length
  generation : ∀ s ∈ r.scored, s.generation = p.generationIndex

/-- All of them are evaluated. -/
structure Told (e : ExperimentEngine ρ) (p : Progress ρ) (r : Round ρ) : Prop where
  derived : e.deriveBatch p.generationIndex r.points p.nextVersion =
    .ok (r.scored.map (·.genome))
  generation : ∀ s ∈ r.scored, s.generation = p.generationIndex

def Stage.Holds (e : ExperimentEngine ρ) (batches : List TellBatch) (n : ℕ) :
    Stage ρ → Prop
  | .idle | .returned _ | .raised _ => True
  | .looping p | .saved p | .stopping p _ | .stopped p => ExperimentEngine.Holds e batches n p
  | .generating p r => ExperimentEngine.Holds e batches n p ∧ Generating e p r
  | .evaluating p r => ExperimentEngine.Holds e batches n p ∧ Evaluating e p r
  | .told p r => ExperimentEngine.Holds e batches n p ∧ Told e p r

/-- The scores of the generation under way. -/
def Stage.inFlight : Stage ρ → List Scored
  | .evaluating _ r | .told _ r => r.scored
  | _ => []

/-- The log, the checkpoint and the process tell one story. -/
structure Story (e : ExperimentEngine ρ) (j : Journal ρ) : Prop where
  recorded : RecordedAs e (diskBatches j.disk) j.recorded
  standing : Standing e j.log (j.recorded ++ j.stage.inFlight)
  stage : j.stage.Holds e (diskBatches j.disk) j.recorded.length

/-! ## What a step keeps -/

theorem load_holds {scores : List Scored} {disk : Option ExperimentCheckpoint}
    {p : Progress ρ} (hload : e.load disk = .ok p)
    (hrecorded : RecordedAs e (diskBatches disk) scores) :
    Holds e (diskBatches disk) scores.length p := by
  obtain ⟨hckpt, -, -, hnext, hindex⟩ := load_ok hload
  have hbatches := tellBatches_loadCheckpoint (e := e) disk
  refine ⟨?_, ?_, ?_⟩
  · rw [hckpt, hbatches]
  · rw [hnext, ExperimentCheckpoint.candidatesCompleted, hbatches, hrecorded.length]
  · rw [hindex, ExperimentCheckpoint.generationsCompleted, hbatches]

theorem scoreResults_ok {setup : SearchSetup} {generation : ℕ} {genome : SystemGenome}
    {results : List EvaluationResult} {timedOut : Bool} {s : Scored}
    (h : e.scoreResults setup generation genome results timedOut = .ok s) :
    s.genome = genome ∧ s.generation = generation := by
  obtain ⟨agg, -, h⟩ := bind_eq_ok.mp h
  obtain rfl := Except.ok.inj h
  exact ⟨rfl, rfl⟩

theorem scoreOutcome_ok {setup : SearchSetup} {generation : ℕ} {genome : SystemGenome}
    {outcome : EvaluationOutcome} {s : Scored}
    (h : e.scoreOutcome setup generation genome outcome = some (.ok s)) :
    s.genome = genome ∧ s.generation = generation := by
  cases outcome with
  | answered results => exact scoreResults_ok (Option.some.inj h)
  | timedOut =>
      obtain ⟨timeout, -, h⟩ := Option.map_eq_some_iff.mp h
      exact scoreResults_ok h
  | raised message => cases Option.some.inj h

theorem Generating.next {p : Progress ρ} {r : Round ρ} {point : Point} {genome : SystemGenome}
    (h : Generating e p r) (hpoint : r.points[r.genomes.length]? = some point)
    (hderive : e.deriveCandidate point (p.nextVersion + r.genomes.length)
      p.generationIndex = .ok genome) :
    Generating e p { r with genomes := r.genomes ++ [genome] } where
  derived := by
    obtain ⟨hlt, hget⟩ := List.getElem?_eq_some_iff.mp hpoint
    have htake : r.points.take (r.genomes.length + 1) =
        r.points.take r.genomes.length ++ [point] := by
      rw [List.take_succ_eq_append_getElem hlt, hget]
    have hlen : (r.points.take r.genomes.length).length = r.genomes.length := by
      rw [List.length_take]
      omega
    dsimp only
    rw [List.length_append, List.length_singleton, htake]
    refine deriveBatch_concat h.derived ?_
    rw [hlen]
    exact hderive
  fresh := h.fresh

theorem Generating.all {p : Progress ρ} {r : Round ρ} (h : Generating e p r)
    (hall : r.points[r.genomes.length]? = none) : Evaluating e p r := by
  have hle := List.getElem?_eq_none_iff.mp hall
  have hderived := h.derived
  rw [List.take_of_length_le hle] at hderived
  refine ⟨hderived, ?_, ?_⟩
  · rw [h.fresh]
    rfl
  · rw [h.fresh]
    simp

theorem Evaluating.next {p : Progress ρ} {r : Round ρ} {genome : SystemGenome} {s : Scored}
    (h : Evaluating e p r) (hgenome : r.genomes[r.scored.length]? = some genome)
    (hs : s.genome = genome) (hgeneration : s.generation = p.generationIndex) :
    Evaluating e p { r with scored := r.scored ++ [s] } where
  derived := h.derived
  scored := by
    obtain ⟨hlt, hget⟩ := List.getElem?_eq_some_iff.mp hgenome
    dsimp only
    rw [List.map_append, h.scored, List.length_append, List.length_singleton,
      List.take_succ_eq_append_getElem hlt, hget, List.map_singleton, hs]
  generation := by
    intro t ht
    rcases List.mem_append.mp ht with ht | ht
    · exact h.generation t ht
    · rw [List.mem_singleton.mp ht]
      exact hgeneration

/-- The candidate that is evaluated next has the next number. -/
theorem Evaluating.version {p : Progress ρ} {r : Round ρ} {genome : SystemGenome}
    (h : Evaluating e p r) (hgenome : r.genomes[r.scored.length]? = some genome) :
    genome.version = p.nextVersion + r.scored.length := by
  obtain ⟨point, -, hderive⟩ := deriveBatch_getElem h.derived hgenome
  exact (deriveCandidate_ok hderive).2.1

theorem Evaluating.told {p : Progress ρ} {r : Round ρ} (h : Evaluating e p r)
    (hall : r.scored.length = r.genomes.length) (strategy : SearchStrategy ρ) :
    Told e p { r with strategy := strategy } where
  derived := by
    dsimp only
    rw [h.scored, hall, List.take_length]
    exact h.derived
  generation := h.generation

/-- The story after a generation is saved. -/
theorem Story.saved {disk : Option ExperimentCheckpoint} {flag : Bool} {log : List EngineEvent}
    {rs : List Scored} {p : Progress ρ} {r : Round ρ} {recorded : ℚ≥0}
    (h : Story e ⟨disk, flag, log, .told p r, rs⟩) :
    Story e ⟨some (closeRound p r recorded).ckpt, flag, log,
      .saved (closeRound p r recorded), rs ++ r.scored⟩ := by
  have hstage : Holds e (diskBatches disk) rs.length p ∧ Told e p r := h.stage
  obtain ⟨hholds, htold⟩ := hstage
  have hbatches : diskBatches (some (closeRound p r recorded).ckpt) =
      diskBatches disk ++ [r.batch] := by
    rw [← hholds.tellBatches]
    rfl
  have hlen : r.points.length = r.scored.length := by
    rw [← length_deriveBatch htold.derived, List.length_map]
  have hderived := htold.derived
  have hgeneration := htold.generation
  rw [hholds.generationIndex, hholds.nextVersion] at hderived
  rw [hholds.generationIndex] at hgeneration
  refine ⟨?_, ?_, ?_⟩
  · rw [hbatches]
    exact .snoc h.recorded hderived rfl hgeneration
  · show Standing e log ((rs ++ r.scored) ++ [])
    rw [List.append_nil]
    exact h.standing
  · show Holds e (diskBatches (some (closeRound p r recorded).ckpt)) (rs ++ r.scored).length
      (closeRound p r recorded)
    refine ⟨rfl, ?_, ?_⟩
    · show p.nextVersion + r.points.length = e.firstVersion + (rs ++ r.scored).length
      rw [hholds.nextVersion, hlen, List.length_append]
      omega
    · show p.generationIndex + 1 = _
      rw [hbatches, hholds.generationIndex, List.length_append]
      rfl

/-- The story after an evaluation is logged. -/
theorem Story.evaluated {disk : Option ExperimentCheckpoint} {flag : Bool}
    {log : List EngineEvent} {rs : List Scored} {p : Progress ρ} {r : Round ρ}
    {genome : SystemGenome} {outcome : EvaluationOutcome} {s : Scored}
    (h : Story e ⟨disk, flag, log, .evaluating p r, rs⟩)
    (hgenome : r.genomes[r.scored.length]? = some genome)
    (hscore : e.scoreOutcome p.setup p.generationIndex genome outcome = some (.ok s)) :
    Story e ⟨disk, flag, log ++ [.candidateEvaluated (s.payload e.genomeDigest)],
      .evaluating p { r with scored := r.scored ++ [s] }, rs⟩ := by
  have hstage : Holds e (diskBatches disk) rs.length p ∧ Evaluating e p r := h.stage
  obtain ⟨hholds, hevaluating⟩ := hstage
  obtain ⟨hs, hgeneration⟩ := scoreOutcome_ok hscore
  have hstanding : Standing e log (rs ++ r.scored) := h.standing
  have hversion : s.genome.version = e.firstVersion + (rs ++ r.scored).length := by
    rw [hs, hevaluating.version hgenome, hholds.nextVersion, List.length_append]
    omega
  refine ⟨h.recorded, ?_, hholds, hevaluating.next hgenome hs hgeneration⟩
  show Standing e _ (rs ++ (r.scored ++ [s]))
  rw [← List.append_assoc]
  exact hstanding.evaluated hversion

/-- The last save of a run writes the same rounds. -/
theorem Story.closed {disk : Option ExperimentCheckpoint} {flag flag' : Bool}
    {log : List EngineEvent} {rs : List Scored} {p : Progress ρ} {reason : String}
    (h : Story e ⟨disk, flag, log, .stopping p reason, rs⟩) :
    Story e ⟨some (closeCheckpoint p.ckpt reason), flag', log,
      .stopped { p with ckpt := closeCheckpoint p.ckpt reason }, rs⟩ := by
  have hholds : Holds e (diskBatches disk) rs.length p := h.stage
  have hbatches : diskBatches (some (closeCheckpoint p.ckpt reason)) = diskBatches disk :=
    hholds.tellBatches
  refine ⟨?_, h.standing, ?_⟩
  · rw [hbatches]
    exact h.recorded
  · show Holds e (diskBatches (some (closeCheckpoint p.ckpt reason))) rs.length _
    rw [hbatches]
    exact ⟨hholds.tellBatches, hholds.nextVersion, hholds.generationIndex⟩

/-- Nothing of the generation under way is spoken of any more. -/
theorem Story.landed {j : Journal ρ} (h : Story e j) : Standing e j.log (j.recorded ++ []) := by
  rw [List.append_nil]
  exact h.standing.initial

theorem Story.opened {disk : Option ExperimentCheckpoint} {flag : Bool}
    {log : List EngineEvent} {rs : List Scored} (h : Story e ⟨disk, flag, log, .idle, rs⟩) :
    RecordedAs e (diskBatches (disk.map fun _ => e.loadCheckpoint disk)) rs ∧
      Standing e (e.openLog disk log) (rs ++ []) := by
  constructor
  · rw [diskBatches_resaved]
    exact h.recorded
  · unfold openLog
    split_ifs
    · exact h.standing.quiet rfl
    · exact h.standing

/-- Every step tells the same story to both stores. -/
theorem write_story {j j' : Journal ρ} {a : JournalAction} (h : Story e j)
    (hwrite : e.write j a = some j') : Story e j' := by
  cases write_wrote hwrite with
  | started hload =>
      obtain ⟨hrecorded, hstanding⟩ := h.opened
      refine ⟨hrecorded, hstanding, ?_⟩
      show Holds e (diskBatches (Option.map _ _)) _ _
      rw [diskBatches_resaved]
      exact load_holds hload h.recorded
  | notStarted => exact ⟨h.opened.1, h.opened.2, trivial⟩
  | leftLoop => exact ⟨h.recorded, h.standing, h.stage⟩
  | asked hopen =>
      obtain ⟨hgenomes, hscored⟩ := openRound_ok hopen
      refine ⟨h.recorded, h.standing, h.stage, ?_, hscored⟩
      rw [hgenomes]
      rfl
  | derived hpoint hderive =>
      obtain ⟨hholds, hgenerating⟩ := h.stage
      exact ⟨h.recorded, h.standing.quiet rfl, hholds, hgenerating.next hpoint hderive⟩
  | derivedAll hall =>
      obtain ⟨hholds, hgenerating⟩ := h.stage
      refine ⟨h.recorded, ?_, hholds, hgenerating.all hall⟩
      show Standing e _ (_ ++ Round.scored _)
      rw [hgenerating.fresh]
      exact h.standing
  | evaluated hgenome hscore => exact h.evaluated hgenome hscore
  | told hall =>
      obtain ⟨hholds, hevaluating⟩ := h.stage
      exact ⟨h.recorded, h.standing.quiet rfl, hholds, hevaluating.told hall _⟩
  | saved => exact h.saved
  | wentOn | hasConverged => exact ⟨h.recorded, h.standing, h.stage⟩
  | closed => exact h.closed
  | finalized | finalizeRaised => exact ⟨h.recorded, h.standing.quiet rfl, trivial⟩
  | stepRaised => exact ⟨h.recorded, h.landed, trivial⟩
  | crashed => exact ⟨h.recorded, h.landed, trivial⟩
  | cancelled => exact ⟨h.recorded, h.standing, h.stage⟩

/-! ## Between two processes -/

theorem deriveBatch_congr {e' : ExperimentEngine ρ}
    (h : e'.deriveCandidate = e.deriveCandidate) (index : ℕ) (points : List Point)
    (version : ℕ) : e'.deriveBatch index points version = e.deriveBatch index points version := by
  induction points generalizing version with
  | nil => rfl
  | cons point points ih => simp only [deriveBatch, h, ih]

/-- The story does not depend on the limits, the dataset or the code that evaluates. -/
theorem Story.between {j : Journal ρ} (h : Story e j) {e' : ExperimentEngine ρ}
    (hsame : e.SameCandidates e') : Story e' { j with stage := .idle } where
  recorded := by
    have hrecorded : ∀ {batches scores}, RecordedAs e batches scores →
        RecordedAs e' batches scores := by
      intro batches scores hr
      induction hr with
      | nil => exact .nil
      | snoc _ hbatch hfitness hgeneration ih =>
          refine .snoc ih ?_ hfitness hgeneration
          rw [deriveBatch_congr hsame.derive, hsame.firstVersion]
          exact hbatch
    exact hrecorded h.recorded
  standing := by
    intro i s hi
    rw [hsame.firstVersion, hsame.digest]
    exact h.landed i s hi
  stage := trivial

end ExperimentEngine

/-! ## The whole life -/

open ExperimentEngine

/-- What a chronicle keeps of the engine `e` it began with. -/
structure Chronicle.Tells (e : ExperimentEngine ρ) (c : Chronicle ρ) : Prop where
  story : Story c.engine c.journal
  derive : c.engine.deriveCandidate = e.deriveCandidate
  firstVersion : c.engine.firstVersion = e.firstVersion
  digest : c.engine.genomeDigest = e.genomeDigest

theorem Chronicle.Tells.next {e : ExperimentEngine ρ} {c c' : Chronicle ρ}
    {event : ChronicleEvent} (h : c.Tells e) (hnext : c.next event = some c') : c'.Tells e := by
  cases Chronicle.next_moved hnext with
  | wrote hwrite => exact ⟨write_story h.story hwrite, h.derive, h.firstVersion, h.digest⟩
  | tookOver hsame =>
      exact ⟨h.story.between hsame, hsame.derive.trans h.derive,
        hsame.firstVersion.trans h.firstVersion, hsame.digest.trans h.digest⟩

theorem Chronicle.tells {e : ExperimentEngine ρ} {events : List ChronicleEvent}
    {c : Chronicle ρ} (hrun : run Chronicle.next ⟨e, {}⟩ events = some c) : c.Tells e := by
  have hstart : Chronicle.Tells e ⟨e, {}⟩ :=
    ⟨⟨.nil, standing_nil, trivial⟩, rfl, rfl, rfl⟩
  exact run_invariant (fun _ _ _ h hnext => h.next hnext) hstart hrun

/-- The last evaluation that the log holds under a number. -/
def LastEvaluation (log : List EngineEvent) (version : ℕ) (payload : CandidateEvaluated) :
    Prop :=
  ∃ before after, evaluations log = before ++ payload :: after ∧ payload.version = version ∧
    ∀ later ∈ after, later.version ≠ version

theorem lastEvaluation_of_latest {log : List EngineEvent} {version : ℕ}
    {payload : CandidateEvaluated}
    (h : Dict.get? (latestByVersion log) version = some payload) :
    LastEvaluation log version payload := by
  obtain ⟨before, after, hsplit, hafter⟩ := Dict.get?_ofEntries_eq_some h
  obtain ⟨l₁, l₂, hlog, hbefore, hrest⟩ := List.map_eq_append_iff.mp hsplit
  obtain ⟨p, l₃, rfl, hp, hl₃⟩ := List.map_eq_cons_iff.mp hrest
  obtain ⟨hversion, rfl⟩ := Prod.mk.inj hp
  refine ⟨l₁, l₃, hlog, hversion, ?_⟩
  intro later hlater hsame
  refine hafter ?_
  rw [← hl₃, ← hsame]
  simpa [Dict.keys] using ⟨later, hlater, rfl⟩

/-- **One story.** Whatever runs, crashes, cancels and resumes have come about, and whatever
    the evaluations of a lost generation came to: for every candidate the checkpoint counts,
    the log has an evaluation under its number, and the last one - the one the candidates
    endpoint keeps - carries the fitness told for it and the hash of the genome derived from
    its point. -/
theorem log_tells_the_checkpoint (e : ExperimentEngine ρ) (events : List ChronicleEvent)
    (c : Chronicle ρ) (hrun : run Chronicle.next ⟨e, {}⟩ events = some c)
    (ckpt : ExperimentCheckpoint) (hdisk : c.journal.disk = some ckpt) (i : ℕ)
    (hi : i < ckpt.candidatesCompleted) :
    ∃ payload point genome,
      Dict.get? (latestByVersion c.journal.log) (e.firstVersion + i) = some payload ∧
      LastEvaluation c.journal.log (e.firstVersion + i) payload ∧
      (ckpt.tellBatches.flatMap (·.fitness))[i]? = some payload.fitness ∧
      (ckpt.tellBatches.flatMap (·.points))[i]? = some point ∧
      e.deriveCandidate point (e.firstVersion + i) payload.generation = .ok genome ∧
      payload.genomeHash = genome.hash e.genomeDigest := by
  obtain ⟨hstory, hderive, hfirst, hdigest⟩ := Chronicle.tells hrun
  have hbatches : diskBatches c.journal.disk = ckpt.tellBatches := by
    rw [hdisk]
    rfl
  have hrecorded : RecordedAs c.engine ckpt.tellBatches c.journal.recorded := by
    rw [← hbatches]
    exact hstory.recorded
  have hlt : i < c.journal.recorded.length := by
    rw [← hrecorded.length]
    exact hi
  obtain ⟨s, hs⟩ : ∃ s, c.journal.recorded[i]? = some s := ⟨_, List.getElem?_eq_getElem hlt⟩
  obtain ⟨point, hpoint, hgenome⟩ := hrecorded.derived hs
  have hlatest := hstory.standing.initial i s hs
  rw [hfirst] at hlatest hgenome
  rw [hderive] at hgenome
  refine ⟨_, point, s.genome, hlatest, lastEvaluation_of_latest hlatest, ?_, hpoint, hgenome, ?_⟩
  · rw [hrecorded.fitness, List.getElem?_map, hs]
    rfl
  · rw [← hdigest]
    rfl

section Example

/-- The example engine, with a timeout for its evaluations. -/
def impatientEngine : ExperimentEngine ℕ :=
  { exampleEngine with config := { exampleConfig with evaluationTimeoutSeconds := some 1 } }

/-- A process dies with its first candidate evaluated; its successor derives the candidate
    again, and this time it does not answer in time. -/
def exampleChronicle : List ChronicleEvent :=
  [.act .start, .act (.ask 0), .act .derive, .act .derive,
    .act (.evaluate (.answered
      [exampleEvaluator exampleEngine.baselineGenome.content (exampleChallenge 0)])),
    .act .crash,
    .act .start, .act (.ask 0), .act .derive, .act .derive, .act (.evaluate .timedOut),
    .act .tell, .act (.save 0)]

end Example

/-- The log has two evaluations of the one candidate, and the later one is on record. -/
theorem log_tells_the_checkpoint_timedOut : ∃ c ckpt payload,
    run Chronicle.next ⟨impatientEngine, {}⟩ exampleChronicle = some c ∧
    c.journal.disk = some ckpt ∧ (evaluations c.journal.log).map (·.timedOut) = [false, true] ∧
    LastEvaluation c.journal.log 2 payload ∧
    (ckpt.tellBatches.flatMap (·.fitness))[0]? = some payload.fitness := by
  have hfacts : (run Chronicle.next ⟨impatientEngine, {}⟩ exampleChronicle).map (fun c =>
      decide (recordedCandidates c.journal.disk = 1 ∧
        (evaluations c.journal.log).map (·.timedOut) = [false, true])) = some true := by
    decide +kernel
  obtain ⟨c, hc, hfacts⟩ := Option.map_eq_some_iff.mp hfacts
  obtain ⟨hone, htimedOut⟩ := of_decide_eq_true hfacts
  obtain ⟨ckpt, hckpt⟩ : ∃ ckpt, c.journal.disk = some ckpt := by
    cases hdisk : c.journal.disk with
    | none =>
        rw [hdisk] at hone
        exact absurd hone (by decide)
    | some ckpt => exact ⟨ckpt, rfl⟩
  have hcount : ckpt.candidatesCompleted = 1 := by
    rw [hckpt] at hone
    exact hone
  obtain ⟨payload, -, -, -, hlast, hfitness, -⟩ :=
    log_tells_the_checkpoint impatientEngine exampleChronicle c hc ckpt hckpt 0 (by omega)
  exact ⟨c, ckpt, payload, hc, hckpt, htimedOut, hlast, hfitness⟩

end NeuroForge
