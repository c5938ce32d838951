/-
  What the chart of candidates shows: `experiment_candidates` of `main.py`.

  The endpoint reads the event log alone. It keeps the last evaluation under each number and
  marks those that no other beats on quality against cost. That holds of every log
  (`chart_exact`), whatever processes wrote it; of the log of an experiment, the candidates on
  record keep their rows in every later chart, whatever crashes and resumes come between, and
  one beaten by another on record never returns to the frontier (`chart_keeps_recorded`).
-/
import NeuroForge.Evaluation.Pareto
import NeuroForge.Experiments.Story
import NeuroForge.Lib.NumberedText
import NeuroForge.Service.Requests

namespace NeuroForge

open Fallible Frontier Transition ExperimentEngine

/-! ## The endpoint -/

/-- A candidate of the response. -/
structure ChartedCandidate where
  genomeHash : String
  version : ℕ
  generation : ℕ
  fitness : ℚ
  metrics : Dict String ℚ
  isParetoOptimal : Bool
  deriving DecidableEq

def CandidateEvaluated.charted (payload : CandidateEvaluated) (isParetoOptimal : Bool) :
    ChartedCandidate where
  genomeHash := payload.genomeHash
  version := payload.version
  generation := payload.generation
  fitness := payload.fitness
  metrics := payload.metrics
  isParetoOptimal := isParetoOptimal

@[simp] theorem metrics_charted (payload : CandidateEvaluated) (optimal : Bool) :
    (payload.charted optimal).metrics = payload.metrics := rfl

@[simp] theorem isParetoOptimal_charted (payload : CandidateEvaluated) (optimal : Bool) :
    (payload.charted optimal).isParetoOptimal = optimal := rfl

def chartDirections : Dict String Direction :=
  [("quality", .maximize), ("cost_usd", .minimize)]

def chartId (version : ℕ) : String := s!"v{version}"

def CandidateEvaluated.point (payload : CandidateEvaluated) : ParetoPoint ℚ where
  candidateId := chartId payload.version
  metrics := [("quality", Dict.getD payload.metrics "quality" 0),
    ("cost_usd", Dict.getD payload.metrics "cost_usd" 0)]

/-- `pareto[f"v{version}"]` in the row of a candidate. -/
def chartRow (pareto : Dict String ParetoResult) (payload : CandidateEvaluated) :
    Except String ChartedCandidate :=
  match Dict.get? pareto (chartId payload.version) with
  | some result => .ok (payload.charted result.isParetoOptimal)
  | none => .error s!"KeyError: {chartId payload.version}"

def chart (log : List EngineEvent) : Except String (List ChartedCandidate) := do
  let events := (latestByVersion log).map Prod.snd
  let results ← paretoFrontier (events.map (·.point)) chartDirections
  events.mapM (chartRow (Dict.ofEntries (results.map fun r => (r.candidateId, r))))

/-- `experiment_candidates`; there is no log before the first run. -/
def experimentCandidates (log : Option (List EngineEvent)) :
    Except HttpError (List ChartedCandidate) :=
  match log with
  | none => .error ⟨404, "no events recorded yet for this experiment"⟩
  | some log =>
      match chart log with
      | .ok rows => .ok rows
      | .error _ => .error ⟨500, "Internal Server Error"⟩

/-! ## The rows -/

/-- At least as good in quality and in cost, and better in one of them. -/
def Beats (better worse : Dict String ℚ) : Prop :=
  Dict.getD worse "quality" 0 ≤ Dict.getD better "quality" 0 ∧
    Dict.getD better "cost_usd" 0 ≤ Dict.getD worse "cost_usd" 0 ∧
    (Dict.getD worse "quality" 0 < Dict.getD better "quality" 0 ∨
      Dict.getD better "cost_usd" 0 < Dict.getD worse "cost_usd" 0)

theorem dominates_point (a b : CandidateEvaluated) :
    Dominates chartDirections a.point b.point ↔ Beats a.metrics b.metrics := by
  simp [Dominates, chartDirections, CandidateEvaluated.point, Direction.AtLeastAsGood,
    Direction.Better, Dict.get?, Beats, and_assoc]

theorem measures_point (payload : CandidateEvaluated) :
    Measures chartDirections payload.point.metrics := by
  intro key hkey
  exact hkey

theorem chartId_inj {m n : ℕ} (h : chartId m = chartId n) : m = n := by
  have htexts := congrArg String.toList h
  simp only [chartId, String.toList_append, NumberedText.toList_toString] at htexts
  exact NumberedText.toDigits_inj (List.append_cancel_left htexts)

/-- What is kept under a number is the last evaluation under it. -/
theorem latest_iff {log : List EngineEvent} {version : ℕ} {payload : CandidateEvaluated} :
    Dict.get? (latestByVersion log) version = some payload ↔
      LastEvaluation log version payload := by
  refine ⟨lastEvaluation_of_latest, ?_⟩
  rintro ⟨before, after, hsplit, rfl, hafter⟩
  unfold latestByVersion
  rw [hsplit, List.map_append, List.map_cons]
  refine Dict.get?_ofEntries_last fun hmem => ?_
  obtain ⟨entry, hentry, hkey⟩ := List.mem_map.mp hmem
  obtain ⟨later, hlater, rfl⟩ := List.mem_map.mp hentry
  exact hafter later hlater hkey

theorem LastEvaluation.version_eq {log : List EngineEvent} {version : ℕ}
    {payload : CandidateEvaluated} (h : LastEvaluation log version payload) :
    payload.version = version := by
  obtain ⟨-, -, -, hversion, -⟩ := h
  exact hversion

theorem LastEvaluation.unique {log : List EngineEvent} {version : ℕ}
    {payload payload' : CandidateEvaluated} (h : LastEvaluation log version payload)
    (h' : LastEvaluation log version payload') : payload' = payload := by
  rw [← latest_iff] at h h'
  exact Option.some.inj (h'.symm.trans h)

theorem last_of_mem {log : List EngineEvent} {entry : ℕ × CandidateEvaluated}
    (h : entry ∈ latestByVersion log) : LastEvaluation log entry.1 entry.2 :=
  latest_iff.mp (Dict.get?_of_mem (Dict.nodup_keys_ofEntries _) h)

theorem mem_latest_iff {log : List EngineEvent} {payload : CandidateEvaluated} :
    payload ∈ (latestByVersion log).map Prod.snd ↔
      LastEvaluation log payload.version payload := by
  constructor
  · intro h
    obtain ⟨entry, hentry, rfl⟩ := List.mem_map.mp h
    have hlast := last_of_mem hentry
    rw [hlast.version_eq]
    exact hlast
  · intro h
    exact List.mem_map.mpr ⟨_, Dict.mem_of_get? (latest_iff.mpr h), rfl⟩

/-- No two of the kept evaluations have one number. -/
theorem nodup_versions (log : List EngineEvent) :
    (((latestByVersion log).map Prod.snd).map (·.version)).Nodup := by
  have hkeys : ((latestByVersion log).map Prod.snd).map (·.version) =
      Dict.keys (latestByVersion log) := by
    rw [List.map_map]
    exact List.map_congr_left fun entry hentry => (last_of_mem hentry).version_eq
  rw [hkeys]
  exact Dict.nodup_keys_ofEntries _

/-- A result is found under the id of its point. -/
theorem get?_results {points : List (ParetoPoint ℚ)}
    (hids : (points.map (·.candidateId)).Nodup) (ids : ParetoPoint ℚ → List String)
    {p : ParetoPoint ℚ} (hp : p ∈ points) :
    Dict.get? (Dict.ofEntries ((points.map fun p => p.result (ids p)).map fun r =>
      (r.candidateId, r))) p.candidateId = some (p.result (ids p)) := by
  rw [List.map_map]
  have hkeys : Dict.keys (points.map ((fun r : ParetoResult => (r.candidateId, r)) ∘
      fun p => p.result (ids p))) = points.map (·.candidateId) := by
    rw [Dict.keys, List.map_map]
    rfl
  have hnodup := hkeys ▸ hids
  rw [Dict.ofEntries_of_nodup hnodup]
  exact Dict.get?_of_mem hnodup (List.mem_map_of_mem
    (f := (fun r : ParetoResult => (r.candidateId, r)) ∘ fun p => p.result (ids p)) hp)

/-- The flag of a candidate in the chart of a log. -/
def onFrontier (log : List EngineEvent) (payload : CandidateEvaluated) : Bool :=
  (dominatorIds chartDirections (((latestByVersion log).map Prod.snd).map (·.point))
    payload.point).isEmpty

theorem chart_eq (log : List EngineEvent) : chart log =
    .ok (((latestByVersion log).map Prod.snd).map fun payload =>
      payload.charted (onFrontier log payload)) := by
  generalize hevents : (latestByVersion log).map Prod.snd = events
  have hversions : (events.map (·.version)).Nodup := hevents ▸ nodup_versions log
  have hids : ((events.map (·.point)).map (·.candidateId)).Nodup := by
    rw [List.map_map]
    have hinj : (events.map (·.version)).map chartId =
        events.map ((·.candidateId) ∘ (·.point)) := by
      rw [List.map_map]
      rfl
    rw [← hinj]
    exact hversions.map fun _ _ => chartId_inj
  have hmeasures : ∀ p ∈ events.map (·.point), Measures chartDirections p.metrics := by
    intro p hp
    obtain ⟨payload, -, rfl⟩ := List.mem_map.mp hp
    exact measures_point payload
  unfold chart
  rw [hevents]
  dsimp only
  rw [paretoFrontier_eq hids hmeasures, ok_bind]
  refine mapM_eq_ok fun payload hpayload => ?_
  have hfound := get?_results hids (dominatorIds chartDirections (events.map (·.point)))
    (List.mem_map_of_mem hpayload)
  change Dict.get? _ (chartId payload.version) = _ at hfound
  rw [chartRow, hfound, onFrontier, hevents]
  rfl

/-- A row of the chart shows an evaluation. -/
theorem mem_chart {log : List EngineEvent} {rows : List ChartedCandidate}
    (h : chart log = .ok rows) {row : ChartedCandidate} :
    row ∈ rows ↔ ∃ payload, LastEvaluation log payload.version payload ∧
      row = payload.charted (onFrontier log payload) := by
  rw [chart_eq] at h
  rw [← Except.ok.inj h, List.mem_map]
  constructor
  · rintro ⟨payload, hpayload, rfl⟩
    exact ⟨payload, mem_latest_iff.mp hpayload, rfl⟩
  · rintro ⟨payload, hlast, rfl⟩
    exact ⟨payload, mem_latest_iff.mpr hlast, rfl⟩

/-- An evaluation is on the frontier where no other one that is kept beats it. -/
theorem onFrontier_iff {log : List EngineEvent} {payload : CandidateEvaluated} :
    onFrontier log payload = true ↔
      ∀ other, LastEvaluation log other.version other → ¬ Beats other.metrics payload.metrics := by
  rw [onFrontier, List.isEmpty_iff, dominatorIds_eq_nil]
  constructor
  · intro h other hother hbeats
    exact h _ (List.mem_map_of_mem (mem_latest_iff.mpr hother))
      ((dominates_point other payload).mpr hbeats)
  · intro h point hpoint hdominates
    obtain ⟨other, hother, rfl⟩ := List.mem_map.mp hpoint
    exact h other (mem_latest_iff.mp hother) ((dominates_point other payload).mp hdominates)

theorem beaten_by_frontier {log : List EngineEvent} {payload : CandidateEvaluated}
    (hlast : LastEvaluation log payload.version payload)
    (hnot : onFrontier log payload = false) :
    ∃ best, LastEvaluation log best.version best ∧ onFrontier log best = true ∧
      Beats best.metrics payload.metrics := by
  have hmem : payload.point ∈ ((latestByVersion log).map Prod.snd).map (·.point) :=
    List.mem_map_of_mem (mem_latest_iff.mpr hlast)
  rcases undominated_or_beaten (Dominates chartDirections) (List.finite_toSet _) hmem with
    hund | ⟨point, hpoint, hdominates⟩
  · have hnil := (undominated_iff.mp hund).2
    rw [onFrontier, hnil] at hnot
    cases hnot
  · obtain ⟨hin, hnil⟩ := undominated_iff.mp hpoint
    obtain ⟨best, hbest, rfl⟩ := List.mem_map.mp hin
    refine ⟨best, mem_latest_iff.mp hbest, ?_, (dominates_point best payload).mp hdominates⟩
    rw [onFrontier, hnil]
    rfl

/-- **The chart is exact.** Of every log, whatever processes wrote it, the endpoint gives a
    chart without raising. It has one row for each number that was evaluated, with the last
    evaluation under it; a row is marked optimal exactly where no other row beats it on
    quality against cost, and every row that is not is beaten by one that is. -/
theorem chart_exact (log : List EngineEvent) : ∃ rows,
    experimentCandidates (some log) = .ok rows ∧ (rows.map (·.version)).Nodup ∧
      (∀ version payload, LastEvaluation log version payload →
        ∃ optimal, payload.charted optimal ∈ rows) ∧
      (∀ row ∈ rows, ∃ payload, LastEvaluation log row.version payload ∧
        row = payload.charted row.isParetoOptimal) ∧
      (∀ row ∈ rows, row.isParetoOptimal = true ↔
        ∀ other ∈ rows, ¬ Beats other.metrics row.metrics) ∧
      ∀ row ∈ rows, row.isParetoOptimal = false →
        ∃ best ∈ rows, best.isParetoOptimal = true ∧ Beats best.metrics row.metrics := by
  have hchart := chart_eq log
  refine ⟨_, by rw [experimentCandidates, hchart], ?_, ?_, ?_, ?_, ?_⟩
  · have hnodup := nodup_versions log
    generalize (latestByVersion log).map Prod.snd = events at hnodup ⊢
    rw [List.map_map]
    exact hnodup
  · intro version payload hlast
    obtain rfl := hlast.version_eq
    exact ⟨_, (mem_chart hchart).mpr ⟨payload, hlast, rfl⟩⟩
  · intro row hrow
    obtain ⟨payload, hlast, rfl⟩ := (mem_chart hchart).mp hrow
    exact ⟨payload, hlast, rfl⟩
  · intro row hrow
    obtain ⟨payload, hlast, rfl⟩ := (mem_chart hchart).mp hrow
    rw [isParetoOptimal_charted, metrics_charted, onFrontier_iff]
    refine ⟨fun h other hother => ?_, fun h other hother => ?_⟩
    · obtain ⟨payload', hlast', rfl⟩ := (mem_chart hchart).mp hother
      rw [metrics_charted]
      exact h payload' hlast'
    · have hnone := h _ ((mem_chart hchart).mpr ⟨other, hother, rfl⟩)
      rw [metrics_charted] at hnone
      exact hnone
  · intro row hrow hnot
    obtain ⟨payload, hlast, rfl⟩ := (mem_chart hchart).mp hrow
    obtain ⟨best, hbest, hoptimal, hbeats⟩ := beaten_by_frontier hlast hnot
    exact ⟨_, (mem_chart hchart).mpr ⟨best, hbest, rfl⟩, hoptimal, hbeats⟩

/-! ## Charts of one experiment -/

section Life

variable {ρ : Type} {e : ExperimentEngine ρ}

theorem recorded_write {j j' : Journal ρ} {a : JournalAction} (h : e.write j a = some j') :
    j.recorded <+: j'.recorded := by
  cases write_wrote h with
  | saved => exact List.prefix_append _ _
  | _ => exact List.prefix_rfl

/-- What is on record stays on record. -/
theorem recorded_grows {c c' : Chronicle ρ} {event : ChronicleEvent}
    (h : c.next event = some c') : c.journal.recorded <+: c'.journal.recorded := by
  cases Chronicle.next_moved h with
  | tookOver hsame => exact List.prefix_rfl
  | wrote hwrite => exact recorded_write hwrite

theorem recorded_grows_of_run {c c' : Chronicle ρ} {events : List ChronicleEvent}
    (h : run Chronicle.next c events = some c') :
    c.journal.recorded <+: c'.journal.recorded := by
  have hstep : ∀ (t : Chronicle ρ) (event : ChronicleEvent) (t' : Chronicle ρ),
      c.journal.recorded <+: t.journal.recorded → t.next event = some t' →
      c.journal.recorded <+: t'.journal.recorded :=
    fun t event t' ht hnext => ht.trans (recorded_grows hnext)
  exact run_invariant hstep List.prefix_rfl h

/-- The numbers of the candidates that a checkpoint records. -/
def IsRecorded (e : ExperimentEngine ρ) (ckpt : ExperimentCheckpoint) (version : ℕ) : Prop :=
  e.firstVersion ≤ version ∧ version < e.firstVersion + ckpt.candidatesCompleted

/-- The score on record is the last word of the log. -/
theorem Chronicle.Tells.last {c : Chronicle ρ} (h : c.Tells e) {i : ℕ} {s : Scored}
    (hs : c.journal.recorded[i]? = some s) : LastEvaluation c.journal.log (e.firstVersion + i)
      (s.payload e.genomeDigest) := by
  have hlatest := h.story.standing.initial i s hs
  rw [h.firstVersion, h.digest] at hlatest
  exact lastEvaluation_of_latest hlatest

/-- What a number on record stands for, now and in every later log. -/
theorem Chronicle.Tells.on_record {c c' : Chronicle ρ} (h : c.Tells e) (h' : c'.Tells e)
    (hgrows : c.journal.recorded <+: c'.journal.recorded) {ckpt : ExperimentCheckpoint}
    (hdisk : c.journal.disk = some ckpt) {version : ℕ} (hrecord : IsRecorded e ckpt version) :
    ∃ payload, LastEvaluation c.journal.log version payload ∧
      LastEvaluation c'.journal.log version payload ∧
      (ckpt.tellBatches.flatMap (·.fitness))[version - e.firstVersion]? =
        some payload.fitness := by
  obtain ⟨hfrom, hto⟩ := hrecord
  have hbatches : diskBatches c.journal.disk = ckpt.tellBatches := by
    rw [hdisk]
    rfl
  have hrecorded : RecordedAs c.engine ckpt.tellBatches c.journal.recorded :=
    hbatches ▸ h.story.recorded
  have hlt : version - e.firstVersion < c.journal.recorded.length := by
    have hlength : ckpt.candidatesCompleted = c.journal.recorded.length := hrecorded.length
    omega
  have hs := List.getElem?_eq_getElem hlt
  have hversion : e.firstVersion + (version - e.firstVersion) = version := by omega
  have hlast := h.last hs
  have hlast' := h'.last ((List.prefix_iff_getElem?.mp hgrows _ hlt))
  rw [hversion] at hlast hlast'
  refine ⟨_, hlast, hlast', ?_⟩
  rw [hrecorded.fitness, List.getElem?_map, hs]
  rfl

/-- **The chart keeps the record.** At every moment of every life of an experiment, whatever
    runs, crashes, cancels and resumes made it, the chart has a row for each candidate the
    checkpoint counts, with the fitness that was told for it; every later chart has the same
    row, but for its mark; and a candidate on record that another one on record beats is
    never marked optimal again. -/
theorem chart_keeps_recorded (e : ExperimentEngine ρ) (events : List ChronicleEvent)
    (c : Chronicle ρ) (hrun : run Chronicle.next ⟨e, {}⟩ events = some c)
    (ckpt : ExperimentCheckpoint) (hdisk : c.journal.disk = some ckpt)
    (later : List ChronicleEvent) (c' : Chronicle ρ)
    (hlater : run Chronicle.next c later = some c') :
    ∃ rows rows', experimentCandidates (some c.journal.log) = .ok rows ∧
      experimentCandidates (some c'.journal.log) = .ok rows' ∧
      (∀ version, IsRecorded e ckpt version →
        ∃ (payload : CandidateEvaluated) (optimal optimal' : Bool),
        payload.version = version ∧ payload.charted optimal ∈ rows ∧
        payload.charted optimal' ∈ rows' ∧
        (ckpt.tellBatches.flatMap (·.fitness))[version - e.firstVersion]? =
          some payload.fitness) ∧
      ∀ row ∈ rows, ∀ other ∈ rows, IsRecorded e ckpt row.version →
        IsRecorded e ckpt other.version → Beats other.metrics row.metrics →
        ∀ row' ∈ rows', row'.version = row.version → row'.isParetoOptimal = false := by
  have htells := Chronicle.tells hrun
  have hwhole : run Chronicle.next ⟨e, {}⟩ (events ++ later) = some c' := by
    rw [run_append, hrun]
    exact hlater
  have htells' := Chronicle.tells hwhole
  have hstay : ∀ version, IsRecorded e ckpt version → ∃ payload,
      LastEvaluation c.journal.log version payload ∧
      LastEvaluation c'.journal.log version payload ∧
      (ckpt.tellBatches.flatMap (·.fitness))[version - e.firstVersion]? =
        some payload.fitness :=
    fun _ => htells.on_record htells' (recorded_grows_of_run hlater) hdisk
  obtain ⟨rows, hrows, hnodup, hshown, hlast, -, -⟩ := chart_exact c.journal.log
  obtain ⟨rows', hrows', -, hshown', hlast', hoptimal', -⟩ := chart_exact c'.journal.log
  refine ⟨rows, rows', hrows, hrows', ?_, ?_⟩
  · intro version hrecord
    obtain ⟨payload, hnow, hthen, hfitness⟩ := hstay version hrecord
    obtain ⟨optimal, hmem⟩ := hshown version payload hnow
    obtain ⟨optimal', hmem'⟩ := hshown' version payload hthen
    exact ⟨payload, optimal, optimal', hnow.version_eq, hmem, hmem', hfitness⟩
  · intro row hrow other hother hrecord hrecorded hbeats row' hrow' hversion
    -- both numbers still stand for what they stood for
    obtain ⟨payload, hnow, hthen, -⟩ := hstay _ hrecord
    obtain ⟨rival, hrivalNow, hrivalThen, -⟩ := hstay _ hrecorded
    obtain ⟨shown, hshownLast, hrowEq⟩ := hlast row hrow
    obtain ⟨shown₂, hshownLast₂, hotherEq⟩ := hlast other hother
    obtain ⟨shown', hshownLast', hrowEq'⟩ := hlast' row' hrow'
    obtain ⟨optimal, hmem⟩ := hshown' _ rival hrivalThen
    rw [hversion] at hshownLast'
    rw [hnow.unique hshownLast] at hrowEq
    rw [hrivalNow.unique hshownLast₂] at hotherEq
    rw [hthen.unique hshownLast'] at hrowEq'
    refine Bool.eq_false_iff.mpr fun htrue => (hoptimal' row' hrow').mp htrue _ hmem ?_
    rw [hrowEq', metrics_charted, metrics_charted]
    rw [hrowEq, hotherEq, metrics_charted, metrics_charted] at hbeats
    exact hbeats

end Life

/-- The next process evaluates one more candidate, and dies in turn. -/
def exampleSuccessor : List ChronicleEvent :=
  [.act .crash, .act .start, .act (.ask 0), .act .derive, .act .derive,
    .act (.evaluate .timedOut), .act .crash]

/-- The candidate on record is charted before and after, with the fitness it timed out with. -/
theorem chart_keeps_recorded_resumed : ∃ c c' rows' row,
    run Chronicle.next ⟨impatientEngine, {}⟩ exampleChronicle = some c ∧
      run Chronicle.next c exampleSuccessor = some c' ∧
      experimentCandidates (some c'.journal.log) = .ok rows' ∧ row ∈ rows' ∧
      row.version = 2 ∧ row.fitness = 0 := by
  have hrun : ((run Chronicle.next ⟨impatientEngine, {}⟩ exampleChronicle).bind fun c =>
      (run Chronicle.next c exampleSuccessor).map fun _ => c.journal.disk.map fun ckpt =>
        (ckpt.candidatesCompleted, ckpt.tellBatches.flatMap (·.fitness))) =
      some (some (1, [0])) := by
    decide +kernel
  obtain ⟨c, hc, hrun⟩ := Option.bind_eq_some_iff.mp hrun
  obtain ⟨c', hc', hdisk⟩ := Option.map_eq_some_iff.mp hrun
  obtain ⟨ckpt, hckpt, hread⟩ := Option.map_eq_some_iff.mp hdisk
  obtain ⟨hcompleted, hfitness⟩ := Prod.mk.inj hread
  obtain ⟨rows, rows', -, hrows', hrecorded, -⟩ := chart_keeps_recorded impatientEngine
    exampleChronicle c hc ckpt hckpt exampleSuccessor c' hc'
  have hfirst : impatientEngine.firstVersion = 2 := by decide +kernel
  have hrecord : IsRecorded impatientEngine ckpt 2 := by
    refine ⟨hfirst.le, ?_⟩
    rw [hfirst, hcompleted]
    omega
  obtain ⟨payload, -, optimal, hversion, -, hmem, htold⟩ := hrecorded 2 hrecord
  rw [hfitness, hfirst] at htold
  exact ⟨c, c', rows', _, hc, hc', hrows', hmem, hversion, (Option.some.inj htold).symm⟩

end NeuroForge
