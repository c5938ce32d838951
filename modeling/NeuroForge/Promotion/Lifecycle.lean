/-
  `promotion/lifecycle.py`: the champion of an application, replayed from the approval log.

  `productionStack` is the replay, `reconcileProductionStatuses` brings the status column
  in step with it, and `promoteToProduction` and `rollbackProduction` are the two changes.
  Their checks are functions of their own, one for each query of the source, so that a
  transaction can also be followed query by query.

  `productionHashes_eq` ties the replay to `StackReplay`.
-/
import NeuroForge.Db.Repository
import NeuroForge.Lib.StackReplay

namespace NeuroForge

open Fallible Database

/-- The exceptions of this module. -/
inductive ProductionError where
  | unknownGenome (message : String)
  | alreadyPromoted (message : String)
  | notPromotable (message : String)
  | staleBaseline (message : String)
  | nothingInProduction (message : String)
  | unknownBaseline (message : String)
  deriving DecidableEq, Repr

/-- What each interface picks its status by. -/
def ProductionError.kind : ProductionError → String
  | .unknownGenome _ => "not_found"
  | .alreadyPromoted _ | .staleBaseline _ | .nothingInProduction _ => "conflict"
  | .notPromotable _ => "precondition"
  | .unknownBaseline _ => "invalid"

structure PromotionOutcome where
  promoted : GenomeRecord
  superseded : Option GenomeRecord

structure RollbackOutcome where
  rolledBack : GenomeRecord
  restored : Option GenomeRecord

section Definitions

variable (db : Database)

/-! ## The champion -/

/-- One turn of the replay. -/
def applyEvent (stack : List GenomeRecord) (event : PromotionApprovalRecord × GenomeRecord) :
    List GenomeRecord :=
  if event.1.action.getD .promote = .promote then
    stack.filter (·.hash ≠ event.2.hash) ++ [event.2]
  else stack.filter (·.hash ≠ event.2.hash)

/-- Genomes that have been in production and not rolled back, oldest first. -/
def productionStack (systemId : String) : List GenomeRecord :=
  (db.listProductionEvents systemId).foldl applyEvent []

def currentChampion (systemId : String) : Option GenomeRecord :=
  (productionStack db systemId).getLast?

/-- The application's v1: what runs when nothing has been promoted. -/
def originalBaseline (systemId : String) : Option GenomeRecord :=
  (db.listGenomesForSystem systemId).find? (·.version = 1)

/-- What is in production: the champion, or the original. -/
def inProduction (systemId : String) : Option GenomeRecord :=
  (currentChampion db systemId).or (originalBaseline db systemId)

/-- The status of the stack member at `index`. -/
def wantedStatus (size index : ℕ) : PromotionStatus :=
  if index + 1 = size then .promoted else .superseded

/-- One turn of the first loop: the wanted status of a stack member, if it has another. -/
def setWanted (loaded : String → Option PromotionStatus) (size : ℕ) (db : Database)
    (entry : GenomeRecord × ℕ) : Database :=
  if loaded entry.1.hash ≠ some (wantedStatus size entry.2) then
    db.setGenomeStatus entry.1.hash (wantedStatus size entry.2)
  else db

/-- One turn of the second loop: a genome out of production is not left as if in it. -/
def setRolledBack (loaded : String → Option PromotionStatus) (inStack : List String)
    (db : Database) (genome : GenomeRecord) : Database :=
  if genome.hash ∉ inStack ∧
      (loaded genome.hash = some .promoted ∨ loaded genome.hash = some .superseded) then
    db.setGenomeStatus genome.hash .rolledBack
  else db

/-- Makes the statuses of every genome that has been in production agree with the log. The
    statuses it compares are those the session has loaded, which may be older than the rows. -/
def reconcileProductionStatuses (loaded : String → Option PromotionStatus) (systemId : String) :
    Database :=
  let events := db.listProductionEvents systemId
  let stack := productionStack db systemId
  let inStack := stack.map (·.hash)
  (events.map (·.2)).foldl (setRolledBack loaded inStack)
    (stack.zipIdx.foldl (setWanted loaded stack.length) db)

/-- `int(text)` of a text of ASCII digits; the source reads the digits of other scripts too. -/
def parseDigits (text : List Char) : Option ℕ :=
  if text ≠ [] ∧ text.all (·.isDigit) then
    some (text.foldl (fun n c => 10 * n + (c.toNat - '0'.toNat)) 0)
  else none

/-- `text.partition("@v")`, if the text contains it. -/
def partitionVersion : List Char → Option (List Char × List Char)
  | [] => none
  | '@' :: 'v' :: rest => some ([], rest)
  | c :: cs => (partitionVersion cs).map fun parts => (c :: parts.1, parts.2)

/-- The genome an experiment starts from: `"champion"`, `"original"`, `<system>@v<N>` or a
    hash. -/
def resolveBaseline (systemId spec : String) : Except ProductionError (Option GenomeRecord) :=
  if spec = "champion" then .ok (inProduction db systemId)
  else if spec = "original" then .ok (originalBaseline db systemId)
  else
    match partitionVersion spec.toList with
    | some (name, digits) =>
        match parseDigits digits with
        | some version =>
            if String.ofList name ≠ systemId then
              .error (.unknownBaseline s!"'{spec}' is not a genome of '{systemId}'")
            else
              match (db.listGenomesForSystem systemId).find? (·.version = version) with
              | some r => .ok (some r)
              | none => .error (.unknownBaseline s!"no genome '{spec}'")
        | none => .error (.unknownBaseline s!"'{spec}' is not a genome of '{systemId}'")
    | none =>
        match db.getGenomeRecord spec with
        | some r =>
            if r.systemId = systemId then .ok (some r)
            else .error (.unknownBaseline s!"no genome '{spec}' for '{systemId}'")
        | none => .error (.unknownBaseline s!"no genome '{spec}' for '{systemId}'")

/-! ## Promotion -/

/-- A text that is there and not empty. -/
def nonEmpty (text : Option String) : Option String := text.filter (· ≠ "")

/-- The baseline hash a decision was measured against. -/
def validatedBy (systemId : String) (decision : PromotionRecord) : Option String := do
  let experimentId ← nonEmpty decision.experimentId
  let experiment ← db.getExperiment experimentId
  match nonEmpty experiment.config.baselineHash with
  | some hash => some hash
  -- experiments from before baselines were recorded
  | none => (originalBaseline db systemId).map (·.hash)

/-- `_validated_against`: the baseline of the genome's latest decision. -/
def validatedAgainst (genome : GenomeRecord) : Option String :=
  (db.latestPromotionDecision genome.hash).bind (validatedBy db genome.systemId)

/-- The comparison of `ensure_validated_against_production`. -/
def checkValidated (validated : Option String) (genome : GenomeRecord) :
    Except ProductionError Unit :=
  match validated, inProduction db genome.systemId with
  | some validated, some expected =>
      if validated = expected.hash then .ok ()
      else
        let which := if (currentChampion db genome.systemId).isSome then "the current champion"
          else "the original baseline"
        .error (.staleBaseline (s!"this candidate was validated against genome {validated}, " ++
          s!"but production is now {which} ({expected.hash}); re-run the experiment from the " ++
          "current champion"))
  | _, _ => .ok ()

def ensureValidatedAgainstProduction (genome : GenomeRecord) : Except ProductionError Unit :=
  checkValidated db (validatedAgainst db genome) genome

def loadGenome (genomeHash : String) : Except ProductionError GenomeRecord :=
  match db.getGenomeRecord genomeHash with
  | some genome => .ok genome
  | none => .error (.unknownGenome s!"unknown genome '{genomeHash}'")

def checkNotPromoted (genome : GenomeRecord) : Except ProductionError Unit :=
  if genome.status = .promoted then
    .error (.alreadyPromoted "this genome is already promoted")
  else .ok ()

/-- The latest decision, if it approves. -/
def approvedDecision (genomeHash : String) : Except ProductionError PromotionRecord :=
  match db.latestPromotionDecision genomeHash with
  | some decision =>
      if decision.approved then .ok decision
      else .error (.notPromotable "no approved promotion decision on record for this genome")
  | none => .error (.notPromotable "no approved promotion decision on record for this genome")

/-- A canary on record whose latest run did not roll back. -/
def checkCanary (genomeHash : String) : Except ProductionError Unit :=
  match db.latestCanaryRun genomeHash with
  | none => .error (.notPromotable
      "no canary run on record for this genome — run a canary before promoting")
  | some canary =>
      if canary.rollbackTriggered then
        .error (.notPromotable "the latest canary run triggered a rollback — cannot promote")
      else .ok ()

/-- The writes of a promotion whose checks have passed. -/
def commitPromotion (loaded : String → Option PromotionStatus) (genome : GenomeRecord)
    (experimentId : Option String) (approvedBy : String) (now : ℕ) :
    PromotionOutcome × Database :=
  ({ promoted := genome,
     superseded := (currentChampion db genome.systemId).filter (·.hash ≠ genome.hash) },
    reconcileProductionStatuses
      (db.savePromotionApproval genome.hash experimentId approvedBy .promote now) loaded
      genome.systemId)

/-- The human-approval gate: every precondition, then the change. -/
def promoteToProduction (genomeHash : String) (experimentId : Option String)
    (approvedBy : String) (now : ℕ) : Except ProductionError (PromotionOutcome × Database) := do
  let genome ← loadGenome db genomeHash
  checkNotPromoted genome
  let _ ← approvedDecision db genomeHash
  checkCanary db genomeHash
  ensureValidatedAgainstProduction db genome
  return commitPromotion db db.statusOf genome experimentId approvedBy now

/-- The writes of a rollback that found `current` on top of the stack. -/
def commitRollback (loaded : String → Option PromotionStatus) (systemId : String)
    (current : GenomeRecord) (approvedBy : String) (now : ℕ) : RollbackOutcome × Database :=
  ({ rolledBack := current, restored := (productionStack db systemId).dropLast.getLast? },
    reconcileProductionStatuses
      (db.savePromotionApproval current.hash none approvedBy .rollback now) loaded systemId)

/-- The champion a rollback takes out. -/
def championToRollBack (systemId : String) : Except ProductionError GenomeRecord :=
  match currentChampion db systemId with
  | some current => .ok current
  | none => .error (.nothingInProduction s!"'{systemId}' has no promoted genome to roll back")

def rollbackProduction (systemId : String) (approvedBy : String) (now : ℕ) :
    Except ProductionError (RollbackOutcome × Database) := do
  let current ← championToRollBack db systemId
  return commitRollback db db.statusOf systemId current approvedBy now

end Definitions

/-! ## The replayed log -/

/-- The application a genome belongs to, if it has a row. -/
def systemOf (db : Database) (hash : String) : Option String :=
  (db.getGenomeRecord hash).map (·.systemId)

/-- The event a row of the approval log stands for. -/
def approvalEvent (a : PromotionApprovalRecord) : StackReplay.Event String :=
  if a.action.getD .promote = .promote then .push a.genomeHash else .remove a.genomeHash

/-- The order of the approval log. -/
def approvalOrder (a b : PromotionApprovalRecord) : Prop :=
  toLex (a.createdAt, a.id) ≤ toLex (b.createdAt, b.id)

instance : DecidableRel approvalOrder := fun a b =>
  inferInstanceAs (Decidable (toLex (a.createdAt, a.id) ≤ toLex (b.createdAt, b.id)))

/-- The rows of the approval log that concern one application, in their order. -/
def systemApprovals (db : Database) (systemId : String) : List PromotionApprovalRecord :=
  (db.approvals.filter fun a => systemOf db a.genomeHash = some systemId).insertionSort
    approvalOrder

/-- The production events of one application. -/
def productionLog (db : Database) (systemId : String) : List (StackReplay.Event String) :=
  (systemApprovals db systemId).map approvalEvent

/-- The hashes of the production stack. -/
def productionHashes (db : Database) (systemId : String) : List String :=
  (productionStack db systemId).map (·.hash)

section Replay

variable {db : Database}

theorem mem_listProductionEvents {systemId : String}
    {event : PromotionApprovalRecord × GenomeRecord} :
    event ∈ db.listProductionEvents systemId ↔
      event.1 ∈ db.approvals ∧ db.getGenomeRecord event.1.genomeHash = some event.2 ∧
        event.2.systemId = systemId := by
  obtain ⟨a, g⟩ := event
  unfold Database.listProductionEvents
  rw [List.mem_insertionSort, List.mem_filter, List.mem_filterMap]
  constructor
  · rintro ⟨⟨a', ha', hmap⟩, hsys⟩
    obtain ⟨g', hg', heq⟩ := Option.map_eq_some_iff.mp hmap
    obtain ⟨rfl, rfl⟩ := Prod.mk.inj heq
    exact ⟨ha', hg', by simpa using hsys⟩
  · rintro ⟨ha, hg, hsys⟩
    refine ⟨⟨a, ha, ?_⟩, by simpa using hsys⟩
    dsimp only at hg
    rw [hg]
    rfl

/-- The approvals behind the production events. -/
theorem listProductionEvents_approvals (systemId : String) :
    (db.listProductionEvents systemId).map Prod.fst = systemApprovals db systemId := by
  unfold Database.listProductionEvents systemApprovals
  refine (List.map_insertionSort _ approvalOrder Prod.fst _ fun _ _ _ _ => Iff.rfl).trans ?_
  congr 1
  unfold systemOf
  induction db.approvals with
  | nil => rfl
  | cons a as ih =>
      rw [List.filterMap_cons, List.filter_cons]
      cases hg : db.getGenomeRecord a.genomeHash with
      | none => simpa [hg] using ih
      | some g =>
          by_cases hs : g.systemId = systemId
          · simpa [hg, hs] using ih
          · simpa [hg, hs] using ih

theorem filter_map_hash (stack : List GenomeRecord) (hash : String) :
    (stack.filter (·.hash ≠ hash)).map (·.hash) = (stack.map (·.hash)).filter (· ≠ hash) := by
  rw [List.filter_map]
  rfl

/-- The stack the source builds of genome rows is the replay of the log's events. -/
theorem productionHashes_eq (systemId : String) :
    productionHashes db systemId = StackReplay.replay (productionLog db systemId) := by
  unfold productionHashes productionStack productionLog StackReplay.replay
  rw [← listProductionEvents_approvals, List.map_map, List.foldl_map]
  have hevents : ∀ event ∈ db.listProductionEvents systemId,
      event.1.genomeHash = event.2.hash := fun event hevent =>
    (hash_of_getGenomeRecord (mem_listProductionEvents.mp hevent).2.1).symm
  rw [show ([] : List String) = ([] : List GenomeRecord).map (·.hash) from rfl]
  generalize ([] : List GenomeRecord) = stack
  generalize db.listProductionEvents systemId = events at hevents
  induction events generalizing stack with
  | nil => rfl
  | cons event events ih =>
      rw [List.foldl_cons, List.foldl_cons,
        ih _ fun e he => hevents e (List.mem_cons_of_mem _ he)]
      congr 1
      have hhash := hevents event List.mem_cons_self
      dsimp only [Function.comp, approvalEvent, applyEvent]
      by_cases hpush : event.1.action.getD .promote = .promote
      · rw [if_pos hpush, if_pos hpush, List.map_append, filter_map_hash, hhash]
        rfl
      · rw [if_neg hpush, if_neg hpush, filter_map_hash, hhash]
        rfl

theorem productionHashes_nodup (systemId : String) : (productionHashes db systemId).Nodup := by
  rw [productionHashes_eq]
  exact StackReplay.replay_nodup _

theorem getLast?_productionHashes (systemId : String) :
    (productionHashes db systemId).getLast? = (currentChampion db systemId).map (·.hash) :=
  List.getLast?_map

/-- A member of the stack is the row of a genome of the application. -/
theorem getGenomeRecord_of_mem_stack {systemId : String} {r : GenomeRecord}
    (h : r ∈ productionStack db systemId) :
    db.getGenomeRecord r.hash = some r ∧ r.systemId = systemId := by
  unfold productionStack at h
  have hall : ∀ (events : List (PromotionApprovalRecord × GenomeRecord))
      (stack : List GenomeRecord), r ∈ events.foldl applyEvent stack →
      r ∈ stack ∨ r ∈ events.map (·.2) := by
    intro events
    induction events with
    | nil => exact fun stack hr => .inl hr
    | cons event events ih =>
        intro stack hr
        rcases ih _ hr with hr | hr
        · unfold applyEvent at hr
          split_ifs at hr with hpush
          · rcases List.mem_append.mp hr with hr | hr
            · exact .inl (List.mem_of_mem_filter hr)
            · rw [List.mem_singleton.mp hr]
              exact .inr List.mem_cons_self
          · exact .inl (List.mem_of_mem_filter hr)
        · exact .inr (List.mem_cons_of_mem _ hr)
  rcases hall _ _ h with hr | hr
  · cases hr
  · obtain ⟨event, hevent, rfl⟩ := List.mem_map.mp hr
    obtain ⟨-, hget, hsys⟩ := mem_listProductionEvents.mp hevent
    rw [hash_of_getGenomeRecord hget]
    exact ⟨hget, hsys⟩

theorem systemOf_of_mem_productionHashes {systemId hash : String}
    (h : hash ∈ productionHashes db systemId) : systemOf db hash = some systemId := by
  obtain ⟨r, hr, rfl⟩ := List.mem_map.mp h
  obtain ⟨hget, hsys⟩ := getGenomeRecord_of_mem_stack hr
  unfold systemOf
  rw [hget, ← hsys]
  rfl

end Replay

/-! ## The original -/

section Stable

variable {α : Type} {r : α → α → Prop} [DecidableRel r] {p : α → Bool}

theorem find?_orderedInsert {a : α} {l : List α} (h : ∀ b ∈ l, p a = true → p b = true → r a b) :
    (l.orderedInsert r a).find? p = if p a = true then some a else l.find? p := by
  induction l with
  | nil => rw [List.orderedInsert_nil, List.find?_singleton, List.find?_nil]
  | cons b l ih =>
      rw [List.orderedInsert_cons]
      split_ifs with hab ha ha
      · rw [List.find?_cons_of_pos ha]
      · rw [List.find?_cons_of_neg ha]
      · have hb : ¬ p b = true := fun hb => hab (h b List.mem_cons_self ha hb)
        rw [List.find?_cons_of_neg hb, ih fun c hc => h c (List.mem_cons_of_mem _ hc), if_pos ha]
      · by_cases hb : p b = true
        · rw [List.find?_cons_of_pos hb, List.find?_cons_of_pos hb]
        · rw [List.find?_cons_of_neg hb, List.find?_cons_of_neg hb,
            ih fun c hc => h c (List.mem_cons_of_mem _ hc), if_neg ha]

/-- Sorting is stable: the first of some elements the order does not tell apart stays the
    first of them. -/
theorem find?_insertionSort {l : List α} (h : ∀ a ∈ l, ∀ b ∈ l, p a = true → p b = true → r a b) :
    (l.insertionSort r).find? p = l.find? p := by
  induction l with
  | nil => rfl
  | cons a l ih =>
      have hl : ∀ a ∈ l, ∀ b ∈ l, p a = true → p b = true → r a b := fun b hb c hc =>
        h b (List.mem_cons_of_mem _ hb) c (List.mem_cons_of_mem _ hc)
      rw [List.insertionSort_cons, find?_orderedInsert, ih hl, List.find?_cons]
      · rcases p a <;> rfl
      · intro b hb
        exact h a List.mem_cons_self b (List.mem_cons_of_mem _ (List.mem_insertionSort r |>.mp hb))

end Stable

/-- The original is the first v1 that was stored. -/
theorem originalBaseline_eq (db : Database) (systemId : String) :
    originalBaseline db systemId =
      db.genomes.find? fun r => r.systemId = systemId ∧ r.version = 1 := by
  unfold originalBaseline listGenomesForSystem
  rw [find?_insertionSort]
  · rw [List.find?_filter]
    congr 1
    funext r
    simp
  · intro a _ b _ ha hb
    rw [decide_eq_true_eq] at ha hb
    rw [ha, hb]

end NeuroForge
