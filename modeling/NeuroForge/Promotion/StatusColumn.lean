/-
  The status column: what a reconciliation makes of it, and what does not depend on it.

  `statusOf_reconcile` gives every status after a reconciliation. It and every other status
  write leave the rest of the database alone (`eraseStatus`), so the log and the stack of what
  is in production are the same before and after (`productionHashes_congr`).
-/
import NeuroForge.Promotion.Lifecycle

namespace NeuroForge

open Database

/-! ## Reconciliation -/

section Reconcile

variable {db : Database} {loaded : String → Option PromotionStatus}

theorem statusOf_setWanted (size : ℕ) (entry : GenomeRecord × ℕ) (hash : String) :
    (setWanted loaded size db entry).statusOf hash = (db.statusOf hash).map fun st =>
      if hash = entry.1.hash ∧ loaded hash ≠ some (wantedStatus size entry.2) then
        wantedStatus size entry.2
      else st := by
  unfold setWanted
  by_cases hh : hash = entry.1.hash
  · subst hh
    by_cases hw : loaded entry.1.hash = some (wantedStatus size entry.2) <;>
      simp [statusOf_setGenomeStatus, hw]
  · simp only [hh, false_and, if_false]
    split_ifs <;> simp [statusOf_setGenomeStatus, hh]

theorem statusOf_setRolledBack (inStack : List String) (genome : GenomeRecord)
    (hash : String) :
    (setRolledBack loaded inStack db genome).statusOf hash = (db.statusOf hash).map fun st =>
      if hash = genome.hash ∧ hash ∉ inStack ∧
          (loaded hash = some .promoted ∨ loaded hash = some .superseded) then .rolledBack
      else st := by
  unfold setRolledBack
  by_cases hh : hash = genome.hash
  · subst hh
    by_cases hw : genome.hash ∉ inStack ∧
        (loaded genome.hash = some .promoted ∨ loaded genome.hash = some .superseded)
    · rw [if_pos hw]
      simp [statusOf_setGenomeStatus, hw]
    · rw [if_neg hw]
      simp [hw]
  · simp only [hh, false_and, if_false]
    split_ifs <;> simp [statusOf_setGenomeStatus, hh]

/-- The first loop leaves every genome outside the stack alone. -/
theorem statusOf_foldl_setWanted_of_not_mem {size : ℕ} {entries : List (GenomeRecord × ℕ)}
    {hash : String} (h : hash ∉ entries.map (·.1.hash)) :
    (entries.foldl (setWanted loaded size) db).statusOf hash = db.statusOf hash := by
  induction entries generalizing db with
  | nil => rfl
  | cons entry entries ih =>
      rw [List.map_cons, List.mem_cons, not_or] at h
      rw [List.foldl_cons, ih h.2, statusOf_setWanted]
      simp [h.1]

/-- The first loop gives a member of the stack the status of its place. -/
theorem statusOf_foldl_setWanted {size : ℕ} {entries : List (GenomeRecord × ℕ)}
    (hnd : (entries.map (·.1.hash)).Nodup) {entry : GenomeRecord × ℕ} (h : entry ∈ entries) :
    (entries.foldl (setWanted loaded size) db).statusOf entry.1.hash =
      (db.statusOf entry.1.hash).map fun st =>
        if loaded entry.1.hash ≠ some (wantedStatus size entry.2) then wantedStatus size entry.2
        else st := by
  induction entries generalizing db with
  | nil => cases h
  | cons first entries ih =>
      rw [List.map_cons, List.nodup_cons] at hnd
      rw [List.foldl_cons]
      rcases List.mem_cons.mp h with rfl | h
      · rw [statusOf_foldl_setWanted_of_not_mem hnd.1, statusOf_setWanted]
        simp only [true_and]
      · have hne : entry.1.hash ≠ first.1.hash := fun heq =>
          hnd.1 (heq ▸ List.mem_map_of_mem h)
        rw [ih hnd.2 h, statusOf_setWanted]
        simp only [hne, false_and, if_false, Option.map_id_fun', id]

theorem statusOf_foldl_setRolledBack (inStack : List String) (genomes : List GenomeRecord)
    (hash : String) :
    (genomes.foldl (setRolledBack loaded inStack) db).statusOf hash =
      (db.statusOf hash).map fun st =>
        if hash ∈ genomes.map (·.hash) ∧ hash ∉ inStack ∧
            (loaded hash = some .promoted ∨ loaded hash = some .superseded) then .rolledBack
        else st := by
  induction genomes generalizing db with
  | nil => simp
  | cons genome genomes ih =>
      rw [List.foldl_cons, ih, statusOf_setRolledBack, Option.map_map]
      congr 1
      funext st
      simp only [Function.comp, List.map_cons, List.mem_cons]
      split_ifs <;> tauto

/-- The place of a stack member is last exactly when it is the champion. -/
theorem wantedStatus_of_mem_zipIdx {stack : List GenomeRecord} {entry : GenomeRecord × ℕ}
    (hnd : (stack.map (·.hash)).Nodup) (h : entry ∈ stack.zipIdx) :
    wantedStatus stack.length entry.2 =
      if (stack.map (·.hash)).getLast? = some entry.1.hash then .promoted else .superseded := by
  obtain ⟨r, i⟩ := entry
  have hget : stack[i]? = some r := List.mem_zipIdx_iff_getElem?.mp h
  have hi : i < stack.length := (List.getElem?_eq_some_iff.mp hget).1
  have hgeti : (stack.map (·.hash))[i]? = some r.hash := by
    rw [List.getElem?_map, hget]
    rfl
  have hlast : (stack.map (·.hash)).getLast? = (stack.map (·.hash))[stack.length - 1]? := by
    rw [List.getLast?_eq_getElem?, List.length_map]
  unfold wantedStatus
  dsimp only
  have hiff : i + 1 = stack.length ↔ (stack.map (·.hash)).getLast? = some r.hash := by
    rw [hlast, ← hgeti]
    constructor
    · intro hsize
      rw [show stack.length - 1 = i by omega]
    · intro heq
      have hsame := (List.getElem?_inj (by rw [List.length_map]; omega) hnd).mp heq
      omega
  simp only [hiff]

/-- The status the log gives a member of the stack. -/
def stackStatus (db : Database) (systemId hash : String) : PromotionStatus :=
  if (productionHashes db systemId).getLast? = some hash then .promoted else .superseded

theorem stackStatus_cases (db : Database) (systemId hash : String) :
    stackStatus db systemId hash = .promoted ∨ stackStatus db systemId hash = .superseded := by
  unfold stackStatus
  split_ifs
  · exact .inl rfl
  · exact .inr rfl

/-- The genomes an application's log mentions. -/
def mentioned (db : Database) (systemId : String) : List String :=
  (productionLog db systemId).map StackReplay.Event.subject

theorem mentioned_eq (systemId : String) :
    mentioned db systemId = (db.listProductionEvents systemId).map (·.2.hash) := by
  unfold mentioned productionLog
  rw [← listProductionEvents_approvals, List.map_map, List.map_map]
  refine List.map_congr_left fun event hevent => ?_
  rw [hash_of_getGenomeRecord (mem_listProductionEvents.mp hevent).2.1]
  dsimp only [Function.comp, approvalEvent]
  split_ifs <;> rfl

/-- What a reconciliation makes of every status. -/
theorem statusOf_reconcile (systemId hash : String) :
    (reconcileProductionStatuses db loaded systemId).statusOf hash =
      (db.statusOf hash).map fun st =>
        if hash ∈ productionHashes db systemId then
          if loaded hash ≠ some (stackStatus db systemId hash) then
            stackStatus db systemId hash
          else st
        else if hash ∈ mentioned db systemId ∧
            (loaded hash = some .promoted ∨ loaded hash = some .superseded) then .rolledBack
        else st := by
  unfold reconcileProductionStatuses
  rw [statusOf_foldl_setRolledBack, List.map_map, show (GenomeRecord.hash ∘ fun
    x : PromotionApprovalRecord × GenomeRecord => x.2) = (fun x => x.2.hash) from rfl,
    ← mentioned_eq]
  have hzip : (productionStack db systemId).zipIdx.map (·.1.hash) =
      productionHashes db systemId := by
    unfold productionHashes
    rw [← List.zipIdx_map_fst 0 (productionStack db systemId), List.map_map]
    simp
  have hnd : (productionHashes db systemId).Nodup := productionHashes_nodup systemId
  by_cases hin : hash ∈ productionHashes db systemId
  · obtain ⟨entry, hentry, rfl⟩ := List.mem_map.mp (hzip.symm ▸ hin)
    rw [statusOf_foldl_setWanted (hzip ▸ hnd) hentry, Option.map_map]
    congr 1
    funext st
    have hwanted : wantedStatus (productionStack db systemId).length entry.2 =
        stackStatus db systemId entry.1.hash := wantedStatus_of_mem_zipIdx hnd hentry
    have hnot : ¬ (entry.1.hash ∉ (productionStack db systemId).map (·.hash)) :=
      not_not_intro hin
    simp only [Function.comp, hwanted, hnot, hin, false_and, and_false, if_false, if_true]
  · rw [statusOf_foldl_setWanted_of_not_mem (hzip ▸ hin)]
    have hnot : hash ∉ (productionStack db systemId).map (·.hash) := hin
    simp only [hnot, hin, not_false_eq_true, true_and, if_false]

/-! ## What does not depend on the status column -/

theorem eraseStatus_foldl {α : Type} (f : Database → α → Database)
    (hf : ∀ db a, (f db a).eraseStatus = db.eraseStatus) (as : List α) :
    (as.foldl f db).eraseStatus = db.eraseStatus := by
  induction as generalizing db with
  | nil => rfl
  | cons a as ih => rw [List.foldl_cons, ih, hf]

/-- A reconciliation changes the status column only. -/
@[simp] theorem eraseStatus_reconcile (systemId : String) :
    (reconcileProductionStatuses db loaded systemId).eraseStatus = db.eraseStatus := by
  unfold reconcileProductionStatuses
  rw [eraseStatus_foldl, eraseStatus_foldl]
  · intro db entry
    unfold setWanted
    split_ifs <;> simp
  · intro db genome
    unfold setRolledBack
    split_ifs <;> simp

end Reconcile

/-- The hash of what is in production. -/
def productionHash (db : Database) (systemId : String) : Option String :=
  (inProduction db systemId).map (·.hash)

section EraseStatus

variable {db db' : Database}

theorem systemOf_eraseStatus (hash : String) :
    systemOf db.eraseStatus hash = systemOf db hash := by
  unfold systemOf
  rw [getGenomeRecord_eraseStatus, Option.map_map]
  rfl

theorem productionLog_eraseStatus (systemId : String) :
    productionLog db.eraseStatus systemId = productionLog db systemId := by
  unfold productionLog systemApprovals
  simp only [systemOf_eraseStatus]
  rfl

theorem originalBaseline_eraseStatus (systemId : String) :
    (originalBaseline db.eraseStatus systemId).map (·.hash) =
      (originalBaseline db systemId).map (·.hash) := by
  unfold originalBaseline
  rw [listGenomesForSystem_eraseStatus, List.find?_map, Option.map_map]
  rfl

theorem productionHash_eq (systemId : String) :
    productionHash db systemId = (productionHashes db systemId).getLast?.or
      ((originalBaseline db systemId).map (·.hash)) := by
  unfold productionHash inProduction
  rw [getLast?_productionHashes, Option.map_or]

variable (h : db'.eraseStatus = db.eraseStatus)
include h

theorem systemOf_congr (hash : String) : systemOf db' hash = systemOf db hash := by
  rw [← systemOf_eraseStatus, h, systemOf_eraseStatus]

theorem productionLog_congr (systemId : String) :
    productionLog db' systemId = productionLog db systemId := by
  rw [← productionLog_eraseStatus, h, productionLog_eraseStatus]

theorem productionHashes_congr (systemId : String) :
    productionHashes db' systemId = productionHashes db systemId := by
  rw [productionHashes_eq, productionLog_congr h, productionHashes_eq]

theorem stackStatus_congr (systemId hash : String) :
    stackStatus db' systemId hash = stackStatus db systemId hash := by
  rw [stackStatus, productionHashes_congr h, stackStatus]

theorem originalBaseline_congr (systemId : String) :
    (originalBaseline db' systemId).map (·.hash) = (originalBaseline db systemId).map (·.hash) := by
  rw [← originalBaseline_eraseStatus, h, originalBaseline_eraseStatus]

end EraseStatus

end NeuroForge
