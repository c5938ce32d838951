/-
  What `propose` returns.

  One attempt either changes nothing but the generator or adds a child with a new signature
  (`attempt_spec`). A child's signature can be read off its configuration and its parent's
  (`signature_eq`), because every change is real and every field is changed once; so children
  with different signatures have different contents.
-/
import NeuroForge.Mutations.Engine

namespace NeuroForge

open Fallible Assignable

variable {ρ : Type}

theorem choice_mem {α : Type} (rng : Rng ρ) {xs : List α} (h : xs ≠ []) (s : ρ) :
    (rng.choice xs h s).1 ∈ xs := List.get_mem _ _

theorem mem_of_mem_sample {α : Type} {rng : Rng ρ} {xs : List α} {k : ℕ} {s : ρ} {x : α}
    (h : x ∈ (rng.sample xs k s).1) : x ∈ xs := by
  obtain ⟨j, -, rfl⟩ := List.mem_map.mp h
  exact List.get_mem _ _

/-! ## One set of proposals -/

/-- Real changes of distinct fields, all of them allowed. -/
structure Gathered (policy : ChangePolicy) (c : GenomeConfig) (touched : List String)
    (proposals : List MutationProposal) : Prop where
  proposes : ∀ p ∈ proposals, ∃ f, Proposes c p f
  allowed : ∀ p ∈ proposals, policy.isAllowed p.fieldPath = true
  fresh : ∀ p ∈ proposals, p.fieldPath ∉ touched
  nodup : (proposals.map (·.fieldPath)).Nodup

/-- The proposals are assignments that each change something. -/
theorem exists_assignments {c : GenomeConfig} {proposals : List MutationProposal}
    (h : ∀ p ∈ proposals, ∃ f, Proposes c p f) :
    ∃ es : List (GenomeField × Value),
      proposals.map (fun p => (p.fieldPath, p.newValue)) = spell es ∧
      ∀ e ∈ es, e.1.kind.Holds e.2 ∧ configFields.Accepts e ∧ c.get e.1 ≠ e.2 := by
  induction proposals with
  | nil => exact ⟨[], rfl, nofun⟩
  | cons p proposals ih =>
      obtain ⟨es, hes, hall⟩ := ih fun p hp => h p (List.mem_cons_of_mem _ hp)
      obtain ⟨f, hf⟩ := h p List.mem_cons_self
      refine ⟨(f, p.newValue) :: es, ?_, ?_⟩
      · rw [List.map_cons, hes, hf.path]
        rfl
      · intro e he
        rcases List.mem_cons.mp he with rfl | he
        · exact ⟨hf.own, hf.accepted, hf.changes⟩
        · exact hall e he

namespace MutationEngine

variable {e : MutationEngine ρ} {genome : SystemGenome}

/-- The operators propose real changes of the genome. -/
def Sane (genome : SystemGenome) (ops : List (String × Operator)) : Prop :=
  ∀ op ∈ ops, ∀ p ∈ op.2 genome, ∃ f, Proposes genome.config p f

theorem sane_focused (e : MutationEngine ρ) (genome : SystemGenome)
    (focusCategories : List String) : Sane genome (e.focused focusCategories) := by
  have hall := operators_propose (fun q => e.text (.float q)) genome
  intro op hop
  simp only [focused] at hop
  split_ifs at hop
  · exact hall op hop
  · exact hall op hop
  · exact hall op (List.mem_filter.mp hop).1

theorem gather_spec {ops : List (String × Operator)} (hops : Sane genome ops)
    (touched : List String) (s : ρ) :
    Gathered e.policy genome.config touched (e.gather genome ops touched s).1 := by
  induction ops generalizing touched s with
  | nil => exact ⟨nofun, nofun, nofun, List.nodup_nil⟩
  | cons op ops ih =>
      have hrest : Sane genome ops := fun op hop => hops op (List.mem_cons_of_mem _ hop)
      rw [gather]
      by_cases hnone : ((op.2 genome).filter fun o =>
          e.policy.isAllowed o.fieldPath && decide (o.fieldPath ∉ touched)) = []
      · rw [dif_pos hnone]
        exact ih hrest touched s
      · rw [dif_neg hnone]
        have hmem := choice_mem e.rng hnone s
        obtain ⟨hproposed, hkept⟩ := List.mem_filter.mp hmem
        rw [Bool.and_eq_true, decide_eq_true_eq] at hkept
        have hlater := ih hrest
          ((e.rng.choice _ hnone s).1.fieldPath :: touched) (e.rng.choice _ hnone s).2
        refine ⟨?_, ?_, ?_, ?_⟩
        · exact List.forall_mem_cons.mpr
            ⟨hops op List.mem_cons_self _ hproposed, hlater.proposes⟩
        · exact List.forall_mem_cons.mpr ⟨hkept.1, hlater.allowed⟩
        · refine List.forall_mem_cons.mpr ⟨hkept.2, fun p hp hmem => ?_⟩
          exact hlater.fresh p hp (List.mem_cons_of_mem _ hmem)
        · refine List.nodup_cons.mpr ⟨fun hmem => ?_, hlater.nodup⟩
          obtain ⟨p, hp, heq⟩ := List.mem_map.mp hmem
          exact hlater.fresh p hp (heq ▸ List.mem_cons_self)

/-! ## One attempt -/

/-- A valid child that the policy permits, with its changes recorded. -/
structure ChildOf (e : MutationEngine ρ) (genome : SystemGenome) (version : ℕ)
    (child : SystemGenome) : Prop where
  systemId : child.systemId = genome.systemId
  version : child.version = version
  parentHash : child.parentHash = some (genome.hash e.digest)
  generation : child.generation = genome.generation + 1
  status : child.status = .generated
  recorded : RecordedDiff genome.config child.config child.mutations
  changed : child.mutations ≠ []
  permitted : e.policy.Permits (child.mutations.map (·.fieldPath))

/-- The signature of a child, from its records. -/
def childSignature (e : MutationEngine ρ) (child : SystemGenome) : List (String ×ₗ String) :=
  (child.mutations.map fun r => toLex (r.fieldPath, e.text r.newValue)).insertionSort (· ≤ ·)

/-- The value at a path of the configuration. -/
def valueAt (c : GenomeConfig) (path : String) : Value :=
  (getFieldByPath c path).toOption.getD (.scalar .null)

theorem valueAt_path (c : GenomeConfig) (f : GenomeField) : valueAt c f.path = c.get f := by
  rw [valueAt, getFieldByPath_path]
  rfl

/-- The record of a proposal. -/
def recordOf (genome : SystemGenome) (p : MutationProposal) : MutationRecord :=
  ⟨p.mutationType, p.fieldPath, valueAt genome.config p.fieldPath, p.newValue, p.reason⟩

theorem record_eq {p : MutationProposal} {f : GenomeField} (h : Proposes genome.config p f) :
    record genome p = .ok (recordOf genome p) := by
  rw [record, recordOf, h.path, valueAt_path, getFieldByPath_path]
  rfl

/-- The change set of an attempt makes a child. -/
theorem derive_spec {proposals : List MutationProposal}
    (hgathered : Gathered e.policy genome.config [] proposals) (hsome : proposals ≠ [])
    (hpermits : e.policy.Permits (proposals.map (·.fieldPath))) (version : ℕ) :
    ∃ records child, proposals.mapM (record genome) = .ok records ∧
      genome.derive e.digest records
        (Dict.ofEntries (proposals.map fun p => (p.fieldPath, p.newValue))) version
        (genome.generation + 1) = .ok child ∧
      e.ChildOf genome version child ∧ e.childSignature child = e.signature proposals := by
  obtain ⟨es, hspell, hall⟩ := exists_assignments hgathered.proposes
  have hpaths : proposals.map (·.fieldPath) = Dict.keys (spell es) := by
    rw [← hspell, Dict.keys, List.map_map]
    rfl
  have hkeys : (Dict.keys (spell es)).Nodup := hpaths ▸ hgathered.nodup
  have hes : Overrides es := by
    refine ⟨?_, fun x hx => (hall x hx).1⟩
    rw [keys_spell] at hkeys
    exact hkeys.of_map _
  obtain ⟨config, hconfig⟩ := setAll_of_accepts (fun x hx => (hall x hx).2.1) genome.config
  have hrecords : proposals.mapM (record genome) = .ok (proposals.map (recordOf genome)) := by
    refine mapM_eq_ok fun p hp => ?_
    obtain ⟨f, hf⟩ := hgathered.proposes p hp
    exact record_eq hf
  have hchanges : (proposals.map (recordOf genome)).map (·.change) =
      changesOf genome.config es := by
    have hkept : (es.filter fun x => genome.config.get x.1 ≠ x.2) = es :=
      List.filter_eq_self.mpr fun x hx => decide_eq_true (hall x hx).2.2
    calc (proposals.map (recordOf genome)).map (·.change)
        = (proposals.map fun p => (p.fieldPath, p.newValue)).map fun x =>
            (x.1, valueAt genome.config x.1, x.2) := by
          rw [List.map_map, List.map_map]
          rfl
      _ = es.map fun x => (x.1.path, genome.config.get x.1, x.2) := by
          rw [hspell, spell, List.map_map]
          refine List.map_congr_left fun x _ => ?_
          rw [Function.comp_apply, valueAt_path]
      _ = changesOf genome.config es := by rw [changesOf, hkept]
  have hrecordPaths : (proposals.map (recordOf genome)).map (·.fieldPath) =
      proposals.map (·.fieldPath) := by
    rw [List.map_map]
    rfl
  refine ⟨proposals.map (recordOf genome), {
    systemId := genome.systemId
    version := version
    parentHash := some (genome.hash e.digest)
    mutations := proposals.map (recordOf genome)
    generation := genome.generation + 1
    status := .generated
    config := config }, hrecords, ?_, ?_, ?_⟩
  · rw [hspell, Dict.ofEntries_of_nodup hkeys, SystemGenome.derive, deepSet_spell, hconfig]
    rfl
  · refine ⟨rfl, rfl, rfl, rfl, rfl, recordedDiff hes hconfig hchanges, ?_, ?_⟩
    · simpa using hsome
    · exact hrecordPaths ▸ hpermits
  · rw [childSignature, signature, List.map_map]
    rfl

/-- One attempt changes nothing but the generator, or adds a child with a new signature. -/
inductive Attempted (e : MutationEngine ρ) (genome : SystemGenome) (start : ℕ)
    (st : Proposing ρ) : Proposing ρ → Prop where
  | nothing (s : ρ) : Attempted e genome start st { st with rng := s }
  | child (s : ρ) (child : SystemGenome)
      (hchild : e.ChildOf genome (start + st.candidates.length) child)
      (hnew : e.childSignature child ∉ st.seenSignatures) :
      Attempted e genome start st {
        rng := s
        seenSignatures := e.childSignature child :: st.seenSignatures
        candidates := st.candidates ++ [child] }

theorem attempt_spec {ops : List (String × Operator)} (hops : Sane genome ops) (start : ℕ)
    (st : Proposing ρ) :
    ∃ st', e.attempt genome ops start st = .ok st' ∧ Attempted e genome start st st' := by
  have hchosen : Sane genome (e.rng.sample ops (min
      (e.rng.randint 1 e.policy.maxChangesPerCandidate st.rng).1.toNat ops.length)
      (e.rng.randint 1 e.policy.maxChangesPerCandidate st.rng).2).1 :=
    fun op hop => hops op (mem_of_mem_sample hop)
  simp only [attempt]
  generalize e.rng.sample ops _ _ = drawn at hchosen
  have hgathered := gather_spec (e := e) hchosen [] drawn.2
  generalize e.gather genome drawn.1 [] drawn.2 = gathered at hgathered
  obtain ⟨proposals, s⟩ := gathered
  by_cases hnone : proposals = []
  · rw [if_pos hnone]
    exact ⟨_, rfl, .nothing s⟩
  · rw [if_neg hnone]
    by_cases hvalid : (e.policy.validateChangeSet (proposals.map (·.fieldPath))).1 = false
    · rw [if_pos hvalid]
      exact ⟨_, rfl, .nothing s⟩
    · rw [if_neg hvalid]
      by_cases hseen : e.signature proposals ∈ st.seenSignatures
      · rw [if_pos hseen]
        exact ⟨_, rfl, .nothing s⟩
      · rw [if_neg hseen]
        have hpermits := (e.policy.validateChangeSet_iff _).mp (Bool.not_eq_false _ ▸ hvalid)
        obtain ⟨records, child, hrecords, hderive, hchild, hsignature⟩ :=
          derive_spec hgathered hnone hpermits (start + st.candidates.length)
        rw [hrecords, ok_bind, hderive, ← hsignature]
        rw [← hsignature] at hseen
        exact ⟨_, rfl, .child s child hchild hseen⟩

/-! ## Contents and signatures -/

/-- What the records say of the new values is what the configurations say. -/
theorem mem_newValues {base c : GenomeConfig} {records : List MutationRecord}
    (h : RecordedDiff base c records) (x : String × Value) :
    x ∈ records.map (fun r => (r.fieldPath, r.newValue)) ↔
      getFieldByPath c x.1 = .ok x.2 ∧ getFieldByPath c x.1 ≠ getFieldByPath base x.1 := by
  constructor
  · intro hx
    obtain ⟨r, hr, rfl⟩ := List.mem_map.mp hx
    exact ⟨(h.values r hr).2, (h.exact r.fieldPath).mp (List.mem_map_of_mem hr)⟩
  · rintro ⟨hvalue, hdiffer⟩
    obtain ⟨r, hr, hpath⟩ := List.mem_map.mp ((h.exact x.1).mpr hdiffer)
    refine List.mem_map.mpr ⟨r, hr, Prod.ext hpath ?_⟩
    have hnew := (h.values r hr).2
    rw [hpath, hvalue] at hnew
    exact (Except.ok.inj hnew).symm

theorem nodup_newValues {base c : GenomeConfig} {records : List MutationRecord}
    (h : RecordedDiff base c records) :
    (records.map fun r => (r.fieldPath, r.newValue)).Nodup := by
  have honce := h.once
  have hpaths : records.map (·.fieldPath) =
      (records.map fun r => (r.fieldPath, r.newValue)).map Prod.fst := by
    rw [List.map_map]
    rfl
  rw [hpaths] at honce
  exact honce.of_map _

/-- Children with the same configuration have the same signature. -/
theorem signature_eq {child child' : SystemGenome}
    (h : RecordedDiff genome.config child.config child.mutations)
    (h' : RecordedDiff genome.config child'.config child'.mutations)
    (hconfig : child.config = child'.config) :
    e.childSignature child = e.childSignature child' := by
  have hperm : (child.mutations.map fun r => (r.fieldPath, r.newValue)).Perm
      (child'.mutations.map fun r => (r.fieldPath, r.newValue)) := by
    refine (List.perm_ext_iff_of_nodup (nodup_newValues h) (nodup_newValues h')).mpr ?_
    intro x
    rw [mem_newValues h, mem_newValues h', hconfig]
  have htexts := hperm.map fun x => toLex (x.1, e.text x.2)
  rw [List.map_map, List.map_map] at htexts
  exact ((List.perm_insertionSort _ _).trans (htexts.trans
    (List.perm_insertionSort _ _).symm)).eq_of_pairwise'
    (List.pairwise_insertionSort _ _) (List.pairwise_insertionSort _ _)

/-! ## All attempts -/

/-- What holds between two attempts. -/
structure Kept (e : MutationEngine ρ) (genome : SystemGenome) (start : ℕ) (st : Proposing ρ) :
    Prop where
  children : ∀ i child, st.candidates[i]? = some child → e.ChildOf genome (start + i) child
  seen : ∀ child ∈ st.candidates, e.childSignature child ∈ st.seenSignatures
  distinct : (st.candidates.map e.childSignature).Nodup

theorem kept_start (start : ℕ) (s : ρ) : e.Kept genome start { rng := s } where
  children i child h := by
    have h : ([] : List SystemGenome)[i]? = some child := h
    rw [List.getElem?_nil] at h
    cases h
  seen := List.forall_mem_nil _
  distinct := List.nodup_nil

theorem Attempted.kept {start : ℕ} {st st' : Proposing ρ} (h : Attempted e genome start st st')
    (hkept : e.Kept genome start st) : e.Kept genome start st' := by
  cases h with
  | nothing s => exact ⟨hkept.children, hkept.seen, hkept.distinct⟩
  | child s child hchild hnew =>
      refine ⟨?_, ?_, ?_⟩
      · intro i c hc
        by_cases hi : i < st.candidates.length
        · rw [List.getElem?_append_left hi] at hc
          exact hkept.children i c hc
        · have hlt : i < (st.candidates ++ [child]).length :=
            (List.getElem?_eq_some_iff.mp hc).1
          rw [List.length_append, List.length_singleton] at hlt
          have hlast : i = st.candidates.length := by omega
          rw [hlast, List.getElem?_concat_length] at hc
          rw [hlast, ← Option.some.inj hc]
          exact hchild
      · intro c hc
        rcases List.mem_append.mp hc with hc | hc
        · exact List.mem_cons_of_mem _ (hkept.seen c hc)
        · rw [List.mem_singleton.mp hc]
          exact List.mem_cons_self
      · rw [List.map_append, List.map_singleton]
        refine List.nodup_append.mpr ⟨hkept.distinct, List.nodup_singleton _, ?_⟩
        intro a ha b hb heq
        obtain ⟨c, hc, rfl⟩ := List.mem_map.mp ha
        rw [List.mem_singleton.mp hb] at heq
        exact hnew (heq ▸ hkept.seen c hc)

theorem Attempted.length_le {start : ℕ} {st st' : Proposing ρ}
    (h : Attempted e genome start st st') :
    st'.candidates.length ≤ st.candidates.length + 1 := by
  cases h with
  | nothing s => exact Nat.le_succ _
  | child s child hchild hnew =>
      rw [List.length_append]
      exact le_refl _

theorem attempts_spec {ops : List (String × Operator)} (hops : Sane genome ops) (n : ℤ)
    (start left : ℕ) {st : Proposing ρ} (hkept : e.Kept genome start st) :
    ∃ st', e.attempts genome ops n start left st = .ok st' ∧ e.Kept genome start st' ∧
      (st'.candidates.length : ℤ) ≤ max (st.candidates.length : ℤ) n := by
  induction left generalizing st with
  | zero => exact ⟨st, rfl, hkept, le_max_left _ _⟩
  | succ left ih =>
      rw [attempts]
      by_cases hmore : (st.candidates.length : ℤ) < n
      · obtain ⟨st₁, hattempt, hattempted⟩ := attempt_spec hops start st
        obtain ⟨st', hrest, hkept', hlength⟩ := ih (hattempted.kept hkept)
        have hone := hattempted.length_le
        rw [if_pos hmore, hattempt]
        exact ⟨st', hrest, hkept', by omega⟩
      · rw [if_neg hmore]
        exact ⟨st, rfl, hkept, le_max_left _ _⟩

/-- What `propose` promises of the genomes it returns. -/
structure ProposedChildren (e : MutationEngine ρ) (genome : SystemGenome) (nCandidates : ℤ)
    (nextVersionStart : ℕ) (children : List SystemGenome) : Prop where
  atMost : (children.length : ℤ) ≤ max 0 nCandidates
  childOf : ∀ i child, children[i]? = some child →
    e.ChildOf genome (nextVersionStart + i) child
  distinct : (children.map (·.hash e.digest)).Nodup
  notParent : ∀ child ∈ children, child.hash e.digest ≠ genome.hash e.digest

/-- **Proposals.** `propose` never raises, and returns children that the policy permits, with
    exactly their changes recorded, no two of them alike and none like the parent. -/
theorem propose_correct (e : MutationEngine ρ) (hdigest : Function.Injective e.digest)
    (genome : SystemGenome) (nCandidates : ℤ) (nextVersionStart : ℕ)
    (focusCategories : List String) (s : ρ) :
    ∃ children s', e.propose genome nCandidates nextVersionStart focusCategories s =
        .ok (children, s') ∧
      e.ProposedChildren genome nCandidates nextVersionStart children := by
  obtain ⟨st, hst, hkept, hlength⟩ := attempts_spec (sane_focused e genome focusCategories)
    nCandidates nextVersionStart (nCandidates * 20 + 20).toNat (kept_start nextVersionStart s)
  have hchild : ∀ child ∈ st.candidates, ∃ version, e.ChildOf genome version child := by
    intro child hmem
    obtain ⟨i, hi⟩ := List.mem_iff_getElem?.mp hmem
    exact ⟨_, hkept.children i child hi⟩
  refine ⟨st.candidates, st.rng, ?_, hlength, hkept.children, ?_, ?_⟩
  · rw [propose, hst]
    rfl
  · refine List.Nodup.map_on ?_ (hkept.distinct.of_map _)
    intro child hmem child' hmem' hhash
    obtain ⟨version, hspec⟩ := hchild child hmem
    obtain ⟨version', hspec'⟩ := hchild child' hmem'
    have hconfig : child.config = child'.config :=
      congrArg GenomeContent.config (hdigest hhash)
    have hsignature := signature_eq (e := e) hspec.recorded hspec'.recorded hconfig
    exact List.inj_on_of_nodup_map hkept.distinct hmem hmem' hsignature
  · intro child hmem hhash
    obtain ⟨version, hspec⟩ := hchild child hmem
    have hconfig : child.config = genome.config :=
      congrArg GenomeContent.config (hdigest hhash)
    obtain ⟨r, hr⟩ := List.exists_mem_of_ne_nil _ hspec.changed
    have hdiffer := (hspec.recorded.exact r.fieldPath).mp (List.mem_map_of_mem hr)
    rw [hconfig] at hdiffer
    exact hdiffer rfl

/-- `str` of the values that are proposed. -/
def exampleText : Value → String
  | .scalar (.str s) => s
  | .scalar (.bool b) => if b then "True" else "False"
  | .scalar (.int z) => toString z
  | .scalar (.float q) => Rounding.fixed 2 q
  | _ => ""

def exampleMutations (digest : GenomeDigest) : MutationEngine Unit where
  policy := {}
  rng := constantRng (1/2) 0
  text := exampleText
  digest := digest

def exampleParent : SystemGenome where
  systemId := "app"
  version := 1

/-- Asked for one, the engine returns one child of the default configuration under the
    default policy. -/
theorem propose_correct_defaults : ∃ digest : GenomeDigest, Function.Injective digest ∧
    ∃ child s',
      (exampleMutations digest).propose exampleParent 1 2 ["prompt", "retrieval"] () =
        .ok ([child], s') ∧
      (exampleMutations digest).ProposedChildren exampleParent 1 2 [child] := by
  obtain ⟨digest, hdigest⟩ := exists_injective_digest
  obtain ⟨children, s', hproposed, hchildren⟩ :=
    (exampleMutations digest).propose_correct hdigest exampleParent 1 2 ["prompt", "retrieval"] ()
  have hlength : (((exampleMutations digest).propose exampleParent 1 2
      ["prompt", "retrieval"] ()).toOption.map fun r => r.1.length) = some 1 :=
    rfl
  rw [hproposed] at hlength
  obtain ⟨child, rfl⟩ := List.length_eq_one_iff.mp (Option.some.inj hlength)
  exact ⟨digest, hdigest, child, s', hproposed, hchildren⟩

end MutationEngine

end NeuroForge
