/-
  `apps/api/neuroforge_api/main.py`: seeding and evolving datasets, by many clients at once.

  A request looks for a row under the id and version it is about to write and inserts its
  own at the commit. The only constraint of the table that can refuse the insert is the
  unique content hash, so two requests that looked before either committed both insert,
  unless they made the same challenges. `one_row_per_version_iff`: a version has one row in
  every state of a run exactly when no request inserts under an id and version that another
  one has filled since it looked.
-/
import NeuroForge.Datasets.Lineage
import NeuroForge.Lib.Snapshot
import NeuroForge.Service.Requests

namespace NeuroForge

open Database Snapshot

structure DatasetSeedRequest where
  datasetId : Identifier
  domain : String := "forge-support"
  n : IntIn 20 5000
  seed : ℤ := 1

structure DatasetEvolveRequest where
  datasetId : String
  meanScore : Option (RatIn 0 1) := none
  failingCategories : List String := []
  domain : Option String := none
  nNew : IntIn 1 1000
  seed : ℤ := 2

/-! ## The two interfaces -/

section Interfaces

variable (digest : DatasetDigest) (domains : String → ApplicationDomain) (random : SplitRandom)

/-- The row `save_dataset_version` adds: none where the id and version have one. -/
def addedVersion (db : Database) (d : DatasetVersion) : Option DatasetVersion :=
  match db.getDatasetVersion d.datasetId d.version with
  | some _ => none
  | none => some d

theorem saveDatasetVersion_eq (db : Database) (d : DatasetVersion) : db.saveDatasetVersion d =
    { db with datasets := db.datasets ++ (addedVersion db d).toList } := by
  unfold saveDatasetVersion addedVersion
  cases db.getDatasetVersion d.datasetId d.version with
  | none => rfl
  | some existing => simp

/-- `_seed_dataset`: the row it adds, if it is not refused. -/
def seedDatasetEndpoint (db : Database) (body : DatasetSeedRequest) :
    Except HttpError (Option DatasetVersion) :=
  match seedDataset (domains body.domain) random body.datasetId.1 body.n.1 body.seed with
  | .error _ => .error ⟨500, "Internal Server Error"⟩
  | .ok dataset =>
      match db.latestDatasetVersion body.datasetId.1 with
      | none => .ok (addedVersion db dataset)
      | some existing =>
          if existing.hash digest = dataset.hash digest then .ok (addedVersion db dataset)
          else .error ⟨409, s!"dataset '{body.datasetId.1}' already exists " ++
            s!"(v{existing.version}); use POST /datasets/\x7bid\x7d/evolve to add a version, " ++
            "or pick a new id"⟩

/-- What `evolve_dataset_endpoint` makes of the latest version, if anything. -/
def evolvedVersion (current : DatasetVersion) (domain : ApplicationDomain)
    (body : DatasetEvolveRequest) : Except HttpError (Option DatasetVersion) :=
  if body.failingCategories ≠ [] then
    match evolveFromFailures domain random current body.failingCategories body.nNew.1 body.seed with
    | .ok evolved => .ok (some evolved)
    | .error message => .error ⟨400, message⟩
  else
    match body.meanScore with
    | none => .error ⟨400, "give either mean_score (saturation-driven) or " ++
        "failing_categories (failure-driven)"⟩
    | some score => .ok (evolveIfSaturated domain random current score.1 body.nNew.1 body.seed)

/-- The version an evolution starts from. -/
def currentVersion (db : Database) (datasetId : String) : Except HttpError DatasetVersion :=
  match db.latestDatasetVersion datasetId with
  | none => .error ⟨404, s!"no dataset version found for '{datasetId}'"⟩
  | some current => .ok current

/-- `_domain_for_dataset`. -/
def domainForDataset (dataset : DatasetVersion) : Except HttpError String :=
  match dataset.challenges.head? with
  | none => .error ⟨400, s!"dataset '{dataset.datasetId}' has no challenges"⟩
  | some challenge => .ok (datasetDomain challenge)

/-- A domain that is named must be the dataset's. -/
def checkDatasetDomain (body : DatasetEvolveRequest) (domain : String) : Except HttpError Unit :=
  match body.domain with
  | none => .ok ()
  | some named =>
      if named = domain then .ok ()
      else .error ⟨400, s!"dataset '{body.datasetId}' belongs to domain '{domain}', " ++
        s!"not '{named}'"⟩

/-- The row of an evolved version: none where the same version is already stored. -/
def evolvedRow (db : Database) (evolved : DatasetVersion) :
    Except HttpError (Option DatasetVersion) :=
  match db.getDatasetVersion evolved.datasetId evolved.version with
  | none => .ok (some evolved)
  | some stored =>
      if stored.hash digest = evolved.hash digest then .ok none
      else .error ⟨409, s!"dataset '{evolved.datasetId}' v{evolved.version} was created " ++
        "concurrently; retry"⟩

/-- `evolve_dataset_endpoint`: the row it adds, if it is not refused. -/
def evolveDatasetEndpoint (db : Database) (body : DatasetEvolveRequest) :
    Except HttpError (Option DatasetVersion) := do
  let current ← currentVersion db body.datasetId
  let domain ← domainForDataset current
  checkDatasetDomain body domain
  match ← evolvedVersion random current (domains domain) body with
  | none => return none
  | some evolved => evolvedRow digest db evolved

end Interfaces

/-! ## Requests that overlap -/

inductive DatasetRequest where
  | seed (body : DatasetSeedRequest)
  | evolve (body : DatasetEvolveRequest)

/-- The row a request is about to insert. -/
def prepareDataset (digest : DatasetDigest) (domains : String → ApplicationDomain)
    (random : SplitRandom) (db : Database) : DatasetRequest → Option DatasetVersion
  | .seed body => (seedDatasetEndpoint digest domains random db body).toOption.join
  | .evolve body => (evolveDatasetEndpoint digest domains random db body).toOption.join

/-- The insert of a row; `dataset_hash` is unique. -/
def insertDataset (digest : DatasetDigest) (db : Database) (d : DatasetVersion) :
    Option Database :=
  if d.hash digest ∈ db.datasets.map (·.hash digest) then none
  else some { db with datasets := db.datasets ++ [d] }

abbrev DatasetClients (ι : Type) := Snapshot.Clients ι Database DatasetVersion

def datasetStep {ι : Type} [DecidableEq ι] (digest : DatasetDigest)
    (domains : String → ApplicationDomain) (random : SplitRandom) :
    DatasetClients ι → ι × Snapshot.Action DatasetRequest → Option (DatasetClients ι) :=
  Interleaving.step (Snapshot.next (prepareDataset digest domains random) (insertDataset digest))

/-! ## One row for a version -/

def DatasetVersion.key (d : DatasetVersion) : String × ℕ := (d.datasetId, d.version)

/-- At most one row for an id and a version. -/
def OnePerVersion (db : Database) : Prop := (db.datasets.map (·.key)).Nodup

/-- A version that has one row denotes its challenges. -/
theorem OnePerVersion.denotes {db : Database} (h : OnePerVersion db) {d : DatasetVersion}
    (hd : d ∈ db.datasets) : db.getDatasetVersion d.datasetId d.version = some d := by
  rcases hfind : db.getDatasetVersion d.datasetId d.version with _ | d'
  · have hnone := List.find?_eq_none.mp hfind d hd
    simp at hnone
  · have hkey : d'.key = d.key := by
      have hsome := List.find?_some hfind
      simp only [decide_eq_true_eq] at hsome
      unfold DatasetVersion.key
      rw [hsome.1, hsome.2]
    rw [List.inj_on_of_nodup_map h (List.mem_of_find?_eq_some hfind) hd hkey]

/-- The rows committed since a request looked. -/
def committedSince (db : Database) (p : Pending Database DatasetVersion) : List DatasetVersion :=
  db.datasets.drop p.seen.datasets.length

/-- Since the request looked, nobody has committed a row for the id and version it inserts. -/
def VersionStillFree (db : Database) (p : Pending Database DatasetVersion) : Prop :=
  ∀ d ∈ committedSince db p, d.key ≠ p.write.key

/-- The row a request is about to insert is under a key that it found free. -/
structure LookedUp (db : Database) (p : Pending Database DatasetVersion) : Prop where
  free : p.write.key ∉ p.seen.datasets.map (·.key)
  older : p.seen.datasets <+: db.datasets

section Race

variable {digest : DatasetDigest} {domains : String → ApplicationDomain} {random : SplitRandom}

theorem key_not_mem_of_getDatasetVersion {db : Database} {d : DatasetVersion}
    (h : db.getDatasetVersion d.datasetId d.version = none) :
    d.key ∉ db.datasets.map (·.key) := by
  intro hmem
  obtain ⟨d', hd', hkey⟩ := List.mem_map.mp hmem
  have hnone := List.find?_eq_none.mp h d' hd'
  obtain ⟨hid, hversion⟩ := Prod.mk.inj hkey
  simp [hid, hversion] at hnone

theorem addedVersion_eq_some {db : Database} {d row : DatasetVersion}
    (h : addedVersion db d = some row) :
    db.getDatasetVersion row.datasetId row.version = none := by
  unfold addedVersion at h
  split at h
  · cases h
  · rename_i hnone
    rw [← Option.some.inj h]
    exact hnone

theorem prepareDataset_free {db : Database} {request : DatasetRequest} {row : DatasetVersion}
    (h : prepareDataset digest domains random db request = some row) :
    db.getDatasetVersion row.datasetId row.version = none := by
  cases request with
  | seed body =>
      have hok := Fallible.toOption_eq_some.mp (Option.join_eq_some_iff.mp h)
      unfold seedDatasetEndpoint at hok
      split at hok
      · cases hok
      · split at hok
        · exact addedVersion_eq_some (Except.ok.inj hok)
        · split_ifs at hok
          exact addedVersion_eq_some (Except.ok.inj hok)
  | evolve body =>
      have hok := Fallible.toOption_eq_some.mp (Option.join_eq_some_iff.mp h)
      unfold evolveDatasetEndpoint at hok
      obtain ⟨current, -, hok⟩ := Fallible.bind_eq_ok.mp hok
      obtain ⟨domain, -, hok⟩ := Fallible.bind_eq_ok.mp hok
      obtain ⟨_, -, hok⟩ := Fallible.bind_eq_ok.mp hok
      obtain ⟨evolved, -, hok⟩ := Fallible.bind_eq_ok.mp hok
      split at hok
      · cases hok
      · unfold evolvedRow at hok
        split at hok
        · rename_i hnone
          rw [← Option.some.inj (Except.ok.inj hok)]
          exact hnone
        · split_ifs at hok
          cases hok

theorem lookedUp_read {db : Database} {request : DatasetRequest} {row : DatasetVersion}
    (h : prepareDataset digest domains random db request = some row) :
    LookedUp db ⟨db, row⟩ :=
  ⟨key_not_mem_of_getDatasetVersion (prepareDataset_free h), List.prefix_rfl⟩

theorem insertDataset_eq_some {db db' : Database} {d : DatasetVersion}
    (h : insertDataset digest db d = some db') :
    db' = { db with datasets := db.datasets ++ [d] } := by
  unfold insertDataset at h
  split_ifs at h
  exact (Option.some.inj h).symm

/-- A key that was free for a request is free unless it was filled since. -/
theorem LookedUp.key_not_mem_iff {db : Database} {p : Pending Database DatasetVersion}
    (h : LookedUp db p) : p.write.key ∉ db.datasets.map (·.key) ↔ VersionStillFree db p := by
  obtain ⟨more, hmore⟩ := h.older
  have hsince : committedSince db p = more := by
    unfold committedSince
    rw [← hmore, List.drop_left]
  unfold VersionStillFree
  rw [hsince, ← hmore, List.map_append, List.mem_append, not_or]
  constructor
  · rintro ⟨-, hnew⟩ d hd hkey
    exact hnew (List.mem_map.mpr ⟨d, hd, hkey⟩)
  · intro hnew
    refine ⟨h.free, fun hmem => ?_⟩
    obtain ⟨d, hd, hkey⟩ := List.mem_map.mp hmem
    exact hnew d hd hkey

theorem onePerVersion_append {db : Database} {d : DatasetVersion} :
    OnePerVersion { db with datasets := db.datasets ++ [d] } ↔
      OnePerVersion db ∧ d.key ∉ db.datasets.map (·.key) := by
  unfold OnePerVersion
  rw [List.map_append, List.map_singleton, List.nodup_append]
  constructor
  · rintro ⟨hold, -, hnew⟩
    exact ⟨hold, fun hmem => hnew _ hmem _ (List.mem_singleton_self _) rfl⟩
  · rintro ⟨hold, hnew⟩
    refine ⟨hold, List.nodup_singleton _, fun a ha b hb heq => hnew ?_⟩
    rw [← List.mem_singleton.mp hb, ← heq]
    exact ha

theorem onePerVersion_insert {db db' : Database} {p : Pending Database DatasetVersion}
    (hone : OnePerVersion db) (h : LookedUp db p)
    (hinsert : insertDataset digest db p.write = some db') (hfree : VersionStillFree db p) :
    OnePerVersion db' ∧ ∀ q, LookedUp db q → LookedUp db' q := by
  rw [insertDataset_eq_some hinsert]
  refine ⟨onePerVersion_append.mpr ⟨hone, h.key_not_mem_iff.mpr hfree⟩, fun q hq => ?_⟩
  exact ⟨hq.free, hq.older.trans (List.prefix_append _ _)⟩

theorem stillFree_of_onePerVersion {db db' : Database} {p : Pending Database DatasetVersion}
    (h : LookedUp db p) (hinsert : insertDataset digest db p.write = some db')
    (hone : OnePerVersion db') : VersionStillFree db p := by
  rw [insertDataset_eq_some hinsert] at hone
  exact h.key_not_mem_iff.mp (onePerVersion_append.mp hone).2

section Example

/-- A digest that lists the challenges. -/
def exampleDatasetDigest : DatasetDigest := fun datasetId version challenges =>
  challenges.foldl (fun text c => text ++ "/" ++ c.challengeId)
    (datasetId ++ "@" ++ toString version)

def supportDataset : Identifier := ⟨"support", by decide⟩

def evolveRequest (seed : ℤ) : DatasetRequest :=
  .evolve {
    datasetId := "support", meanScore := some ⟨19/20, by norm_num⟩, nNew := ⟨1, by norm_num⟩
    seed := seed }

/-- A dataset is seeded; then two evolutions look before either commits. -/
def racingEvolutions : List (ℕ × Snapshot.Action DatasetRequest) :=
  [(0, .read (.seed { datasetId := supportDataset, n := ⟨20, by norm_num⟩, seed := 1 })),
    (0, .commit), (0, .read (evolveRequest 2)), (1, .read (evolveRequest 3)), (1, .commit),
    (0, .commit)]

def exampleDatasetStep :
    DatasetClients ℕ → ℕ × Snapshot.Action DatasetRequest → Option (DatasetClients ℕ) :=
  datasetStep exampleDatasetDigest (fun _ => exampleDomain) exampleRandom

/-- Both evolutions have committed a second version. -/
theorem racingEvolutions_rows : ∃ s, Transition.run exampleDatasetStep (start {})
    racingEvolutions = some s ∧ ¬ OnePerVersion s.shared ∧
      ∃ d ∈ s.shared.datasets, ∃ d' ∈ s.shared.datasets, d.key = d'.key ∧
        d.challenges ≠ d'.challenges := by
  have hrows : (Transition.run exampleDatasetStep (start {}) racingEvolutions).map
      (fun s => s.shared.datasets.map fun d => (d.key, d.challenges.getLast?.map (·.challengeId))) =
        some [(("support", 1), some "fs-1-0019"), (("support", 2), some "fs-3-0000"),
          (("support", 2), some "fs-2-0000")] := by
    decide +kernel
  obtain ⟨s, hs, hrows⟩ := Option.map_eq_some_iff.mp hrows
  refine ⟨s, hs, fun hone => ?_, ?_⟩
  · have hkeys := congrArg (List.map Prod.fst) hrows
    rw [List.map_map] at hkeys
    change s.shared.datasets.map (·.key) = _ at hkeys
    unfold OnePerVersion at hone
    rw [hkeys] at hone
    exact absurd hone (by decide)
  · obtain ⟨d₁, rest, hdatasets, -, hrest⟩ := List.map_eq_cons_iff.mp hrows
    obtain ⟨d₂, rest, rfl, h₂, hrest⟩ := List.map_eq_cons_iff.mp hrest
    obtain ⟨d₃, rest, rfl, h₃, -⟩ := List.map_eq_cons_iff.mp hrest
    obtain ⟨hkey₂, hlast₂⟩ := Prod.mk.inj h₂
    obtain ⟨hkey₃, hlast₃⟩ := Prod.mk.inj h₃
    refine ⟨d₂, by simp [hdatasets], d₃, by simp [hdatasets], hkey₂.trans hkey₃.symm, fun heq => ?_⟩
    rw [heq, hlast₃] at hlast₂
    exact absurd hlast₂ (by decide)

end Example

/-- **Rows of a dataset version.** However seed and evolve requests interleave, every version
    has one row in every state exactly when no request inserts a row for an id and version
    that another one has committed since it looked. -/
theorem one_row_per_version_iff {ι : Type} [DecidableEq ι] {db : Database}
    (hdb : OnePerVersion db) {as : List (ι × Snapshot.Action DatasetRequest)} {s : DatasetClients ι}
    (hrun : Transition.run (datasetStep digest domains random) (start db) as = some s) :
    (∀ pre, pre <+: as → ∀ t,
      Transition.run (datasetStep digest domains random) (start db) pre = some t →
        OnePerVersion t.shared) ↔
    Transition.Guarded (datasetStep digest domains random)
      (CommitsFresh (insertDataset digest) VersionStillFree) (start db) as :=
  always_good_iff LookedUp (fun _ _ _ _ h => lookedUp_read h)
    (fun _ _ _ hone h hinsert hfree => onePerVersion_insert hone h hinsert hfree)
    (fun _ _ _ _ h hinsert hone => stillFree_of_onePerVersion h hinsert hone) hdb hrun

end Race

theorem one_row_per_version_racing : ¬ Transition.Guarded exampleDatasetStep
    (CommitsFresh (insertDataset exampleDatasetDigest) VersionStillFree) (start {})
    racingEvolutions := by
  obtain ⟨s, hs, htwice, -⟩ := racingEvolutions_rows
  intro hguarded
  have hone := (one_row_per_version_iff (show OnePerVersion {} from List.nodup_nil) hs).mpr hguarded
  exact htwice (hone racingEvolutions List.prefix_rfl s hs)

/-- Two rows for one version, with different challenges. -/
theorem dataset_version_stored_twice : ∃ s,
    Transition.run exampleDatasetStep (start {}) racingEvolutions = some s ∧
      ¬ OnePerVersion s.shared ∧ ∃ d ∈ s.shared.datasets, ∃ d' ∈ s.shared.datasets,
        d.key = d'.key ∧ d.challenges ≠ d'.challenges :=
  racingEvolutions_rows

end NeuroForge
