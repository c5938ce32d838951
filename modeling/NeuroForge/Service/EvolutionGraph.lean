/-
  `lineage_graph` of `genomes/lineage.py`, as `genome_lineage` of the API fills it.

  The endpoint puts the stored genomes of an application into a new store, oldest version
  first, and reports a node for each and an edge to each that has a parent. Rows have
  different hashes, so the store loses none of them (`stored_ofAdds`). As the stored genomes
  are a tree, so is what is drawn: below the first node each node is the end of one edge, and
  that edge comes from a node above it (`evolution_graph_is_a_tree`).
-/
import NeuroForge.Genomes.Lineage
import NeuroForge.Service.Ancestry

namespace NeuroForge

open Database Transition

variable {ρ : Type}

structure GraphNode where
  hash : String
  version : ℕ
  generation : ℕ
  status : PromotionStatus
  parentHash : Option String
  mutations : List String
  deriving DecidableEq

/-- `from` and `to` -/
structure GraphEdge where
  source : String
  target : String
  deriving DecidableEq

structure LineageGraph where
  nodes : List GraphNode
  edges : List GraphEdge
  deriving DecidableEq

/-- `_clip`: a value's `repr`, at most `limit` characters of it. -/
def clip (repr : Value → String) (value : Value) (limit : ℕ) : String :=
  let text := repr value
  if text.length ≤ limit then text
  else String.ofList (text.toList.take (limit - 1)) ++ "…"

def clipLimit : ℕ := 48

/-- `_describe` -/
def describe (repr : Value → String) (m : MutationRecord) : String :=
  m.fieldPath ++ ": " ++ clip repr m.oldValue clipLimit ++ " → " ++ clip repr m.newValue clipLimit

section Graph

variable (digest : GenomeDigest) (repr : Value → String)

def GraphNode.of (g : SystemGenome) : GraphNode where
  hash := g.hash digest
  version := g.version
  generation := g.generation
  status := g.status
  parentHash := g.parentHash
  mutations := g.mutations.map (describe repr)

/-- The edge from the parent, if there is one. -/
def edgeTo (g : SystemGenome) : Option GraphEdge :=
  g.parentHash.map fun parent => ⟨parent, g.hash digest⟩

def GenomeStore.lineageGraph (store : GenomeStore) (systemId : String) : LineageGraph where
  nodes := (store.allForSystem systemId).map (GraphNode.of digest repr)
  edges := (store.allForSystem systemId).filterMap (edgeTo digest)

/-- `GET /genomes/{system_id}/lineage` -/
def genomeLineage (db : Database) (systemId : String) : LineageGraph :=
  let rows := (db.listGenomesForSystem systemId).insertionSort (·.version ≤ ·.version)
  (GenomeStore.ofAdds digest (rows.map genomeFromRecord)).lineageGraph digest repr systemId

end Graph

/-! ## What the store holds -/

namespace GenomeStore

variable {digest : GenomeDigest}

/-- Genomes with different hashes are all stored, in their order. -/
theorem stored_ofAdds {gs : List SystemGenome} (h : (gs.map (·.hash digest)).Nodup) :
    (ofAdds digest gs).stored = gs := by
  induction gs using List.reverseRecOn with
  | nil => rfl
  | append_singleton gs g ih =>
      rw [List.map_append, List.map_singleton, List.nodup_append] at h
      obtain ⟨hnodup, -, hnew⟩ := h
      have hnone : (ofAdds digest gs).get (g.hash digest) = none := by
        rw [get_ofAdds]
        refine List.find?_eq_none.mpr fun g' hg' => ?_
        have hne := hnew _ (List.mem_map_of_mem hg') _ (List.mem_singleton.mpr rfl)
        simpa using hne
      rw [ofAdds_concat, stored, byHash_add hnone, List.map_append, List.map_singleton]
      exact congrArg (· ++ [g]) (ih hnodup)

end GenomeStore

section Rows

variable {p : Platform} {db : Database} {w : World} {systemId : String}

/-- The rows of an application, oldest version first. -/
def lineageRows (db : Database) (systemId : String) : List GenomeRecord :=
  (db.listGenomesForSystem systemId).insertionSort (·.version ≤ ·.version)

theorem mem_lineageRows {r : GenomeRecord} :
    r ∈ lineageRows db systemId ↔ r ∈ db.genomes ∧ r.systemId = systemId := by
  unfold lineageRows listGenomesForSystem
  simp

theorem sorted_lineageRows :
    (lineageRows db systemId).Pairwise fun r r' => r.version ≤ r'.version :=
  List.pairwise_insertionSort _ _

theorem nodup_lineageRows (hwf : WellFormed p.genomeDigest db) :
    ((lineageRows db systemId).map (·.hash)).Nodup := by
  have hperm : (lineageRows db systemId).Perm
      (db.genomes.filter fun r => r.systemId = systemId) :=
    (List.perm_insertionSort _ _).trans (List.perm_insertionSort _ _)
  refine (hperm.map _).nodup_iff.mpr ?_
  exact hwf.nodup.sublist (List.filter_sublist.map _)

theorem hash_genomeFromRecord (hwf : WellFormed p.genomeDigest db) {r : GenomeRecord}
    (hr : r ∈ db.genomes) : (genomeFromRecord r).hash p.genomeDigest = r.hash :=
  hwf.hashed r.hash r (getGenomeRecord_of_mem hwf.nodup hr)

theorem genomeLineage_rows (hwf : WellFormed p.genomeDigest db) (repr : Value → String) :
    genomeLineage p.genomeDigest repr db systemId =
      { nodes := (lineageRows db systemId).map fun r =>
          GraphNode.of p.genomeDigest repr (genomeFromRecord r)
        edges := (lineageRows db systemId).filterMap fun r =>
          edgeTo p.genomeDigest (genomeFromRecord r) } := by
  have hhashes : ((lineageRows db systemId).map genomeFromRecord).map
      (·.hash p.genomeDigest) = (lineageRows db systemId).map (·.hash) := by
    rw [List.map_map]
    exact List.map_congr_left fun r hr => hash_genomeFromRecord hwf (mem_lineageRows.mp hr).1
  have hstored := GenomeStore.stored_ofAdds (hhashes ▸ nodup_lineageRows hwf)
  have hall : (GenomeStore.ofAdds p.genomeDigest ((lineageRows db systemId).map
      genomeFromRecord)).allForSystem systemId = (lineageRows db systemId).map genomeFromRecord := by
    rw [(GenomeStore.indexed_ofAdds _).allForSystem, hstored]
    refine List.filter_eq_self.mpr fun g hg => ?_
    obtain ⟨r, hr, rfl⟩ := List.mem_map.mp hg
    exact decide_eq_true (mem_lineageRows.mp hr).2
  show GenomeStore.lineageGraph _ _ (GenomeStore.ofAdds _ _) _ = _
  unfold GenomeStore.lineageGraph
  rw [← lineageRows, hall, List.map_map, List.filterMap_map]
  rfl

/-! ## The tree -/

theorem Rooted.one_le_version (h : Rooted p w) {r : GenomeRecord} (hr : r ∈ w.db.genomes) :
    1 ≤ r.version := by
  rcases h.parents r hr with hone | ⟨parent, -, -, -, hversion, -⟩
  · exact hone.ge
  · have hless : parent.version < r.version := hversion
    omega

/-- The oldest row is the v1, and it is the only one. -/
theorem Rooted.lineageRows_cons (h : Rooted p w) {first : GenomeRecord}
    {rest : List GenomeRecord} (hrows : lineageRows w.db systemId = first :: rest) :
    first.version = 1 ∧ ∀ r ∈ rest, r.version ≠ 1 := by
  have hmem : ∀ r ∈ first :: rest, r ∈ w.db.genomes ∧ r.systemId = systemId :=
    fun r hr => mem_lineageRows.mp (hrows ▸ hr)
  have hsorted : (first :: rest).Pairwise fun r r' => r.version ≤ r'.version :=
    hrows ▸ sorted_lineageRows
  have hnodup : ((first :: rest).map (·.hash)).Nodup :=
    hrows ▸ nodup_lineageRows h.numbered.sound.wellFormed
  obtain ⟨hfirst, hsystem⟩ := hmem first List.mem_cons_self
  have hone : first.version = 1 := by
    obtain ⟨root, hroot, hone, hsame, -⟩ := h.exists_root hfirst
    have hlisted : root ∈ first :: rest := by
      rw [← hrows]
      exact mem_lineageRows.mpr ⟨hroot, hsame.trans hsystem⟩
    have hlow := h.one_le_version hfirst
    rcases List.mem_cons.mp hlisted with rfl | hrest
    · exact hone
    · have hhigh := (List.pairwise_cons.mp hsorted).1 root hrest
      omega
  refine ⟨hone, fun r hr hr1 => ?_⟩
  obtain ⟨hrow, hsame⟩ := hmem r (List.mem_cons_of_mem _ hr)
  have hhash := h.one first hfirst r hrow hone hr1 (hsystem.trans hsame.symm)
  rw [List.map_cons, List.nodup_cons] at hnodup
  exact hnodup.1 (hhash ▸ List.mem_map_of_mem hr)

/-- The edge to a row that is not the v1. -/
theorem Rooted.exists_edge (h : Rooted p w) {r : GenomeRecord} (hr : r ∈ w.db.genomes)
    (hne : r.version ≠ 1) : ∃ parent, IsParent w.db r parent ∧
      edgeTo p.genomeDigest (genomeFromRecord r) = some ⟨parent.hash, r.hash⟩ := by
  obtain ⟨parent, hparent, -⟩ := h.existsUnique_parent hr hne
  refine ⟨parent, hparent, ?_⟩
  have hhash : (genomeFromRecord r).parentHash = some parent.hash := hparent.2.2
  unfold edgeTo
  rw [hhash, hash_genomeFromRecord h.numbered.sound.wellFormed hr]
  rfl

/-- What is drawn: nodes with different hashes, and to each but the first one edge, from a
    node of a smaller version and generation. -/
structure LineageGraph.IsTree (graph : LineageGraph) : Prop where
  nodup : (graph.nodes.map (·.hash)).Nodup
  one_edge_each : graph.edges.map (·.target) = (graph.nodes.map (·.hash)).tail
  from_above : ∀ e ∈ graph.edges, ∃ a ∈ graph.nodes, ∃ b ∈ graph.nodes,
    e = ⟨a.hash, b.hash⟩ ∧ a.version < b.version ∧ a.generation < b.generation

/-- The edges end at the rows after the first. -/
theorem Rooted.targets (h : Rooted p w) (systemId : String) :
    ((lineageRows w.db systemId).filterMap fun r =>
      edgeTo p.genomeDigest (genomeFromRecord r)).map (·.target) =
        ((lineageRows w.db systemId).map (·.hash)).tail := by
  cases hrows : lineageRows w.db systemId with
  | nil => rfl
  | cons first rest =>
      obtain ⟨hone, hrest⟩ := h.lineageRows_cons hrows
      have hmem : ∀ r ∈ first :: rest, r ∈ w.db.genomes :=
        fun r hr => (mem_lineageRows.mp (hrows ▸ hr)).1
      have hnone : edgeTo p.genomeDigest (genomeFromRecord first) = none := by
        have hparent : (genomeFromRecord first).parentHash = none :=
          h.rootless first (hmem first List.mem_cons_self) hone
        rw [edgeTo, hparent]
        rfl
      rw [List.filterMap_cons, hnone]
      dsimp only
      rw [List.map_cons, List.tail_cons, List.map_filterMap]
      have hedges : ∀ r ∈ rest, (edgeTo p.genomeDigest (genomeFromRecord r)).map (·.target) =
          some r.hash := by
        intro r hr
        obtain ⟨parent, -, hedge⟩ :=
          h.exists_edge (hmem r (List.mem_cons_of_mem _ hr)) (hrest r hr)
        rw [hedge]
        rfl
      rw [List.filterMap_congr hedges, List.filterMap_eq_map']

/-- **The Evolution Graph is a tree**, after every history of operations: it has a node for
    each stored genome of the application, with its version and its status of now, and it is
    drawn as a tree, older versions above. -/
theorem evolution_graph_is_a_tree (host : Host ρ) (history : List Operation) (w : World)
    (hrun : run (NeuroForge.operate host) {} history = some w) (repr : Value → String)
    (systemId : String) :
    (genomeLineage host.platform.genomeDigest repr w.db systemId).IsTree ∧
    (genomeLineage host.platform.genomeDigest repr w.db systemId).nodes.map
        (fun n => (n.hash, n.version, n.status)) =
      (lineageRows w.db systemId).map fun r => (r.hash, r.version, r.status) := by
  have h : Rooted host.platform w :=
    run_invariant (fun _ _ _ h hstep => h.operate hstep) (rooted_empty _) hrun
  have hwf := h.numbered.sound.wellFormed
  have hhash : ∀ r ∈ lineageRows w.db systemId,
      (genomeFromRecord r).hash host.platform.genomeDigest = r.hash :=
    fun r hr => hash_genomeFromRecord hwf (mem_lineageRows.mp hr).1
  have hhashes : ((lineageRows w.db systemId).map fun r =>
      GraphNode.of host.platform.genomeDigest repr (genomeFromRecord r)).map (·.hash) =
        (lineageRows w.db systemId).map (·.hash) := by
    rw [List.map_map]
    exact List.map_congr_left hhash
  rw [genomeLineage_rows hwf]
  refine ⟨⟨?_, ?_, ?_⟩, ?_⟩
  · dsimp only
    rw [hhashes]
    exact nodup_lineageRows hwf
  · dsimp only
    rw [hhashes]
    exact h.targets systemId
  · intro e he
    obtain ⟨r, hr, hedge⟩ := List.mem_filterMap.mp he
    obtain ⟨hrow, hsystem⟩ := mem_lineageRows.mp hr
    have hne : r.version ≠ 1 := by
      intro hone
      have hparent : (genomeFromRecord r).parentHash = none := h.rootless r hrow hone
      rw [edgeTo, hparent] at hedge
      cases hedge
    obtain ⟨parent, hparent, hto⟩ := h.exists_edge hrow hne
    obtain ⟨hversion, hsame, hgeneration⟩ := h.parent_lt hparent
    have hlisted : parent ∈ lineageRows w.db systemId :=
      mem_lineageRows.mpr ⟨hparent.2.1, hsame.trans hsystem⟩
    refine ⟨_, List.mem_map_of_mem hlisted, _, List.mem_map_of_mem hr, ?_, hversion, hgeneration⟩
    rw [hto] at hedge
    rw [← Option.some.inj hedge, GraphEdge.mk.injEq]
    exact ⟨(hhash parent hlisted).symm, (hhash r hr).symm⟩
  · rw [List.map_map]
    refine List.map_congr_left fun r hr => ?_
    exact congrArg (fun hash => (hash, r.version, r.status)) (hhash r hr)

end Rows

/-- The application of the example in which a candidate is found again. -/
theorem evolution_graph_is_a_tree_rediscovered : ∃ w,
    run (NeuroForge.operate exampleHost) {} exampleRediscovery = some w ∧
      (genomeLineage exampleDigest (fun _ => "") w.db "app").edges = [⟨"app-5", "app-8"⟩] ∧
      (genomeLineage exampleDigest (fun _ => "") w.db "app").IsTree := by
  have hedges : (run (NeuroForge.operate exampleHost) {} exampleRediscovery).map
      (fun w => (genomeLineage exampleDigest (fun _ => "") w.db "app").edges) =
        some [⟨"app-5", "app-8"⟩] := by
    decide +kernel
  obtain ⟨w, hw, hedges⟩ := Option.map_eq_some_iff.mp hedges
  exact ⟨w, hw, hedges,
    (evolution_graph_is_a_tree exampleHost exampleRediscovery w hw (fun _ => "") "app").1⟩

end NeuroForge
