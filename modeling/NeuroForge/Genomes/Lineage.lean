/-
  `genomes/lineage.py`: the in-memory store of genomes, and the ancestry it finds.

  A genome is stored under the hash of its content, and the first one added under a hash is
  the one that counts (`firstWithHash`). The two indexes list what is stored in the order of
  adding (`indexed_ofAdds`). The parent hash is no part of the content: a child that changes
  nothing has its own hash for a parent, and a child that goes back to the configuration of an
  ancestor may be stored before it. Then the parent links run in a circle and `ancestry` does
  not return. In every other case it returns the line of descent (`ancestry_iff`), and
  adding parents before their children is enough for that (`ancestry_of_parentsFirst`).

  The graph that is drawn of a store (`lineage_graph`) is with the endpoint that serves it.
-/
import NeuroForge.Genomes.Schema
import NeuroForge.Lib.ParentWalk
import NeuroForge.Lib.Transition

namespace NeuroForge

open ParentWalk Relation

structure GenomeStore where
  byHash : Dict String SystemGenome := []
  children : Dict String (List String) := []
  bySystem : Dict String (List String) := []

/-- `d.setdefault(k, []).append(v)`. -/
def appendAt (d : Dict String (List String)) (k v : String) : Dict String (List String) :=
  Dict.set d k (Dict.getD d k [] ++ [v])

/-- The parent hash, unless it is empty. -/
def SystemGenome.parent? (g : SystemGenome) : Option String :=
  g.parentHash.filter fun p => p ≠ ""

namespace GenomeStore

variable (digest : GenomeDigest)

/-- The genome stored under the hash of `g`, which is `g` if there was none. -/
def add (store : GenomeStore) (g : SystemGenome) : SystemGenome × GenomeStore :=
  let h := g.hash digest
  match Dict.get? store.byHash h with
  | some stored => (stored, store)
  | none => (g, {
      byHash := Dict.set store.byHash h g
      bySystem := appendAt store.bySystem g.systemId h
      children := g.parent?.elim store.children fun p => appendAt store.children p h })

def get (store : GenomeStore) (genomeHash : String) : Option SystemGenome :=
  Dict.get? store.byHash genomeHash

def childrenOf (store : GenomeStore) (genomeHash : String) : List SystemGenome :=
  (Dict.getD store.children genomeHash []).filterMap store.get

def allForSystem (store : GenomeStore) (systemId : String) : List SystemGenome :=
  (Dict.getD store.bySystem systemId []).filterMap store.get

def roots (store : GenomeStore) (systemId : String) : List SystemGenome :=
  (store.allForSystem systemId).filter fun g => g.parentHash.isNone

/-- The genome stored under the parent hash of `g`. -/
def parentOf (store : GenomeStore) (g : SystemGenome) : Option SystemGenome :=
  g.parent?.bind store.get

/-- The genomes from the root to the one with this hash, if the loop ends within `fuel`
    rounds. -/
def ancestry (store : GenomeStore) (fuel : ℕ) (genomeHash : String) :
    Option (List SystemGenome) :=
  (walk store.parentOf fuel (store.get genomeHash)).map List.reverse

/-- A new store after these additions. -/
def ofAdds (gs : List SystemGenome) : GenomeStore :=
  gs.foldl (fun store g => (store.add digest g).2) {}

end GenomeStore

/-- The first genome with a hash. -/
def firstWithHash (digest : GenomeDigest) (gs : List SystemGenome) (h : String) :
    Option SystemGenome :=
  gs.find? fun g => g.hash digest = h

namespace GenomeStore

variable {digest : GenomeDigest}

theorem get_add (store : GenomeStore) (g : SystemGenome) (h : String) :
    (store.add digest g).2.get h =
      (store.get h).or (if g.hash digest = h then some g else none) := by
  unfold add get
  dsimp only
  cases hget : Dict.get? store.byHash (g.hash digest) with
  | some stored =>
      split_ifs with hh
      · subst hh
        rw [hget]
        rfl
      · rw [Option.or_none]
  | none =>
      dsimp only
      split_ifs with hh
      · subst hh
        rw [Dict.get?_set_self, hget]
        rfl
      · rw [Dict.get?_set_of_ne _ _ (Ne.symm hh), Option.or_none]

theorem ofAdds_concat (gs : List SystemGenome) (g : SystemGenome) :
    ofAdds digest (gs ++ [g]) = ((ofAdds digest gs).add digest g).2 := by
  unfold ofAdds
  rw [List.foldl_append, List.foldl_cons, List.foldl_nil]

theorem get_ofAdds (gs : List SystemGenome) (h : String) :
    (ofAdds digest gs).get h = firstWithHash digest gs h := by
  induction gs using List.reverseRecOn with
  | nil => rfl
  | append_singleton gs g ih =>
      rw [ofAdds_concat, get_add, ih]
      unfold firstWithHash
      rw [List.find?_append, List.find?_singleton]
      simp only [decide_eq_true_eq]

/-! ## The indexes -/

/-- The genomes that are stored, in the order of adding. -/
def stored (store : GenomeStore) : List SystemGenome := store.byHash.map Prod.snd

theorem getD_appendAt (d : Dict String (List String)) (k v k' : String) :
    Dict.getD (appendAt d k v) k' [] = Dict.getD d k' [] ++ if k' = k then [v] else [] := by
  unfold appendAt Dict.getD
  split_ifs with hk
  · rw [hk, Dict.get?_set_self]
    rfl
  · rw [Dict.get?_set_of_ne _ _ hk, List.append_nil]

/-- The hashes of the stored genomes with the property, in the order of adding. -/
def hashesWhere (store : GenomeStore) (q : SystemGenome → Prop) [DecidablePred q] : List String :=
  Dict.keys (store.byHash.filter fun e => q e.2)

/-- Each hash is stored once, and the indexes list the hashes they should. -/
structure Indexed (store : GenomeStore) : Prop where
  nodup : (Dict.keys store.byHash).Nodup
  children : ∀ h, Dict.getD store.children h [] = store.hashesWhere fun g => g.parent? = some h
  bySystem : ∀ s, Dict.getD store.bySystem s [] = store.hashesWhere fun g => g.systemId = s

/-- A genome whose hash is new goes to the end of the store. -/
theorem byHash_add {store : GenomeStore} {g : SystemGenome} (h : store.get (g.hash digest) = none) :
    (store.add digest g).2.byHash = store.byHash ++ [(g.hash digest, g)] := by
  unfold get at h
  unfold add
  dsimp only
  rw [h]
  exact if_neg (Dict.get?_eq_none.mp h)

theorem hashesWhere_add {store : GenomeStore} {g : SystemGenome}
    (h : store.get (g.hash digest) = none) (q : SystemGenome → Prop) [DecidablePred q] :
    (store.add digest g).2.hashesWhere q =
      store.hashesWhere q ++ if q g then [g.hash digest] else [] := by
  unfold hashesWhere
  rw [byHash_add h, List.filter_append, Dict.keys, Dict.keys, List.map_append]
  congr 1
  split_ifs with hq <;> simp [hq]

theorem Indexed.add {store : GenomeStore} (h : store.Indexed) (g : SystemGenome) :
    (store.add digest g).2.Indexed := by
  by_cases hnew : store.get (g.hash digest) = none
  · have hadd : (store.add digest g).2.bySystem = appendAt store.bySystem g.systemId
        (g.hash digest) ∧ (store.add digest g).2.children =
        g.parent?.elim store.children fun p => appendAt store.children p (g.hash digest) := by
      unfold get at hnew
      unfold GenomeStore.add
      dsimp only
      rw [hnew]
      exact ⟨rfl, rfl⟩
    refine ⟨?_, fun k => ?_, fun s => ?_⟩
    · rw [byHash_add hnew]
      unfold Dict.keys
      rw [List.map_append, List.map_singleton]
      refine List.nodup_append.mpr ⟨h.nodup, List.pairwise_singleton _ _, fun k hk k' hk' => ?_⟩
      rw [List.mem_singleton.mp hk']
      rintro rfl
      exact Dict.get?_eq_none.mp hnew hk
    · rw [hashesWhere_add hnew, ← h.children, hadd.2]
      cases hparent : g.parent? with
      | none => simp
      | some p =>
          rw [Option.elim_some, getD_appendAt]
          simp only [Option.some_inj, eq_comm]
    · rw [hashesWhere_add hnew, ← h.bySystem, hadd.1, getD_appendAt]
      simp only [eq_comm]
  · obtain ⟨stored, hstored⟩ := Option.ne_none_iff_exists'.mp hnew
    have hsame : (store.add digest g).2 = store := by
      unfold get at hstored
      unfold GenomeStore.add
      dsimp only
      rw [hstored]
    rw [hsame]
    exact h

/-- However a store was filled, its indexes list what it holds. -/
theorem indexed_ofAdds (gs : List SystemGenome) : (ofAdds digest gs).Indexed := by
  induction gs using List.reverseRecOn with
  | nil => exact ⟨List.nodup_nil, fun _ => rfl, fun _ => rfl⟩
  | append_singleton gs g ih =>
      rw [ofAdds_concat]
      exact ih.add g

/-- Every hash that is listed is found. -/
theorem Indexed.filterMap_get {store : GenomeStore} (h : store.Indexed)
    (q : SystemGenome → Prop) [DecidablePred q] :
    (store.hashesWhere q).filterMap store.get = store.stored.filter q := by
  unfold hashesWhere stored Dict.keys
  rw [List.filterMap_map, List.filter_map]
  have hfound : ∀ e ∈ store.byHash.filter fun e => q e.2,
      (store.get ∘ Prod.fst) e = (some ∘ Prod.snd) e := by
    intro e he
    exact Dict.get?_of_mem h.nodup (List.mem_of_mem_filter he)
  rw [List.filterMap_congr hfound, List.filterMap_eq_map]
  rfl

theorem Indexed.childrenOf {store : GenomeStore} (h : store.Indexed) (genomeHash : String) :
    store.childrenOf genomeHash =
      store.stored.filter fun g => g.parent? = some genomeHash := by
  unfold GenomeStore.childrenOf
  rw [h.children, h.filterMap_get]

theorem Indexed.allForSystem {store : GenomeStore} (h : store.Indexed) (systemId : String) :
    store.allForSystem systemId = store.stored.filter fun g => g.systemId = systemId := by
  unfold GenomeStore.allForSystem
  rw [h.bySystem, h.filterMap_get]

theorem Indexed.roots {store : GenomeStore} (h : store.Indexed) (systemId : String) :
    store.roots systemId =
      store.stored.filter fun g => g.parentHash = none ∧ g.systemId = systemId := by
  unfold GenomeStore.roots
  rw [h.allForSystem, List.filter_filter]
  refine List.filter_congr fun g _ => ?_
  have hnone : g.parentHash.isNone = decide (g.parentHash = none) := by
    cases g.parentHash <;> rfl
  rw [hnone, Bool.decide_and]

end GenomeStore

/-! ## Ancestry -/

/-- `g'` is the genome that was added first under the parent hash of `g`. -/
def ParentIn (digest : GenomeDigest) (gs : List SystemGenome) (g g' : SystemGenome) : Prop :=
  ∃ p, g.parent? = some p ∧ firstWithHash digest gs p = some g'

/-- What is asked of the ancestry of a hash. -/
structure IsAncestry (digest : GenomeDigest) (store : GenomeStore) (h : String)
    (chain : List SystemGenome) : Prop where
  nodup : (chain.map (·.hash digest)).Nodup
  last : chain.getLast? = store.get h
  linked : chain.IsChain fun g g' => g'.parentHash = some (g.hash digest)
  root : ∀ g ∈ chain.head?, store.parentOf g = none

section

variable {digest : GenomeDigest} {gs : List SystemGenome} {g g' : SystemGenome} {h : String}

theorem hash_of_firstWithHash (hfirst : firstWithHash digest gs h = some g) :
    g.hash digest = h := by
  simpa using List.find?_some hfirst

theorem parent_parentOf : Parent (GenomeStore.ofAdds digest gs).parentOf = ParentIn digest gs := by
  funext g g'
  unfold Parent GenomeStore.parentOf ParentIn
  rw [Option.bind_eq_some_iff]
  simp only [GenomeStore.get_ofAdds]

theorem ParentIn.parentHash (hparent : ParentIn digest gs g g') :
    g.parentHash = some (g'.hash digest) := by
  obtain ⟨p, hp, hfirst⟩ := hparent
  rw [hash_of_firstWithHash hfirst]
  exact (Option.filter_eq_some_iff.mp hp).1

theorem ParentIn.first (hparent : ParentIn digest gs g g') :
    firstWithHash digest gs (g'.hash digest) = some g' := by
  obtain ⟨p, -, hfirst⟩ := hparent
  rwa [hash_of_firstWithHash hfirst]

theorem firstWithHash_of_reached (hfirst : firstWithHash digest gs h = some g)
    (hreach : ReflTransGen (ParentIn digest gs) g g') :
    firstWithHash digest gs (g'.hash digest) = some g' := by
  cases hreach with
  | refl => rwa [hash_of_firstWithHash hfirst]
  | tail _ hlast => exact hlast.first

theorem walks_isAncestry {as : List SystemGenome} (hfirst : firstWithHash digest gs h = some g)
    (hwalks : Walks (GenomeStore.ofAdds digest gs).parentOf g as) :
    IsAncestry digest (GenomeStore.ofAdds digest gs) h as.reverse where
  nodup := by
    rw [List.map_reverse, List.nodup_reverse]
    refine List.Nodup.map_on (fun x hx y hy heq => ?_) hwalks.nodup
    have hstored : ∀ x ∈ as, firstWithHash digest gs (x.hash digest) = some x := by
      intro x hx
      have hreach := hwalks.reached hx
      rw [parent_parentOf] at hreach
      exact firstWithHash_of_reached hfirst hreach
    exact Option.some.inj ((hstored x hx).symm.trans (heq ▸ hstored y hy))
  last := by
    rw [List.getLast?_reverse, hwalks.head?, GenomeStore.get_ofAdds, hfirst]
  linked := by
    have hchain := hwalks.isChain
    rw [parent_parentOf] at hchain
    rw [List.isChain_reverse]
    exact hchain.imp fun _ _ hparent => hparent.parentHash
  root := by
    intro x hx
    obtain ⟨root, hlast, hroot⟩ := hwalks.getLast?
    rw [List.head?_reverse, hlast] at hx
    obtain rfl := Option.some.inj hx
    exact hroot

/-- All parents are among the genomes that were added. -/
theorem exists_walks_iff_not_circular :
    (∃ as, Walks (GenomeStore.ofAdds digest gs).parentOf g as) ↔
      ∀ a, ReflTransGen (ParentIn digest gs) g a → ¬ TransGen (ParentIn digest gs) a a := by
  have hfinite : ∀ b, TransGen (Parent (GenomeStore.ofAdds digest gs).parentOf) g b → b ∈ gs := by
    intro b hb
    rw [parent_parentOf] at hb
    obtain ⟨c, -, p, -, hfirst⟩ := TransGen.tail'_iff.mp hb
    exact List.mem_of_find?_eq_some hfirst
  rw [exists_walks_iff hfinite, parent_parentOf]

/-- `ancestry` returns the line of descent of a stored genome, given enough rounds, exactly if
    no genome from there on is its own ancestor. -/
theorem ancestry_iff (digest : GenomeDigest) (gs : List SystemGenome) {h : String}
    {g : SystemGenome} (hstored : firstWithHash digest gs h = some g) :
    (∃ chain, (∀ fuel, chain.length ≤ fuel →
        (GenomeStore.ofAdds digest gs).ancestry fuel h = some chain) ∧
      IsAncestry digest (GenomeStore.ofAdds digest gs) h chain) ↔
    ∀ a, ReflTransGen (ParentIn digest gs) g a → ¬ TransGen (ParentIn digest gs) a a := by
  have hget : (GenomeStore.ofAdds digest gs).get h = some g := by
    rw [GenomeStore.get_ofAdds, hstored]
  rw [← exists_walks_iff_not_circular]
  constructor
  · rintro ⟨chain, hreturns, -⟩
    have hends := hreturns chain.length le_rfl
    unfold GenomeStore.ancestry at hends
    rw [hget, Option.map_eq_some_iff] at hends
    obtain ⟨as, has, -⟩ := hends
    exact ⟨as, (walk_eq_some.mp has).1⟩
  · rintro ⟨as, has⟩
    refine ⟨as.reverse, fun fuel hfuel => ?_, walks_isAncestry hstored has⟩
    rw [List.length_reverse] at hfuel
    unfold GenomeStore.ancestry
    rw [hget, walk_eq_some.mpr ⟨has, hfuel⟩]
    rfl

/-! ## Parents first -/

/-- When a genome is stored, its parent is stored already or never will be. -/
def ParentsFirst (digest : GenomeDigest) (gs : List SystemGenome) : Prop :=
  ∀ pre g post, gs = pre ++ g :: post → firstWithHash digest pre (g.hash digest) = none →
    ∀ p, g.parent? = some p →
      firstWithHash digest gs p = none ∨ (firstWithHash digest pre p).isSome

theorem firstWithHash_of_initial {pre : List SystemGenome} (hpre : pre <+: gs)
    (hfirst : firstWithHash digest pre h = some g) : firstWithHash digest gs h = some g := by
  obtain ⟨rest, rfl⟩ := hpre
  unfold firstWithHash at hfirst ⊢
  rw [List.find?_append, hfirst, Option.some_or]

theorem exists_walks_of_parentsFirst (hparents : ParentsFirst digest gs)
    {pre : List SystemGenome} (hpre : pre <+: gs)
    (hfirst : firstWithHash digest pre h = some g) :
    ∃ as, Walks (GenomeStore.ofAdds digest gs).parentOf g as := by
  induction pre using List.reverseRecOn generalizing h g with
  | nil => cases hfirst
  | append_singleton pre x ih =>
      have hbefore : pre <+: gs := (List.prefix_append pre [x]).trans hpre
      unfold firstWithHash at hfirst
      rw [List.find?_append] at hfirst
      cases hold : firstWithHash digest pre h with
      | some g' =>
          rw [show pre.find? _ = some g' from hold, Option.some_or] at hfirst
          obtain rfl := Option.some.inj hfirst
          exact ih hbefore hold
      | none =>
          rw [show pre.find? _ = none from hold, Option.none_or, List.find?_singleton] at hfirst
          split_ifs at hfirst with hx
          obtain rfl := Option.some.inj hfirst
          obtain rfl : x.hash digest = h := of_decide_eq_true hx
          cases hp : x.parent? with
          | none =>
              refine ⟨[x], .last ?_⟩
              unfold GenomeStore.parentOf
              rw [hp]
              rfl
          | some p =>
              obtain ⟨post, hpost⟩ := hpre
              have hsplit : gs = pre ++ x :: post := by
                rw [← hpost, List.append_assoc, List.singleton_append]
              have hparentOf : (GenomeStore.ofAdds digest gs).parentOf x =
                  firstWithHash digest gs p := by
                unfold GenomeStore.parentOf
                rw [hp, Option.bind_some, GenomeStore.get_ofAdds]
              rcases hparents pre x post hsplit hold p hp with hnever | hstored
              · exact ⟨[x], .last (hparentOf.trans hnever)⟩
              · obtain ⟨parent, hparent⟩ := Option.isSome_iff_exists.mp hstored
                obtain ⟨as, has⟩ := ih hbefore hparent
                have hlink := hparentOf.trans (firstWithHash_of_initial hbefore hparent)
                exact ⟨x :: as, .step hlink has⟩

/-- Where parents are stored before their children, every stored genome has its ancestry. -/
theorem ancestry_of_parentsFirst (hparents : ParentsFirst digest gs)
    (hstored : firstWithHash digest gs h = some g) :
    ∃ chain fuel, (GenomeStore.ofAdds digest gs).ancestry fuel h = some chain ∧
      IsAncestry digest (GenomeStore.ofAdds digest gs) h chain := by
  obtain ⟨as, has⟩ := exists_walks_of_parentsFirst hparents List.prefix_rfl hstored
  refine ⟨as.reverse, as.length, ?_, walks_isAncestry hstored has⟩
  unfold GenomeStore.ancestry
  rw [GenomeStore.get_ofAdds, hstored, walk_eq_some.mpr ⟨has, le_rfl⟩]
  rfl

end

/-! ## A line of two and a circle of one -/

section Example

/-- A digest that tells configurations by how much they retrieve. -/
def topKDigest : GenomeDigest := fun c => s!"{c.config.retrieval.topK.val}"

def rootGenome : SystemGenome where
  systemId := "s"
  version := 1

theorem eight_passages : (1 : ℤ) ≤ 8 ∧ (8 : ℤ) ≤ 50 := by norm_num

/-- What `derive` makes of it with `{"retrieval.top_k": 8}`. -/
def widerChild : SystemGenome where
  systemId := "s"
  version := 2
  parentHash := some "5"
  generation := 1
  config := { GenomeConfig.defaults with
    retrieval := { GenomeConfig.defaults.retrieval with topK := ⟨8, eight_passages⟩ } }

/-- What `derive` makes of that with `{"retrieval.top_k": 5}`. -/
def narrowedBack : SystemGenome where
  systemId := "s"
  version := 3
  parentHash := some "8"
  generation := 2

/-- What `derive` makes of the root without overrides. -/
def unchangedChild : SystemGenome where
  systemId := "s"
  version := 2
  parentHash := some "5"
  generation := 1

theorem derive_examples :
    rootGenome.derive topKDigest [] [("retrieval.top_k", .int 8)] 2 1 = .ok widerChild ∧
    widerChild.derive topKDigest [] [("retrieval.top_k", .int 5)] 3 2 = .ok narrowedBack ∧
    rootGenome.derive topKDigest [] [] 2 1 = .ok unchangedChild := by
  refine ⟨?_, ?_, ?_⟩ <;> decide +kernel

end Example

theorem ancestry_widerChild : ∃ chain,
    (∀ fuel, chain.length ≤ fuel →
      (GenomeStore.ofAdds topKDigest [rootGenome, widerChild, narrowedBack]).ancestry fuel "8" =
        some chain) ∧
    IsAncestry topKDigest (GenomeStore.ofAdds topKDigest [rootGenome, widerChild, narrowedBack])
      "8" chain := by
  have hstored : firstWithHash topKDigest [rootGenome, widerChild, narrowedBack] "8" =
      some widerChild := by
    decide +kernel
  refine (ancestry_iff topKDigest _ hstored).mpr (exists_walks_iff_not_circular.mp ?_)
  exact ⟨[widerChild, rootGenome], .step (by decide +kernel) (.last (by decide +kernel))⟩

/-- A child that changes nothing, stored before its parent, is its own parent. -/
theorem ancestry_unchangedChild :
    firstWithHash topKDigest [unchangedChild, rootGenome] "5" = some unchangedChild ∧
    ∀ fuel,
      (GenomeStore.ofAdds topKDigest [unchangedChild, rootGenome]).ancestry fuel "5" = none := by
  have hget : (GenomeStore.ofAdds topKDigest [unchangedChild, rootGenome]).get "5" =
      some unchangedChild := by
    decide +kernel
  have hself : Parent (GenomeStore.ofAdds topKDigest [unchangedChild, rootGenome]).parentOf
      unchangedChild unchangedChild := by
    unfold Parent
    decide +kernel
  refine ⟨by decide +kernel, fun fuel => ?_⟩
  unfold GenomeStore.ancestry
  rw [hget, Option.map_eq_none_iff, Option.eq_none_iff_forall_ne_some]
  intro as has
  exact (walk_eq_some.mp has).1.not_self (.single hself)

end NeuroForge
