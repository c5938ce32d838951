/-
  `db/session.py`: replicas that start together on an older database.

  `_add_missing_columns` goes over the tables of the models, reads the columns a table has
  and adds the nullable ones that are missing; an `ALTER TABLE` that fails is forgiven if
  the column is there when the replica looks again. The reads and the `ALTER`s are steps, of
  any number of replicas; in between, another replica may create a missing table in full, a
  migration may add columns, and an `ALTER` may fail for reasons of its own.

  A replica that gets through leaves every table with all its columns, and one that raises
  has found a column missing that cannot be added, or had an `ALTER` fail for another reason
  than that somebody had been faster (`replicas_upgrade`).
-/
import Mathlib.Data.List.Nodup
import NeuroForge.Lib.Interleaving

namespace NeuroForge

namespace SchemaUpgrade

open Interleaving

structure Column where
  name : String
  nullable : Bool
  deriving DecidableEq

structure Table where
  name : String
  columns : List Column
  deriving DecidableEq

/-- The columns of the tables a database has. -/
abbrev Schema := String → Option (List String)

inductive UpgradeError where
  /-- the `RuntimeError` about a NOT NULL column -/
  | runtimeError (message : String)
  /-- what the database raised -/
  | databaseError
  deriving DecidableEq

/-- What a replica is at in `_add_missing_columns`. -/
inductive Phase where
  | idle
  /-- at the top of the loop over the tables -/
  | tables (rest : List Table)
  /-- the table is there; its columns are to be read -/
  | inspecting (table : Table) (rest : List Table)
  /-- in the loop over the columns -/
  | columns (table : Table) (existing : List String) (left : List Column) (rest : List Table)
  /-- an `ALTER` has failed -/
  | failed (table : Table) (existing : List String) (column : Column) (left : List Column)
      (rest : List Table)
  | done
  | raised (error : UpgradeError)
  deriving DecidableEq

inductive Move where
  | start
  | hasTable
  | getColumns
  /-- a turn of the inner loop that leaves the database alone, or its end -/
  | turn
  /-- `ALTER TABLE .. ADD COLUMN`, which may fail for a reason of its own -/
  | alter (fails : Bool)
  /-- the columns are read again -/
  | lookAgain
  /-- the `create_all` of another replica -/
  | createTable (table : Table)
  | migrate (table column : String)

def missingNotNull (table : Table) (column : Column) : String :=
  s!"table '{table.name}' is missing NOT NULL column '{column.name}'; this database " ++
    "predates the current schema — run `alembic upgrade head` (or start from a new database)"

def Schema.addColumn (schema : Schema) (table column : String) : Schema :=
  Function.update schema table ((schema table).map (· ++ [column]))

/-- The columns are there, whatever of the table. -/
def Schema.has (schema : Schema) (table column : String) : Bool :=
  ((schema table).getD []).contains column

section Steps

variable {ι : Type} (metadata : List Table)

/-- What one replica does next. -/
def next (s : System ι Schema Phase) (i : ι) : Move → Option (Schema × Phase)
  | .start =>
      match s.phase i with
      | .idle => some (s.shared, .tables metadata)
      | _ => none
  | .hasTable =>
      match s.phase i with
      | .tables [] => some (s.shared, .done)
      | .tables (table :: rest) =>
          match s.shared table.name with
          | none => some (s.shared, .tables rest)
          | some _ => some (s.shared, .inspecting table rest)
      | _ => none
  | .getColumns =>
      match s.phase i with
      | .inspecting table rest => (s.shared table.name).map fun existing =>
          (s.shared, .columns table existing table.columns rest)
      | _ => none
  | .turn =>
      match s.phase i with
      | .columns _ _ [] rest => some (s.shared, .tables rest)
      | .columns table existing (column :: left) rest =>
          if column.name ∈ existing then some (s.shared, .columns table existing left rest)
          else if column.nullable then none
          else some (s.shared, .raised (.runtimeError (missingNotNull table column)))
      | _ => none
  | .alter fails =>
      match s.phase i with
      | .columns table existing (column :: left) rest =>
          if column.name ∈ existing ∨ column.nullable = false then none
          else if fails ∨ s.shared.has table.name column.name then
            some (s.shared, .failed table existing column left rest)
          else some (s.shared.addColumn table.name column.name,
            .columns table existing left rest)
      | _ => none
  | .lookAgain =>
      match s.phase i with
      | .failed table existing column left rest =>
          if s.shared.has table.name column.name then
            some (s.shared, .columns table existing left rest)
          else some (s.shared, .raised .databaseError)
      | _ => none
  | .createTable table =>
      if table ∈ metadata ∧ s.shared table.name = none then
        some (Function.update s.shared table.name (some (table.columns.map (·.name))), s.phase i)
      else none
  | .migrate table column => some (s.shared.addColumn table column, s.phase i)

end Steps

/-- Everything a step can do to the schema and to the replica that takes it. -/
inductive Did (metadata : List Table) (s : Schema) : Phase → Move → Schema → Phase → Prop
  | started : Did metadata s .idle .start s (.tables metadata)
  | finished : Did metadata s (.tables []) .hasTable s .done
  | skipped {table rest} (hnone : s table.name = none) :
      Did metadata s (.tables (table :: rest)) .hasTable s (.tables rest)
  | found {table rest existing} (hthere : s table.name = some existing) :
      Did metadata s (.tables (table :: rest)) .hasTable s (.inspecting table rest)
  | read {table rest existing} (hthere : s table.name = some existing) :
      Did metadata s (.inspecting table rest) .getColumns s
        (.columns table existing table.columns rest)
  | wentOn {table existing rest} :
      Did metadata s (.columns table existing [] rest) .turn s (.tables rest)
  | present {table existing column left rest} (hin : column.name ∈ existing) :
      Did metadata s (.columns table existing (column :: left) rest) .turn s
        (.columns table existing left rest)
  | refused {table existing column left rest} (hout : column.name ∉ existing)
      (hnull : column.nullable = false) :
      Did metadata s (.columns table existing (column :: left) rest) .turn s
        (.raised (.runtimeError (missingNotNull table column)))
  | alterFailed {table existing column left rest fails}
      (hwhy : fails = true ∨ s.has table.name column.name = true) :
      Did metadata s (.columns table existing (column :: left) rest) (.alter fails) s
        (.failed table existing column left rest)
  | altered {table existing column left rest fails} :
      Did metadata s (.columns table existing (column :: left) rest) (.alter fails)
        (s.addColumn table.name column.name) (.columns table existing left rest)
  | forgiven {table existing column left rest} (hhas : s.has table.name column.name = true) :
      Did metadata s (.failed table existing column left rest) .lookAgain s
        (.columns table existing left rest)
  | gaveUp {table existing column left rest} (hhas : s.has table.name column.name = false) :
      Did metadata s (.failed table existing column left rest) .lookAgain s
        (.raised .databaseError)
  | created {table phase} (hmem : table ∈ metadata) (hnone : s table.name = none) :
      Did metadata s phase (.createTable table)
        (Function.update s table.name (some (table.columns.map (·.name)))) phase
  | migrated {table column phase} :
      Did metadata s phase (.migrate table column) (s.addColumn table column) phase

section Did

variable {ι : Type} {metadata : List Table}

theorem next_did {s : System ι Schema Phase} {i : ι} {move : Move} {s' : Schema}
    {phase' : Phase} (h : next metadata s i move = some (s', phase')) :
    Did metadata s.shared (s.phase i) move s' phase' := by
  unfold next at h
  generalize s.phase i = phase at h ⊢
  cases move with
  | start =>
      cases phase with
      | idle =>
          cases h
          exact .started
      | _ => cases h
  | hasTable =>
      cases phase with
      | tables rest =>
          cases rest with
          | nil =>
              cases h
              exact .finished
          | cons table rest =>
              cases hthere : s.shared table.name with
              | none =>
                  simp only [hthere] at h
                  cases h
                  exact .skipped hthere
              | some existing =>
                  simp only [hthere] at h
                  cases h
                  exact .found hthere
      | _ => cases h
  | getColumns =>
      cases phase with
      | inspecting table rest =>
          obtain ⟨existing, hthere, h⟩ := Option.map_eq_some_iff.mp h
          cases h
          exact .read hthere
      | _ => cases h
  | turn =>
      cases phase with
      | columns table existing left rest =>
          cases left with
          | nil =>
              cases h
              exact .wentOn
          | cons column left =>
              dsimp only at h
              split_ifs at h with hin hnull
              · cases h
                exact .present hin
              · cases h
                exact .refused hin (Bool.eq_false_iff.mpr hnull)
      | _ => cases h
  | alter fails =>
      cases phase with
      | columns table existing left rest =>
          cases left with
          | nil => cases h
          | cons column left =>
              dsimp only at h
              split_ifs at h with hskip hwhy
              · cases h
                exact .alterFailed hwhy
              · cases h
                exact .altered
      | _ => cases h
  | lookAgain =>
      cases phase with
      | failed table existing column left rest =>
          dsimp only at h
          split_ifs at h with hhas
          · cases h
            exact .forgiven hhas
          · cases h
            exact .gaveUp (Bool.eq_false_iff.mpr hhas)
      | _ => cases h
  | createTable table =>
      dsimp only at h
      split_ifs at h with hmissing
      cases h
      exact .created hmissing.1 hmissing.2
  | migrate table column =>
      cases h
      exact .migrated

end Did

/-! ## What the database keeps -/

/-- If the table is there, it has all its columns. -/
def Full (schema : Schema) (table : Table) : Prop :=
  ∀ existing, schema table.name = some existing → ∀ column ∈ table.columns,
    column.name ∈ existing

/-- Columns stay, and a table that is new is complete. -/
structure Grows (metadata : List Table) (schema schema' : Schema) : Prop where
  keeps : ∀ table existing, schema table = some existing →
    ∃ existing', schema' table = some existing' ∧ existing ⊆ existing'
  complete : ∀ table ∈ metadata, schema table.name = none → Full schema' table

section Grows

variable {metadata : List Table} {s s' s'' : Schema} {table : Table}

theorem Full.mono (h : Full s table) (hgrows : Grows metadata s s') (hmem : table ∈ metadata) :
    Full s' table := by
  intro existing' hexisting' column hcolumn
  cases hs : s table.name with
  | none => exact hgrows.complete table hmem hs existing' hexisting' column hcolumn
  | some existing =>
      obtain ⟨kept, hkept, hsub⟩ := hgrows.keeps _ _ hs
      rw [hkept] at hexisting'
      rw [← Option.some.inj hexisting']
      exact hsub (h existing hs column hcolumn)

theorem Grows.refl (metadata : List Table) (s : Schema) : Grows metadata s s where
  keeps := fun _ existing h => ⟨existing, h, List.Subset.refl _⟩
  complete := by
    intro table _ hnone existing hexisting
    rw [hnone] at hexisting
    cases hexisting

theorem Grows.trans (h : Grows metadata s s') (h' : Grows metadata s' s'') :
    Grows metadata s s'' where
  keeps := by
    intro table existing hs
    obtain ⟨existing', hs', hsub⟩ := h.keeps _ _ hs
    obtain ⟨existing'', hs'', hsub'⟩ := h'.keeps _ _ hs'
    exact ⟨existing'', hs'', List.Subset.trans hsub hsub'⟩
  complete := fun table hmem hnone => (h.complete table hmem hnone).mono h' hmem

theorem grows_addColumn (metadata : List Table) (s : Schema) (table column : String) :
    Grows metadata s (s.addColumn table column) where
  keeps := by
    intro other existing hs
    by_cases hsame : other = table
    · subst hsame
      refine ⟨existing ++ [column], ?_, List.subset_append_left _ _⟩
      rw [Schema.addColumn, Function.update_self, hs]
      rfl
    · refine ⟨existing, ?_, List.Subset.refl _⟩
      rw [Schema.addColumn, Function.update_of_ne hsame, hs]
  complete := by
    intro other _ hnone existing hexisting
    by_cases hsame : other.name = table
    · rw [Schema.addColumn, hsame, Function.update_self, ← hsame, hnone] at hexisting
      cases hexisting
    · rw [Schema.addColumn, Function.update_of_ne hsame, hnone] at hexisting
      cases hexisting

theorem grows_createTable (hnames : (metadata.map (·.name)).Nodup) (hmem : table ∈ metadata)
    (hnone : s table.name = none) :
    Grows metadata s (Function.update s table.name (some (table.columns.map (·.name)))) where
  keeps := by
    intro other existing hs
    have hother : other ≠ table.name := by
      rintro rfl
      rw [hnone] at hs
      cases hs
    exact ⟨existing, by rw [Function.update_of_ne hother, hs], List.Subset.refl _⟩
  complete := by
    intro other hother hs existing hexisting column hcolumn
    by_cases hsame : other.name = table.name
    · obtain rfl : other = table := List.inj_on_of_nodup_map hnames hother hmem hsame
      rw [Function.update_self] at hexisting
      rw [← Option.some.inj hexisting]
      exact List.mem_map_of_mem hcolumn
    · rw [Function.update_of_ne hsame, hs] at hexisting
      cases hexisting

theorem has_iff {column : String} :
    s.has table.name column = true ↔
      ∃ existing, s table.name = some existing ∧ column ∈ existing := by
  unfold Schema.has
  cases s table.name <;> simp

theorem mem_addColumn {existing : List String} {table column : String}
    (h : s table = some existing) :
    s.addColumn table column table = some (existing ++ [column]) := by
  rw [Schema.addColumn, Function.update_self, h]
  rfl

theorem Did.grows (hnames : (metadata.map (·.name)).Nodup) {phase phase' : Phase} {move : Move}
    (h : Did metadata s phase move s' phase') : Grows metadata s s' := by
  cases h with
  | altered => exact grows_addColumn metadata s _ _
  | created hmem hnone => exact grows_createTable hnames hmem hnone
  | migrated => exact grows_addColumn metadata s _ _
  | _ => exact Grows.refl metadata s

end Grows

/-! ## What a replica knows -/

/-- At first the table was there without the column. -/
def Missing (start : Schema) (table : Table) (column : Column) : Prop :=
  ∃ existing, start table.name = some existing ∧ column.name ∉ existing

/-- The tables before these are complete. -/
def Passed (metadata : List Table) (s : Schema) (rest : List Table) : Prop :=
  ∃ before, metadata = before ++ rest ∧ ∀ table ∈ before, Full s table

/-- In the loop over the columns: those before these are there, and those that were not when
    the replica read them were not there at first. -/
structure Inside (metadata : List Table) (start s : Schema) (table : Table)
    (existing : List String) (left : List Column) (rest : List Table) : Prop where
  passed : Passed metadata s (table :: rest)
  there : ∃ now, s table.name = some now ∧ existing ⊆ now ∧
    ∀ column ∈ table.columns, column ∈ left ∨ column.name ∈ now
  own : left ⊆ table.columns
  seen : ∀ column ∈ table.columns, column.name ∉ existing → Missing start table column

/-- What an error says. -/
def Explained (metadata : List Table) (start : Schema) (reliable : Prop) : UpgradeError → Prop
  | .runtimeError message => ∃ table ∈ metadata, ∃ column ∈ table.columns,
      column.nullable = false ∧ Missing start table column ∧
        message = missingNotNull table column
  | .databaseError => ¬ reliable

/-- What holds of a replica; `reliable` is that no `ALTER` fails but for a column that is
    there. -/
def Known (metadata : List Table) (start : Schema) (reliable : Prop) (s : Schema) :
    Phase → Prop
  | .idle => True
  | .tables rest => Passed metadata s rest
  | .inspecting table rest => Passed metadata s (table :: rest)
  | .columns table existing left rest => Inside metadata start s table existing left rest
  | .failed table existing column left rest =>
      Inside metadata start s table existing (column :: left) rest ∧
        (reliable → s.has table.name column.name = true)
  | .done => ∀ table ∈ metadata, Full s table
  | .raised error => Explained metadata start reliable error

section Known

variable {metadata : List Table} {start s s' : Schema} {reliable : Prop} {table : Table}
  {existing : List String} {column : Column} {left : List Column} {rest : List Table}

theorem Passed.mono (h : Passed metadata s rest) (hgrows : Grows metadata s s') :
    Passed metadata s' rest := by
  obtain ⟨before, hsplit, hfull⟩ := h
  refine ⟨before, hsplit, fun table hmem => (hfull table hmem).mono hgrows ?_⟩
  rw [hsplit]
  exact List.mem_append_left _ hmem

theorem Passed.next (h : Passed metadata s (table :: rest)) (hfull : Full s table) :
    Passed metadata s rest := by
  obtain ⟨before, hsplit, hbefore⟩ := h
  refine ⟨before ++ [table], by rw [hsplit, List.append_assoc, List.singleton_append], ?_⟩
  intro other hother
  rcases List.mem_append.mp hother with hold | hnew
  · exact hbefore other hold
  · rw [List.mem_singleton.mp hnew]
    exact hfull

theorem Inside.mono (h : Inside metadata start s table existing left rest)
    (hgrows : Grows metadata s s') : Inside metadata start s' table existing left rest := by
  obtain ⟨now, hnow, hsub, hdone⟩ := h.there
  obtain ⟨then', hthen, hkept⟩ := hgrows.keeps _ _ hnow
  exact ⟨h.passed.mono hgrows, ⟨then', hthen, List.Subset.trans hsub hkept,
    fun column hcolumn => (hdone column hcolumn).imp_right (hkept ·)⟩, h.own, h.seen⟩

/-- A column that is there is done. -/
theorem Inside.next (h : Inside metadata start s table existing (column :: left) rest)
    (hhas : s.has table.name column.name = true) :
    Inside metadata start s table existing left rest := by
  obtain ⟨now, hnow, hsub, hdone⟩ := h.there
  refine ⟨h.passed, ⟨now, hnow, hsub, fun other hother => ?_⟩,
    List.Subset.trans (List.subset_cons_self _ _) h.own, h.seen⟩
  rcases hdone other hother with hleft | hin
  · rcases List.mem_cons.mp hleft with rfl | hlater
    · obtain ⟨found, hfound, hmem⟩ := has_iff.mp hhas
      rw [hnow] at hfound
      exact .inr (Option.some.inj hfound ▸ hmem)
    · exact .inl hlater
  · exact .inr hin

theorem Inside.full (h : Inside metadata start s table existing [] rest) : Full s table := by
  obtain ⟨now, hnow, -, hdone⟩ := h.there
  intro existing' hexisting' column hcolumn
  rw [hnow] at hexisting'
  rcases hdone column hcolumn with hleft | hin
  · cases hleft
  · exact Option.some.inj hexisting' ▸ hin

/-- What others do leaves a replica with what it knows. -/
theorem Known.mono {phase : Phase} (h : Known metadata start reliable s phase)
    (hgrows : Grows metadata s s') : Known metadata start reliable s' phase := by
  cases phase with
  | idle => trivial
  | tables rest => exact Passed.mono h hgrows
  | inspecting table rest => exact Passed.mono h hgrows
  | columns table existing left rest => exact Inside.mono h hgrows
  | failed table existing column left rest =>
      obtain ⟨hinside, hthere⟩ := h
      refine ⟨hinside.mono hgrows, fun hreliable => ?_⟩
      obtain ⟨now, hnow, hin⟩ := has_iff.mp (hthere hreliable)
      obtain ⟨then', hthen, hkept⟩ := hgrows.keeps _ _ hnow
      exact has_iff.mpr ⟨then', hthen, hkept hin⟩
  | done => exact fun table hmem => (h table hmem).mono hgrows hmem
  | raised error => exact h

/-- A column that a replica does not see was missing at first. -/
theorem missing_of_unseen (hgrows : Grows metadata start s) (hmem : table ∈ metadata)
    (hthere : s table.name = some existing) (hcolumn : column ∈ table.columns)
    (hout : column.name ∉ existing) : Missing start table column := by
  cases hstart : start table.name with
  | none => exact absurd (hgrows.complete table hmem hstart existing hthere column hcolumn) hout
  | some first =>
      obtain ⟨now, hnow, hkept⟩ := hgrows.keeps _ _ hstart
      rw [hthere] at hnow
      exact ⟨first, hstart, fun hin => hout (Option.some.inj hnow ▸ hkept hin)⟩

theorem Passed.mem (h : Passed metadata s (table :: rest)) : table ∈ metadata := by
  obtain ⟨before, hsplit, -⟩ := h
  rw [hsplit]
  exact List.mem_append_right _ List.mem_cons_self

/-- What a step leaves the replica that takes it with. -/
theorem Did.known (hnames : (metadata.map (·.name)).Nodup) (hgrows : Grows metadata start s)
    {phase phase' : Phase} {move : Move} (h : Did metadata s phase move s' phase')
    (hknown : Known metadata start reliable s phase)
    (hmove : reliable → move ≠ .alter true) : Known metadata start reliable s' phase' := by
  cases h with
  | started => exact ⟨[], rfl, fun table hmem => by cases hmem⟩
  | finished =>
      obtain ⟨before, hsplit, hfull⟩ := hknown
      rw [List.append_nil] at hsplit
      exact hsplit ▸ hfull
  | skipped hnone =>
      refine Passed.next hknown fun existing hexisting => ?_
      rw [hnone] at hexisting
      cases hexisting
  | found hthere => exact hknown
  | read hthere =>
      exact ⟨hknown, ⟨_, hthere, List.Subset.refl _, fun _ hcolumn => .inl hcolumn⟩,
        List.Subset.refl _, fun _ => missing_of_unseen hgrows (Passed.mem hknown) hthere⟩
  | wentOn => exact hknown.passed.next hknown.full
  | present hin =>
      obtain ⟨now, hnow, hsub, -⟩ := hknown.there
      exact hknown.next (has_iff.mpr ⟨now, hnow, hsub hin⟩)
  | @refused table existing column left rest hout hnull =>
      have hcolumn : column ∈ table.columns := hknown.own List.mem_cons_self
      exact ⟨table, hknown.passed.mem, column, hcolumn, hnull, hknown.seen column hcolumn hout,
        rfl⟩
  | alterFailed hwhy =>
      refine ⟨hknown, fun hreliable => hwhy.resolve_left ?_⟩
      rintro rfl
      exact hmove hreliable rfl
  | altered =>
      obtain ⟨now, hnow, -⟩ := hknown.there
      exact (hknown.mono (grows_addColumn metadata s _ _)).next
        (has_iff.mpr ⟨_, mem_addColumn hnow, by simp⟩)
  | forgiven hhas => exact hknown.1.next hhas
  | gaveUp hhas =>
      intro hreliable
      rw [hknown.2 hreliable] at hhas
      cases hhas
  | created hmem hnone => exact hknown.mono (grows_createTable hnames hmem hnone)
  | migrated => exact hknown.mono (grows_addColumn metadata s _ _)

end Known

section Runs

variable {ι : Type} [DecidableEq ι] {metadata : List Table}

/-- Replicas that are about to start. -/
def replicas (start : Schema) : System ι Schema Phase := ⟨start, fun _ => .idle⟩

/-- The `ALTER` fails for another reason than that the column is there. -/
def FailsAlone : Move → Prop
  | .alter fails => fails = true
  | _ => False

theorem holds_of_run (hnames : (metadata.map (·.name)).Nodup) {start : Schema}
    {as : List (ι × Move)} {s : System ι Schema Phase}
    (hrun : Transition.run (Interleaving.step (next metadata)) (replicas start) as = some s) :
    Grows metadata start s.shared ∧
      ∀ i, Known metadata start (∀ a ∈ as, ¬ FailsAlone a.2) s.shared (s.phase i) := by
  generalize hreliable : (∀ a ∈ as, ¬ FailsAlone a.2) = reliable
  have hok : Transition.Guarded (Interleaving.step (next metadata))
      (fun _ a => True ∧ (reliable → ¬ FailsAlone a.2)) (replicas start) as := by
    refine (Transition.guarded_true _ _ _).and_mem fun a ha hr => ?_
    rw [← hreliable] at hr
    exact hr a ha
  have hstart : Holds (Grows metadata start) (Known metadata start reliable) (fun _ _ => True)
      (replicas start : System ι Schema Phase) :=
    ⟨Grows.refl metadata start, fun _ => trivial, fun _ _ _ => trivial⟩
  have hend : Holds (Grows metadata start) (Known metadata start reliable) (fun _ _ => True)
      s := by
    refine Transition.run_invariant_of_guarded (fun s a s' hs ha hstep => ?_) hstart hok hrun
    refine hs.step (fun _ _ _ => trivial) hstep (fun r hr => ?_) fun r hr j _ => ?_
    · have hdid := next_did hr
      refine ⟨hs.shared.trans (hdid.grows hnames), ?_, fun _ _ => trivial⟩
      refine hdid.known hnames hs.shared (hs.own a.1) fun hr' hmove => ha.2 hr' ?_
      rw [hmove]
      rfl
    · exact (hs.own j).mono ((next_did hr).grows hnames)
  exact ⟨hend.shared, hend.own⟩

/-- **Replicas upgrade together.** However many replicas start on a database with any tables
    and columns, and however their steps, migrations and new tables interleave: while one of
    them is done, every table of the models that is there has all its columns; and one that
    raises names a NOT NULL column that the database lacked at first, unless an `ALTER`
    failed for another reason than that the column was there. -/
theorem replicas_upgrade (hnames : (metadata.map (·.name)).Nodup) {start : Schema}
    {as : List (ι × Move)} {s : System ι Schema Phase}
    (hrun : Transition.run (Interleaving.step (next metadata)) (replicas start) as = some s) :
    (∀ i, s.phase i = .done → ∀ table ∈ metadata, Full s.shared table) ∧
      ∀ i error, s.phase i = .raised error →
        (∃ table ∈ metadata, ∃ column ∈ table.columns, column.nullable = false ∧
          Missing start table column ∧ error = .runtimeError (missingNotNull table column)) ∨
        (error = .databaseError ∧ ∃ a ∈ as, FailsAlone a.2) := by
  obtain ⟨-, hknown⟩ := holds_of_run hnames hrun
  refine ⟨fun i hdone => ?_, fun i error hraised => ?_⟩
  · have h := hknown i
    rw [hdone] at h
    exact h
  · have h := hknown i
    rw [hraised] at h
    cases error with
    | runtimeError message =>
        obtain ⟨table, hmem, column, hcolumn, hnull, hmissing, rfl⟩ := h
        exact .inl ⟨table, hmem, column, hcolumn, hnull, hmissing, rfl⟩
    | databaseError =>
        have hfails : ∃ a ∈ as, FailsAlone a.2 := by
          by_contra hnone
          exact h fun a ha hfail => hnone ⟨a, ha, hfail⟩
        exact .inr ⟨rfl, hfails⟩

end Runs

/-- Two tables of the models, and a database from before the second had its last column. -/
def exampleModels : List Table :=
  [⟨"canary_runs", [⟨"id", false⟩, ⟨"result", false⟩]⟩,
    ⟨"promotion_approvals", [⟨"id", false⟩, ⟨"action", true⟩]⟩]

def olderDatabase : Schema := fun table =>
  if table = "canary_runs" then some ["id", "result"]
  else if table = "promotion_approvals" then some ["id"] else none

/-- A replica's way through the tables up to the missing column. -/
def upToAction (i : Bool) : List (Bool × Move) :=
  [.start, .hasTable, .getColumns, .turn, .turn, .turn, .hasTable, .getColumns, .turn].map (i, ·)

/-- Both find the column missing; the second one to add it looks again. -/
def startedTogether : List (Bool × Move) :=
  upToAction false ++ upToAction true ++ [(true, .alter false), (false, .alter false),
    (false, .lookAgain), (false, .turn), (false, .hasTable), (true, .turn), (true, .hasTable)]

theorem replicas_upgrade_together : ∃ s,
    Transition.run (Interleaving.step (next exampleModels)) (replicas olderDatabase)
        startedTogether = some s ∧
      s.phase false = .done ∧ s.phase true = .done ∧
      ∀ table ∈ exampleModels, Full s.shared table := by
  have hrun : ((Transition.run (Interleaving.step (next exampleModels)) (replicas olderDatabase)
      startedTogether).map fun s => (s.phase false, s.phase true)) = some (.done, .done) := by
    decide +kernel
  obtain ⟨s, hs, hphases⟩ := Option.map_eq_some_iff.mp hrun
  obtain ⟨hfirst, hsecond⟩ := Prod.mk.inj hphases
  have hnames : (exampleModels.map (·.name)).Nodup := by decide
  exact ⟨s, hs, hfirst, hsecond, (replicas_upgrade hnames hs).1 true hsecond⟩

end SchemaUpgrade

end NeuroForge
