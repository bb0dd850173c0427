import Etre.Ddl.Concurrent

/-! What holds of the database at every moment while any number of processes run `CreateOrUpdateMongoSchema`,
    and on every run from a given moment on.

    `createOrUpdateMongoSchema_converges` is about the end of a run. This module reads the same model
    (`Etre.Ddl.Concurrent`) at every reachable state. A step of a reachable system applies a command that the
    sending process's own program may send (`Good`), answered by the database (`step_good`), so each result
    below is one fact about a single command, carried along every run by `reach_db`:

    * `db_moves_toward_config`: a collection only ever holds the index names it started with and the declared
      names of its entity, and only ever has the validation it started with or the one its schema asks for.
    * `kept_indexes_stay`: a declared index or a system (`_`) index, once present, is never removed, in any
      interleaving.
    * `createOrUpdateMongoSchema_idempotent`: started on a database already in the state the config asks for
      (`Converged`), no run of any number of processes changes it. This is what `runSchemaDDL` relies on to
      retry.
    * `db_frozen_after_ok`: once any process has returned nil, the database never changes again, whatever
      the processes still running do. -/

namespace Etre.Ddl
open Etre.Go Prog

/-! ### The state the config asks for -/

/-- An index name the config declares for a collection. -/
def Declared (config : Config) (coll n : String) : Prop :=
  ∃ validations schema, config.lookup coll = some validations ∧ validations.schema = some schema ∧
    n ∈ schema.indexes.map indexName

/-- A database in the state the config asks for: each entity with a schema holds every declared index and
    otherwise only system indexes, and each entity has the validation its schema asks for. -/
def Converged (config : Config) (db : Db) : Prop :=
  ∀ entity validations, config.lookup entity = some validations →
    (∀ schema, validations.schema = some schema →
      (∀ n ∈ schema.indexes.map indexName, n ∈ (db entity).indexes) ∧
      ∀ n ∈ (db entity).indexes, n ∈ schema.indexes.map indexName ∨ hasPrefix n "_" = true) ∧
    expectedValidation validations config.global.schemaValidationConfig.case =
      some ((db entity).validator, (db entity).validationLevel)

/-- What a reachable database keeps of its start and of the config: each index name is one the collection
    started with or a declared one, and each validation is the starting one or the one the schema asks for. -/
structure TowardConfig (config : Config) (db₀ db : Db) : Prop where
  /-- No index is created but a declared one. -/
  indexes : ∀ coll n, n ∈ (db coll).indexes → n ∈ (db₀ coll).indexes ∨ Declared config coll n
  /-- No validation is set but the expected one. -/
  validation : ∀ coll,
    ((db coll).validator = (db₀ coll).validator ∧ (db coll).validationLevel = (db₀ coll).validationLevel) ∨
    ∃ validations, config.lookup coll = some validations ∧
      expectedValidation validations config.global.schemaValidationConfig.case =
        some ((db coll).validator, (db coll).validationLevel)

/-! ### One command -/

section Command

variable {config : Config} {db : Db} {c : Cmd} {r : Reply}

/-- A `Good` command answered by the database leaves a converged database as it is. -/
theorem Converged.apply_eq (hconv : Converged config db) (hc : Good config c) (hr : Responds db c r) :
    db.apply c r = db := by
  cases hr with
  | createOne coll keys u sp n =>
    obtain ⟨validations, schema, hl, hs, hn⟩ := good_createOne_declared hc
    simp [Db.apply, Coll.addIndex, ((hconv coll validations hl).1 schema hs).1 n hn]
  | dropOne coll n hn =>
    obtain ⟨validations, hl, -, schema, hs, hnd, hp⟩ := hc
    rcases ((hconv coll validations hl).1 schema hs).2 n hn with hd | hsys
    · exact absurd hd hnd
    · simp [hp] at hsys
  | collMod coll v l =>
    obtain ⟨validations, hl, -, hv, -⟩ := hc
    have hcur := (hconv coll validations hl).2
    rw [hv, Option.some.injEq, Prod.mk.injEq] at hcur
    obtain ⟨rfl, rfl⟩ := hcur
    simp [Db.apply, Coll.setValidation]
  | listIndexes | cursorError | dropAbsent | transient => rfl

/-- A `Good` command keeps every index name initial or declared, and every validation initial or expected. -/
theorem TowardConfig.apply {db₀ : Db} (h : TowardConfig config db₀ db) (hc : Good config c) :
    TowardConfig config db₀ (db.apply c r) where
  indexes coll n hn := by
    rcases mem_apply_indexes hn with hn | ⟨keys, u, sp, rfl⟩
    · exact h.indexes coll n hn
    · exact .inr (good_createOne_declared hc)
  validation coll := by
    rcases apply_validation db c r coll with ⟨hv, hl⟩ | ⟨v, l, rfl, hv, hl⟩
    · exact hv ▸ hl ▸ h.validation coll
    · obtain ⟨validations, hlk, -, hexp, -⟩ := hc
      rw [hv, hl]
      exact .inr ⟨validations, hlk, hexp⟩

/-- A `Good` command never removes a declared or a system index. -/
theorem mem_apply_of_kept {coll n : String} (hn : n ∈ (db coll).indexes) (hc : Good config c)
    (hkept : Declared config coll n ∨ hasPrefix n "_" = true) : n ∈ (db.apply c r coll).indexes := by
  refine (mem_apply_indexes_of_mem c r hn).resolve_right fun he => ?_
  subst he
  obtain ⟨hp, hobs⟩ := good_dropOne_obsolete hc
  rcases hkept with ⟨validations, schema, hl, hs, hd⟩ | hsys
  · exact hobs validations schema hl hs hd
  · simp [hp] at hsys

end Command

/-! ### Runs -/

section Runs

variable {ι : Type} [DecidableEq ι] {config : Config} {orders : ι → List (String × EntitySchema)} {db₀ : Db}
variable (horders : ∀ i, (orders i).Perm config.entities)
include horders

/-- What a step of a reachable system does to the database: it applies a `Good` command, answered by the
    database. -/
theorem step_good {s s' : Sys ι} (hs : Relation.ReflTransGen Step (Sys.start config orders db₀) s)
    (h : Step s s') : ∃ c r, Good config c ∧ Responds s.db c r ∧ s'.db = s.db.apply c r := by
  obtain @⟨i, c, k, r, hprog, hr⟩ := h
  exact ⟨c, r, (hprog ▸ ((inv_of_reach horders hs).good horders i).1).1, hr, rfl⟩

/-- A property of the database that every `Good` command answered by the database keeps holds along every
    run from a reachable state. -/
theorem reach_db {P : Db → Prop} (hP : ∀ db c r, Good config c → Responds db c r → P db → P (db.apply c r))
    {s s' : Sys ι} (hs : Relation.ReflTransGen Step (Sys.start config orders db₀) s)
    (h : Relation.ReflTransGen Step s s') (h0 : P s.db) : P s'.db := by
  induction h with
  | refl => exact h0
  | tail hreach hstep ih =>
    obtain ⟨c, r, hc, hr, hdb⟩ := step_good horders (hs.trans hreach) hstep
    exact hdb ▸ hP _ c r hc hr ih

/-- A process that returned nil leaves the database in the state the config asks for. -/
theorem converged_of_ok {s : Sys ι} (hs : Relation.ReflTransGen Step (Sys.start config orders db₀) s) {i : ι}
    (hi : (s.procs i).prog = .pure (.ok ())) : Converged config s.db := by
  have hinv := inv_of_reach horders hs
  have hrun : Run (createOrUpdateMongoSchema (orders i) config.global) (s.procs i).log (.ok ()) :=
    (hinv.path i).trans (congrArg some hi)
  intro entity validations hl
  have hdone := run_createOrUpdateMongoSchema_ok config.global (orders i) hrun (hinv.replies i)
    (entity, validations) ((horders i).mem_iff.mpr (Config.mem_of_lookup hl))
  obtain ⟨v, l, x, hv, hx⟩ := hdone.1
  obtain ⟨hvalidator, hlevel⟩ := hinv.observed i _ hx
  refine ⟨fun schema hschema => ⟨fun n hn => ?_, fun n hn => ?_⟩, by rw [hv, hvalidator, hlevel]⟩
  · exact (hinv.indexes_of_done hl hschema hdone n).mpr (.inl hn)
  · exact ((hinv.indexes_of_done hl hschema hdone n).mp hn).imp_right And.right

end Runs

/-! ### The results -/

section Results

variable {ι : Type} [DecidableEq ι]

/-- Any number of processes, each with its own entity order, any interleaving, any transient failures: at
    every moment each collection holds only index names it started with or declared names of its entity, and
    has the validation it started with or the one its schema asks for. -/
theorem db_moves_toward_config (config : Config) (orders : ι → List (String × EntitySchema))
    (horders : ∀ i, (orders i).Perm config.entities) (db₀ : Db) {s : Sys ι}
    (hs : Relation.ReflTransGen Step (Sys.start config orders db₀) s) :
    (∀ coll n, n ∈ (s.db coll).indexes → n ∈ (db₀ coll).indexes ∨ Declared config coll n) ∧
    ∀ coll, ((s.db coll).validator = (db₀ coll).validator ∧
        (s.db coll).validationLevel = (db₀ coll).validationLevel) ∨
      ∃ validations, config.lookup coll = some validations ∧
        expectedValidation validations config.global.schemaValidationConfig.case =
          some ((s.db coll).validator, (s.db coll).validationLevel) := by
  have h : TowardConfig config db₀ s.db :=
    reach_db horders (fun _ _ _ hc _ h => h.apply hc) .refl hs ⟨fun _ _ hn => .inl hn, fun _ => .inl ⟨rfl, rfl⟩⟩
  exact ⟨h.indexes, h.validation⟩

/-- One process, one entity without a schema, after its `collMod` succeeded. -/
theorem db_moves_toward_config_after_collMod :
    let config : Config := ⟨[("hosts", ⟨none⟩)], ⟨⟨⟨false, ""⟩⟩⟩, by decide⟩
    let orders : Unit → List (String × EntitySchema) := fun _ => config.entities
    let db₀ : Db := fun _ => ⟨["_id_"], .empty, ""⟩
    let s : Sys Unit := ⟨db₀.apply (.collMod "hosts" .empty "off") (.ok []), Function.update
      (Sys.start config orders db₀).procs () ⟨.pure (.ok ()), [(.collMod "hosts" .empty "off", .ok [])]⟩⟩
    ((∀ i, (orders i).Perm config.entities) ∧ Relation.ReflTransGen Step (Sys.start config orders db₀) s) ∧
    (∀ coll n, n ∈ (s.db coll).indexes → n ∈ (db₀ coll).indexes ∨ Declared config coll n) ∧
    ∀ coll, ((s.db coll).validator = (db₀ coll).validator ∧
        (s.db coll).validationLevel = (db₀ coll).validationLevel) ∨
      ∃ validations, config.lookup coll = some validations ∧
        expectedValidation validations config.global.schemaValidationConfig.case =
          some ((s.db coll).validator, (s.db coll).validationLevel) := by
  intro config orders db₀ s
  have hstep := Step.call (Sys.start config orders db₀) () rfl (Responds.collMod _ "hosts" .empty "off")
  have hreach : Relation.ReflTransGen Step (Sys.start config orders db₀) s := .single hstep
  exact ⟨⟨fun _ => .refl _, hreach⟩, db_moves_toward_config config orders (fun _ => .refl _) db₀ hreach⟩

/-- Any number of processes, any interleaving: an index that is declared, or a system (`_`) index, is never
    removed once a collection holds it. -/
theorem kept_indexes_stay (config : Config) (orders : ι → List (String × EntitySchema))
    (horders : ∀ i, (orders i).Perm config.entities) (db₀ : Db) {s s' : Sys ι}
    (hs : Relation.ReflTransGen Step (Sys.start config orders db₀) s) (h : Relation.ReflTransGen Step s s')
    (coll n : String) (hkept : Declared config coll n ∨ hasPrefix n "_" = true) (hn : n ∈ (s.db coll).indexes) :
    n ∈ (s'.db coll).indexes :=
  reach_db horders (P := fun db => n ∈ (db coll).indexes) (fun _ _ _ hc _ h => mem_apply_of_kept h hc hkept) hs h hn

/-- One process, an entity with one declared index: once its first step has created the index, the index
    is still there after the listing, the drop of the obsolete index and the `collMod`. -/
theorem kept_indexes_stay_host :
    let index : Index := { keys := ["host"], unique := false, direction := [], sparse := false }
    let config : Config := ⟨[("hosts", ⟨some ⟨[], true, [index], ""⟩⟩)], ⟨⟨⟨false, ""⟩⟩⟩, by decide⟩
    let orders : Unit → List (String × EntitySchema) := fun _ => config.entities
    let db₀ : Db := fun _ => ⟨["_id_", "SL_old"], .empty, ""⟩
    let s := (Sys.start config orders db₀).runSchedule [()]
    let s' := s.runSchedule [(), (), ()]
    ((∀ i, (orders i).Perm config.entities) ∧ Relation.ReflTransGen Step (Sys.start config orders db₀) s ∧
      Relation.ReflTransGen Step s s' ∧ (Declared config "hosts" "SL_host" ∨ hasPrefix "SL_host" "_" = true) ∧
      "SL_host" ∈ (s.db "hosts").indexes) ∧ "SL_host" ∈ (s'.db "hosts").indexes := by
  intro index config orders db₀ s s'
  have hs : Relation.ReflTransGen Step (Sys.start config orders db₀) s := reach_runSchedule _ _
  have h : Relation.ReflTransGen Step s s' := reach_runSchedule _ _
  have hkept : Declared config "hosts" "SL_host" ∨ hasPrefix "SL_host" "_" = true :=
    .inl ⟨_, _, rfl, rfl, List.mem_singleton_self _⟩
  have hn : "SL_host" ∈ (s.db "hosts").indexes := by decide
  exact ⟨⟨fun _ => .refl _, hs, h, hkept, hn⟩,
    kept_indexes_stay config orders (fun _ => .refl _) db₀ hs h "hosts" "SL_host" hkept hn⟩

/-- Started on a database already in the state the config asks for, no run of any number of processes, in
    any interleaving and with any transient failures, changes the database. -/
theorem createOrUpdateMongoSchema_idempotent (config : Config) (orders : ι → List (String × EntitySchema))
    (horders : ∀ i, (orders i).Perm config.entities) (db₀ : Db) (hconv : Converged config db₀) {s : Sys ι}
    (hs : Relation.ReflTransGen Step (Sys.start config orders db₀) s) : s.db = db₀ :=
  reach_db horders (P := (· = db₀)) (fun _ _ _ hc hr h => h ▸ hconv.apply_eq hc (h ▸ hr)) .refl hs rfl

/-- The same run on a database whose collections already have validation off. -/
theorem createOrUpdateMongoSchema_idempotent_validation_off :
    let config : Config := ⟨[("hosts", ⟨none⟩)], ⟨⟨⟨false, ""⟩⟩⟩, by decide⟩
    let orders : Unit → List (String × EntitySchema) := fun _ => config.entities
    let db₀ : Db := fun _ => ⟨["_id_"], .empty, "off"⟩
    let s : Sys Unit := ⟨db₀.apply (.collMod "hosts" .empty "off") (.ok []), Function.update
      (Sys.start config orders db₀).procs () ⟨.pure (.ok ()), [(.collMod "hosts" .empty "off", .ok [])]⟩⟩
    ((∀ i, (orders i).Perm config.entities) ∧ Converged config db₀ ∧
      Relation.ReflTransGen Step (Sys.start config orders db₀) s) ∧ s.db = db₀ := by
  intro config orders db₀ s
  have hstep := Step.call (Sys.start config orders db₀) () rfl (Responds.collMod _ "hosts" .empty "off")
  have hreach : Relation.ReflTransGen Step (Sys.start config orders db₀) s := .single hstep
  have hconv : Converged config db₀ := fun entity validations hl => by
    obtain ⟨rfl, rfl⟩ : entity = "hosts" ∧ validations = ⟨none⟩ := by simpa using Config.mem_of_lookup hl
    exact ⟨(fun _ h => nomatch h), rfl⟩
  exact ⟨⟨fun _ => .refl _, hconv, hreach⟩,
    createOrUpdateMongoSchema_idempotent config orders (fun _ => .refl _) db₀ hconv hreach⟩

/-- Once any process has returned nil, the database never changes again, whatever the processes still
    running send. -/
theorem db_frozen_after_ok (config : Config) (orders : ι → List (String × EntitySchema))
    (horders : ∀ i, (orders i).Perm config.entities) (db₀ : Db) {s s' : Sys ι}
    (hs : Relation.ReflTransGen Step (Sys.start config orders db₀) s) (hok : ∃ i, (s.procs i).prog = .pure (.ok ()))
    (h : Relation.ReflTransGen Step s s') : s'.db = s.db :=
  have hconv := converged_of_ok horders hs hok.choose_spec
  reach_db horders (P := (· = s.db)) (fun _ _ _ hc hr h => h ▸ hconv.apply_eq hc (h ▸ hr)) hs h rfl

/-- Two processes with the same config: `false` creates the index, then `true` runs to its end and returns nil;
    `false` then lists, finds nothing to drop, sends its `collMod` and returns nil, and the database stays as
    it is. -/
theorem db_frozen_after_ok_two :
    let index : Index := { keys := ["host"], unique := false, direction := [], sparse := false }
    let config : Config := ⟨[("hosts", ⟨some ⟨[], true, [index], ""⟩⟩)], ⟨⟨⟨false, ""⟩⟩⟩, by decide⟩
    let orders : Bool → List (String × EntitySchema) := fun _ => config.entities
    let db₀ : Db := fun _ => ⟨["_id_", "SL_old"], .empty, ""⟩
    let s := (Sys.start config orders db₀).runSchedule [false, true, true, true, true]
    let s' := s.runSchedule [false, false]
    ((∀ i, (orders i).Perm config.entities) ∧ Relation.ReflTransGen Step (Sys.start config orders db₀) s ∧
      (∃ i, (s.procs i).prog = .pure (.ok ())) ∧ Relation.ReflTransGen Step s s' ∧
      (s.procs false).log.length = 1 ∧ (s'.procs false).prog = .pure (.ok ())) ∧ s'.db = s.db := by
  intro index config orders db₀ s s'
  have hs : Relation.ReflTransGen Step (Sys.start config orders db₀) s := reach_runSchedule _ _
  have h : Relation.ReflTransGen Step s s' := reach_runSchedule _ _
  have hok : ∃ i, (s.procs i).prog = .pure (.ok ()) := ⟨true, eq_pure_of_result (by decide)⟩
  exact ⟨⟨fun _ => .refl _, hs, hok, h, by decide, eq_pure_of_result (by decide)⟩,
    db_frozen_after_ok config orders (fun _ => .refl _) db₀ hs hok h⟩

end Results

end Etre.Ddl
