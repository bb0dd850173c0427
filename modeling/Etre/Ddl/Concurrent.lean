import Etre.Ddl.Runs
import Mathlib.Logic.Function.Basic
import Mathlib.Logic.Relation

/-! Any number of processes running `CreateOrUpdateMongoSchema` with one config against one database.

    The database is a map from collection names to their index names and validation. Each command is atomic
    (`Db.apply`), and `Responds` says which replies the database may give: `CreateOne` adds its name unless an
    index of that name exists, `DropOne` of an absent name fails with `index not found`, a listing returns a
    cursor of the current names (or of some of them, then a cursor error), and any command may instead fail with
    a transient error that changes nothing. No reply reports an index build in progress. A step of the system
    lets one process send its next command and get such a reply, so every interleaving of the processes is a
    sequence of steps.

    Whatever process sends it, a command is one its own program may send (`Good`): it creates only declared
    names, drops only names neither declared nor system names, and sets only the validation the schema asks
    for. So every reply a process has seen stays true of the database (`Inv.observed`), and once one process
    has returned nil the database is in the state the config asks for (`createOrUpdateMongoSchema_converges`).
    A config with a schema that fails the checks can return an error with no failure at all
    (`createOrUpdateMongoSchema_fails_without_failures`). -/

namespace Etre.Ddl
open Etre.Go Prog

/-! ### The database -/

/-- A collection as the DDL code sees it: the names of its indexes, and its validator and validation level. -/
structure Coll where
  indexes : List String
  validator : Validator
  validationLevel : String

/-- The database: every collection by name. -/
abbrev Db := String → Coll

/-- `CreateOne` on a collection: the name is added unless an index of that name exists. -/
def Coll.addIndex (name : String) (c : Coll) : Coll :=
  if name ∈ c.indexes then c else { c with indexes := c.indexes ++ [name] }

/-- `DropOne` of a present name. -/
def Coll.dropIndex (name : String) (c : Coll) : Coll := { c with indexes := c.indexes.filter (· ≠ name) }

/-- `collMod`. -/
def Coll.setValidation (validator : Validator) (level : String) (c : Coll) : Coll :=
  { c with validator := validator, validationLevel := level }

/-- The database after a command: a success applies it, a failure changes nothing. -/
def Db.apply (db : Db) (c : Cmd) : Reply → Db
  | .error _ => db
  | .ok _ =>
    match c with
    | .createOne coll _ _ _ name => Function.update db coll ((db coll).addIndex name)
    | .listIndexes _ => db
    | .dropOne coll name => Function.update db coll ((db coll).dropIndex name)
    | .collMod coll v l => Function.update db coll ((db coll).setValidation v l)

/-- The replies the database may give to a command. -/
inductive Responds : Db → Cmd → Reply → Prop
  | createOne (db : Db) (coll : String) (keys : List (String × Int)) (unique sparse : Bool) (name : String) :
      Responds db (.createOne coll keys unique sparse name) (.ok [])
  | listIndexes (db : Db) (coll : String) : Responds db (.listIndexes coll) (.ok ((db coll).indexes.map .named))
  | cursorError (db : Db) (coll : String) (n : Nat) (m : String) :
      Responds db (.listIndexes coll) (.ok (((db coll).indexes.take n).map .named ++ [.failed m]))
  | dropOne (db : Db) (coll name : String) (h : name ∈ (db coll).indexes) : Responds db (.dropOne coll name) (.ok [])
  | dropAbsent (db : Db) (coll name m : String) (h : name ∉ (db coll).indexes)
      (hm : contains m indexNotFound = true) : Responds db (.dropOne coll name) (.error m)
  | collMod (db : Db) (coll : String) (v : Validator) (l : String) : Responds db (.collMod coll v l) (.ok [])
  | transient (db : Db) (c : Cmd) (m : String) (hm : contains m indexNotFound = false)
      (hb : contains m buildInProgress = false) : Responds db c (.error m)

@[simp] theorem mem_addIndex {name n : String} {c : Coll} :
    n ∈ (c.addIndex name).indexes ↔ n ∈ c.indexes ∨ n = name := by
  unfold Coll.addIndex
  split_ifs with h
  · exact ⟨.inl, by rintro (h' | rfl) <;> assumption⟩
  · simp

@[simp] theorem mem_dropIndex {name n : String} {c : Coll} :
    n ∈ (c.dropIndex name).indexes ↔ n ∈ c.indexes ∧ n ≠ name := by
  simp [Coll.dropIndex]

@[simp] theorem addIndex_validator (name : String) (c : Coll) : (c.addIndex name).validator = c.validator := by
  unfold Coll.addIndex; split_ifs <;> rfl

@[simp] theorem addIndex_validationLevel (name : String) (c : Coll) :
    (c.addIndex name).validationLevel = c.validationLevel := by
  unfold Coll.addIndex; split_ifs <;> rfl

@[simp] theorem setValidation_indexes (v : Validator) (l : String) (c : Coll) :
    (c.setValidation v l).indexes = c.indexes := rfl

/-- A command changes no collection but its own. -/
theorem apply_of_ne {db : Db} {c : Cmd} (r : Reply) {coll : String} (h : coll ≠ c.coll) :
    db.apply c r coll = db coll := by
  rcases r with _ | _
  · rfl
  · cases c <;> simp only [Cmd.coll] at h <;> simp [Db.apply, Function.update_noteq h]

/-- A name appears in a collection only by a `CreateOne` of it. -/
theorem mem_apply_indexes {db : Db} {c : Cmd} {r : Reply} {coll n : String}
    (h : n ∈ (db.apply c r coll).indexes) : n ∈ (db coll).indexes ∨ ∃ keys u sp, c = .createOne coll keys u sp n := by
  by_cases hc : coll = c.coll
  · subst hc
    rcases r with _ | _
    · exact .inl h
    · cases c with
      | createOne coll keys u sp name =>
        simp only [Db.apply, Cmd.coll, Function.update_same, mem_addIndex] at h
        exact h.imp_right fun hn => ⟨keys, u, sp, by subst hn; rfl⟩
      | dropOne => simp only [Db.apply, Cmd.coll, Function.update_same, mem_dropIndex] at h; exact .inl h.1
      | listIndexes | collMod => exact .inl (by simpa [Db.apply, Cmd.coll] using h)
  · exact .inl (by rwa [apply_of_ne r hc] at h)

/-- A name leaves a collection only by a `DropOne` of it. -/
theorem mem_apply_indexes_of_mem {db : Db} (c : Cmd) (r : Reply) {coll n : String}
    (h : n ∈ (db coll).indexes) : n ∈ (db.apply c r coll).indexes ∨ c = .dropOne coll n := by
  by_cases hc : coll = c.coll
  · subst hc
    rcases r with _ | _
    · exact .inl h
    · cases c with
      | dropOne coll name =>
        by_cases hn : n = name
        · exact .inr (hn ▸ rfl)
        · exact .inl (by simp_all [Db.apply, Cmd.coll])
      | createOne | listIndexes | collMod => exact .inl (by simp_all [Db.apply, Cmd.coll])
  · exact .inl (by rwa [apply_of_ne r hc])

/-- A name's membership changes only by a `CreateOne` or a `DropOne` of it. -/
theorem mem_apply_indexes_iff {db : Db} {c : Cmd} {r : Reply} {coll n : String}
    (hc : ∀ keys u sp, c ≠ .createOne coll keys u sp n) (hd : c ≠ .dropOne coll n) :
    n ∈ (db.apply c r coll).indexes ↔ n ∈ (db coll).indexes :=
  ⟨fun h => (mem_apply_indexes h).resolve_right fun ⟨keys, u, sp, he⟩ => hc keys u sp he,
    fun h => (mem_apply_indexes_of_mem c r h).resolve_right hd⟩

/-- The validation of a collection changes only by a successful `collMod` on it. -/
theorem apply_validation (db : Db) (c : Cmd) (r : Reply) (coll : String) :
    ((db.apply c r coll).validator = (db coll).validator ∧
      (db.apply c r coll).validationLevel = (db coll).validationLevel) ∨
    ∃ v l, c = .collMod coll v l ∧ (db.apply c r coll).validator = v ∧ (db.apply c r coll).validationLevel = l := by
  by_cases hc : coll = c.coll
  · subst hc
    rcases r with _ | _
    · exact .inl ⟨rfl, rfl⟩
    · cases c with
      | collMod coll v l => exact .inr ⟨v, l, rfl, by simp [Db.apply, Cmd.coll, Coll.setValidation]⟩
      | createOne | listIndexes | dropOne => exact .inl (by simp [Db.apply, Cmd.coll, Coll.dropIndex])
  · exact .inl (by rw [apply_of_ne r hc]; exact ⟨rfl, rfl⟩)

theorem Responds.noBuildInProgress {db : Db} {c : Cmd} {r : Reply} (h : Responds db c r) :
    NoBuildInProgress c r := by
  cases h with
  | transient _ _ _ hb => cases c <;> simp [NoBuildInProgress, reportsBuildInProgress, hb]
  | _ => rfl

/-! ### What the processes may send, and what their replies tell -/

section Config

variable (config : Config)

/-- What any process may send under `config`: what the run for the command's collection may send. -/
def Good (c : Cmd) : Prop :=
  ∃ validations, config.lookup c.coll = some validations ∧
    EntityCmd c.coll validations config.global.schemaValidationConfig.case c

/-- A collection whose entity has a schema, so whose indexes the code manages. -/
def Managed (coll : String) : Prop :=
  ∃ validations schema, config.lookup coll = some validations ∧ validations.schema = some schema

/-- An index name the drop phase removes from a collection: neither declared nor a system name. -/
def Obsolete (coll n : String) : Prop :=
  hasPrefix n "_" = false ∧ ∀ validations schema, config.lookup coll = some validations →
    validations.schema = some schema → n ∉ schema.indexes.map indexName

/-- What a reply tells about the database right after its command: a created name is there, a dropped name
    (or one found gone) is not, a listing holds every obsolete name, a `collMod` set the validation. -/
def Observed (db : Db) : Cmd → Reply → Prop
  | .createOne coll _ _ _ name, .ok _ => name ∈ (db coll).indexes
  | .listIndexes coll, .ok items =>
    ∀ n ∈ (db coll).indexes, Obsolete config coll n → .named n ∈ items ∨ ∃ m, .failed m ∈ items
  | .dropOne coll name, r => Settled (.dropOne coll name) r → name ∉ (db coll).indexes
  | .collMod coll v l, .ok _ => (db coll).validator = v ∧ (db coll).validationLevel = l
  | _, _ => True

end Config

theorem EntityCmd.coll_eq {entity : String} {validations : EntitySchema} {g : Case} {c : Cmd}
    (h : EntityCmd entity validations g c) : c.coll = entity := by
  cases c <;> exact h.1

theorem hasPrefix_indexName (index : Index) : hasPrefix (indexName index) "_" = false := by
  unfold indexName
  split_ifs <;> rfl

/-- Every process runs a program that sends only `Good` commands. -/
theorem createOrUpdateMongoSchema_good (config : Config) : ∀ entities : List (String × EntitySchema),
    (∀ x ∈ entities, config.lookup x.1 = some x.2) →
    Spec NoBuildInProgress (Good config) (fun _ => True) (createOrUpdateMongoSchema entities config.global)
  | [], _ => trivial
  | (entity, validations) :: entities, h =>
    ((createOrUpdateEntity_spec entity validations config.global).mono
      (fun c hc => ⟨validations, hc.coll_eq ▸ h _ (List.mem_cons_self _ _), hc.coll_eq ▸ hc⟩)
      fun _ _ => trivial).bind fun r _ => by
        rcases r with _ | ⟨⟩
        · trivial
        · exact createOrUpdateMongoSchema_good config entities fun x hx => h x (List.mem_cons_of_mem _ hx)

section Replies

variable {config : Config} {db : Db} {c : Cmd} {r : Reply}

/-- A reply is true of the database it leaves. -/
theorem Responds.observed (h : Responds db c r) : Observed config (db.apply c r) c r := by
  cases h with
  | createOne => simp [Observed, Db.apply]
  | listIndexes => exact fun n hn _ => .inl (List.mem_map_of_mem _ hn)
  | cursorError _ _ m => exact fun _ _ _ => .inr ⟨m, by simp⟩
  | dropOne => simp [Observed, Db.apply]
  | dropAbsent _ _ _ hn => exact fun _ => hn
  | collMod => simp [Observed, Db.apply, Coll.setValidation]
  | transient => cases c <;> simp_all [Observed, Settled]

theorem good_createOne_declared {coll n : String} {keys : List (String × Int)} {u sp : Bool}
    (h : Good config (.createOne coll keys u sp n)) :
    ∃ validations schema, config.lookup coll = some validations ∧ validations.schema = some schema ∧
      n ∈ schema.indexes.map indexName := by
  obtain ⟨validations, hl, -, schema, hs, hn⟩ := h
  exact ⟨validations, schema, hl, hs, hn⟩

theorem good_createOne_not_obsolete {coll n : String} {keys : List (String × Int)} {u sp : Bool}
    (h : Good config (.createOne coll keys u sp n)) : ¬Obsolete config coll n := by
  obtain ⟨validations, schema, hl, hs, hn⟩ := good_createOne_declared h
  exact fun ho => ho.2 validations schema hl hs hn

theorem good_dropOne_obsolete {coll n : String} (h : Good config (.dropOne coll n)) : Obsolete config coll n := by
  obtain ⟨validations, hl, -, schema, hs, hn, hp⟩ := h
  refine ⟨hp, fun validations' schema' hl' hs' => ?_⟩
  cases hl.symm.trans hl'
  cases hs.symm.trans hs'
  exact hn

/-- A reply a process has seen stays true when any process sends a `Good` command. -/
theorem Observed.apply {x : Cmd × Reply} (hx : Observed config db x.1 x.2) (hgx : Good config x.1)
    (hc : Good config c) : Observed config (db.apply c r) x.1 x.2 := by
  obtain ⟨c', r'⟩ := x
  cases c' with
  | createOne coll keys u sp n =>
    rcases r' with _ | _
    · trivial
    · rcases mem_apply_indexes_of_mem c r hx with h | rfl
      · exact h
      · exact absurd (good_dropOne_obsolete hc) (good_createOne_not_obsolete hgx)
  | listIndexes coll =>
    rcases r' with _ | items
    · trivial
    · intro n hn ho
      rcases mem_apply_indexes hn with h | ⟨keys, u, sp, rfl⟩
      · exact hx n h ho
      · exact absurd ho (good_createOne_not_obsolete hc)
  | dropOne coll n =>
    intro hs hn
    rcases mem_apply_indexes hn with h | ⟨keys, u, sp, rfl⟩
    · exact hx hs h
    · exact absurd (good_dropOne_obsolete hgx) (good_createOne_not_obsolete hc)
  | collMod coll v l =>
    rcases r' with _ | _
    · trivial
    · rcases apply_validation db c r coll with ⟨h₁, h₂⟩ | ⟨v', l', rfl, h₁, h₂⟩
      · exact ⟨h₁.trans hx.1, h₂.trans hx.2⟩
      · obtain ⟨_, hl, -, hv, -⟩ := hgx
        obtain ⟨_, hl', -, hv', -⟩ := hc
        cases hl.symm.trans hl'
        obtain ⟨rfl, rfl⟩ := Prod.mk.inj (Option.some.inj (hv.symm.trans hv'))
        exact ⟨h₁, h₂⟩

end Replies

/-! ### Processes and steps -/

/-- A process: the rest of its program, and the commands it has sent with the replies it got. -/
structure Proc where
  prog : Prog (Except GoError Unit)
  log : List (Cmd × Reply)

/-- The database and the processes. -/
structure Sys (ι : Type) where
  db : Db
  procs : ι → Proc

variable {ι : Type}

/-- Every process about to run `CreateOrUpdateMongoSchema` with `config`, each in its own entity order. -/
def Sys.start (config : Config) (orders : ι → List (String × EntitySchema)) (db₀ : Db) : Sys ι :=
  ⟨db₀, fun i => ⟨createOrUpdateMongoSchema (orders i) config.global, []⟩⟩

/-- One atomic step: a process sends its next command and gets a reply the database may give. -/
inductive Step [DecidableEq ι] : Sys ι → Sys ι → Prop
  | call (s : Sys ι) (i : ι) {c : Cmd} {k : Reply → Prog (Except GoError Unit)} {r : Reply}
      (hprog : (s.procs i).prog = .call c k) (hr : Responds s.db c r) :
      Step s ⟨s.db.apply c r, Function.update s.procs i ⟨k r, (s.procs i).log ++ [(c, r)]⟩⟩

/-- What holds of every reachable system. -/
structure Inv (config : Config) (orders : ι → List (String × EntitySchema)) (db₀ : Db) (s : Sys ι) : Prop where
  /-- Each process got where it is by following its own program. -/
  path : ∀ i, (createOrUpdateMongoSchema (orders i) config.global).resume (s.procs i).log = some (s.procs i).prog
  /-- No reply has reported an index build in progress. -/
  replies : ∀ i, ∀ x ∈ (s.procs i).log, NoBuildInProgress x.1 x.2
  /-- The system indexes are those the database started with. -/
  system : ∀ coll n, hasPrefix n "_" = true → (n ∈ (s.db coll).indexes ↔ n ∈ (db₀ coll).indexes)
  /-- A collection whose entity has no schema keeps the indexes it started with. -/
  unmanaged : ∀ coll, ¬Managed config coll → ∀ n, (n ∈ (s.db coll).indexes ↔ n ∈ (db₀ coll).indexes)
  /-- Every reply any process has seen is still true of the database. -/
  observed : ∀ i, ∀ x ∈ (s.procs i).log, Observed config s.db x.1 x.2

section Reach

variable {config : Config} {orders : ι → List (String × EntitySchema)} {db₀ : Db}

theorem inv_start : Inv config orders db₀ (Sys.start config orders db₀) where
  path _ := resume_nil _
  replies _ _ h := absurd h (List.not_mem_nil _)
  system _ _ _ := Iff.rfl
  unmanaged _ _ _ := Iff.rfl
  observed _ _ h := absurd h (List.not_mem_nil _)

variable (horders : ∀ i, (orders i).Perm config.entities)
include horders

/-- Each process's program, from where it stands, sends only `Good` commands, and so did it so far. -/
theorem Inv.good {s : Sys ι} (hs : Inv config orders db₀ s) (i : ι) :
    Spec NoBuildInProgress (Good config) (fun _ => True) (s.procs i).prog ∧ ∀ x ∈ (s.procs i).log, Good config x.1 :=
  (createOrUpdateMongoSchema_good config (orders i) fun _ hx =>
    Config.lookup_of_mem ((horders i).mem_iff.mp hx)).resume (hs.replies i) (hs.path i)

theorem Inv.step [DecidableEq ι] {s s' : Sys ι} (hs : Inv config orders db₀ s) (h : Step s s') : Inv config orders db₀ s' := by
  obtain @⟨i, c, k, r, hprog, hr⟩ := h
  have hgood := hs.good horders
  have hc : Good config c := (hprog ▸ (hgood i).1).1
  have hmem : ∀ j x, x ∈ (Function.update s.procs i ⟨k r, (s.procs i).log ++ [(c, r)]⟩ j).log →
      x ∈ (s.procs j).log ∨ x = (c, r) := by
    intro j x hx
    by_cases hj : j = i
    · subst hj; simpa using hx
    · exact .inl (by simpa [Function.update_noteq hj] using hx)
  refine ⟨fun j => ?path, fun j x hx => ?replies, fun coll n hn => ?system, fun coll hcoll n => ?unmanaged,
    fun j x hx => ?observed⟩
  case path =>
    by_cases hj : j = i
    · subst hj; simpa using resume_snoc ((hs.path j).trans (congrArg some hprog)) r
    · simpa [Function.update_noteq hj] using hs.path j
  case replies =>
    rcases hmem j x hx with hx | rfl
    · exact hs.replies j x hx
    · exact hr.noBuildInProgress
  case system =>
    rw [← hs.system coll n hn]
    refine mem_apply_indexes_iff (fun keys u sp he => ?_) fun he => ?_ <;> subst he
    · obtain ⟨_, schema, -, -, hmem⟩ := good_createOne_declared hc
      obtain ⟨index, -, rfl⟩ := List.mem_map.mp hmem
      simp [hasPrefix_indexName] at hn
    · simp [(good_dropOne_obsolete hc).1] at hn
  case unmanaged =>
    rw [← hs.unmanaged coll hcoll n]
    refine mem_apply_indexes_iff (fun keys u sp he => ?_) fun he => ?_ <;> subst he
    · obtain ⟨validations, schema, hl, hsch, -⟩ := good_createOne_declared hc
      exact hcoll ⟨validations, schema, hl, hsch⟩
    · obtain ⟨validations, hl, -, schema, hsch, -⟩ := hc
      exact hcoll ⟨validations, schema, hl, hsch⟩
  case observed =>
    rcases hmem j x hx with hx | rfl
    · exact (hs.observed j x hx).apply ((hgood j).2 x hx) hc
    · exact hr.observed

theorem inv_of_reach [DecidableEq ι] {s : Sys ι} (h : Relation.ReflTransGen Step (Sys.start config orders db₀) s) :
    Inv config orders db₀ s := by
  induction h with
  | refl => exact inv_start
  | tail _ hstep ih => exact ih.step horders hstep

end Reach

/-! ### Scheduled runs -/

/-- The reply of a database that never fails but on a `DropOne` of an absent name: a listing gives a cursor of
    the current names. -/
def Db.answer (db : Db) : Cmd → Reply
  | .listIndexes coll => .ok ((db coll).indexes.map .named)
  | .dropOne coll name => if name ∈ (db coll).indexes then .ok [] else .error indexNotFound
  | _ => .ok []

theorem responds_answer (db : Db) (c : Cmd) : Responds db c (db.answer c) := by
  cases c with
  | createOne => exact .createOne ..
  | listIndexes => exact .listIndexes ..
  | dropOne coll name =>
    by_cases h : name ∈ (db coll).indexes
    · simpa [Db.answer, h] using Responds.dropOne db coll name h
    · simpa [Db.answer, h] using Responds.dropAbsent db coll name indexNotFound h (by simp [contains])
  | collMod => exact .collMod ..

section Schedule

variable [DecidableEq ι]

/-- Process `i` sends its next command, if it has one, and gets the database's answer. -/
def Sys.perform (s : Sys ι) (i : ι) : Sys ι :=
  match (s.procs i).prog with
  | .pure _ => s
  | .call c k =>
    ⟨s.db.apply c (s.db.answer c),
      Function.update s.procs i ⟨k (s.db.answer c), (s.procs i).log ++ [(c, s.db.answer c)]⟩⟩

/-- The processes take their turns in the order `sched` names them. -/
def Sys.runSchedule (s : Sys ι) : List ι → Sys ι
  | [] => s
  | i :: sched => (s.perform i).runSchedule sched

theorem reach_perform (s : Sys ι) (i : ι) : Relation.ReflTransGen Step s (s.perform i) := by
  unfold Sys.perform
  split
  · exact .refl
  · next c k h => exact .single (.call s i h (responds_answer s.db c))

/-- Every schedule is a run of the system. -/
theorem reach_runSchedule (s : Sys ι) : ∀ sched, Relation.ReflTransGen Step s (s.runSchedule sched)
  | [] => .refl
  | i :: sched => (reach_perform s i).trans (reach_runSchedule _ sched)

end Schedule

/-! ### Convergence -/

section Done

variable {config : Config} {orders : ι → List (String × EntitySchema)} {db₀ : Db}

/-- Once a process has done an entity's index work, the entity has exactly its declared indexes besides the
    system indexes it started with: a declared name was created and no process drops it, and any other name
    was listed (it was there), so dropped or found gone, and no process creates it again. -/
theorem Inv.indexes_of_done {s : Sys ι} (hs : Inv config orders db₀ s) {i : ι} {entity : String}
    {validations : EntitySchema} {schema : Schema} (hl : config.lookup entity = some validations)
    (hschema : validations.schema = some schema)
    (hdone : EntityDone entity validations config.global.schemaValidationConfig.case (s.procs i).log) (n : String) :
    n ∈ (s.db entity).indexes ↔
      n ∈ schema.indexes.map indexName ∨ (n ∈ (db₀ entity).indexes ∧ hasPrefix n "_" = true) := by
  obtain ⟨hcreated, L, hL, hdropped⟩ := hdone.2 schema hschema
  constructor
  · intro hn
    by_cases hp : hasPrefix n "_" = true
    · exact .inr ⟨(hs.system entity n hp).mp hn, hp⟩
    · refine .inl (Classical.byContradiction fun hd => ?_)
      have hp : hasPrefix n "_" = false := by simpa using hp
      have hobs : Obsolete config entity n := ⟨hp, fun validations' schema' hl' hs' => by
        cases hl.symm.trans hl'; cases hschema.symm.trans hs'; exact hd⟩
      have hlisted : n ∈ L := by simpa using hs.observed i _ hL n hn hobs
      obtain ⟨r, hr, hset⟩ := hdropped n hlisted hd hp
      exact hs.observed i _ hr hset hn
  · rintro (hn | ⟨hn, hp⟩)
    · obtain ⟨index, hindex, rfl⟩ := List.mem_map.mp hn
      obtain ⟨keys, x, hx⟩ := hcreated index hindex
      exact hs.observed i _ hx
    · exact (hs.system entity n hp).mpr hn

end Done

/-- Any number of processes, each with its own entity order, any interleaving, any transient failures, no
    build in progress. A process whose only failures are `DropOne`s of indexes already gone returns nil, if
    every schema of the config passes the checks. Once any process has returned nil, every entity with a
    schema has exactly its declared indexes besides the system indexes it started with, every entity without
    one keeps its indexes, and every entity has the validation its schema asks for. -/
theorem createOrUpdateMongoSchema_converges [DecidableEq ι] (config : Config) (orders : ι → List (String × EntitySchema))
    (horders : ∀ i, (orders i).Perm config.entities) (db₀ : Db) {s : Sys ι}
    (hs : Relation.ReflTransGen Step (Sys.start config orders db₀) s) :
    ((∀ x ∈ config.entities, EntityAccepted x.2 config.global.schemaValidationConfig.case) →
      ∀ i r, (s.procs i).prog = .pure r → (∀ x ∈ (s.procs i).log, Settled x.1 x.2) → r = .ok ()) ∧
    ((∃ i, (s.procs i).prog = .pure (.ok ())) → ∀ entity validations, (entity, validations) ∈ config.entities →
      (∀ schema, validations.schema = some schema → ∀ n, n ∈ (s.db entity).indexes ↔
        n ∈ schema.indexes.map indexName ∨ (n ∈ (db₀ entity).indexes ∧ hasPrefix n "_" = true)) ∧
      (validations.schema = none → ∀ n, (n ∈ (s.db entity).indexes ↔ n ∈ (db₀ entity).indexes)) ∧
      ∃ v l, expectedValidation validations config.global.schemaValidationConfig.case = some (v, l) ∧
        (s.db entity).validator = v ∧ (s.db entity).validationLevel = l) := by
  have hinv := inv_of_reach horders hs
  refine ⟨fun hvalid i r hr hsettled => ?_, fun ⟨i, hi⟩ entity validations hmem => ?_⟩
  · have hrun : Run (createOrUpdateMongoSchema (orders i) config.global) (s.procs i).log r :=
      (hinv.path i).trans (congrArg some hr)
    exact ((createOrUpdateMongoSchema_settled config.global (orders i) fun x hx =>
      hvalid x ((horders i).mem_iff.mp hx)).run hsettled hrun).1
  · have hrun : Run (createOrUpdateMongoSchema (orders i) config.global) (s.procs i).log (.ok ()) :=
      (hinv.path i).trans (congrArg some hi)
    have hl : config.lookup entity = some validations := Config.lookup_of_mem hmem
    have hdone := run_createOrUpdateMongoSchema_ok config.global (orders i) hrun (hinv.replies i)
      (entity, validations) ((horders i).mem_iff.mpr hmem)
    obtain ⟨v, l, x, hv, hx⟩ := hdone.1
    refine ⟨fun schema hschema => hinv.indexes_of_done hl hschema hdone, fun hnone n => ?_, v, l, hv,
      hinv.observed i _ hx⟩
    refine hinv.unmanaged entity (fun ⟨validations', schema, hl', hs⟩ => ?_) n
    cases hl.symm.trans hl'
    simp [hnone] at hs

/-- One process, an entity with one index and no fields, against a database that holds an obsolete index: the
    process creates the index, lists, drops the obsolete one, turns validation off, and returns nil. -/
theorem createOrUpdateMongoSchema_converges_hosts :
    let index : Index := { keys := ["host"], unique := false, direction := [], sparse := false }
    let config : Config := ⟨[("hosts", ⟨some ⟨[], true, [index], ""⟩⟩)], ⟨⟨⟨false, ""⟩⟩⟩, by decide⟩
    let orders : Unit → List (String × EntitySchema) := fun _ => config.entities
    let db₀ : Db := fun _ => ⟨["_id_", "SL_old"], .empty, ""⟩
    let s := (Sys.start config orders db₀).runSchedule [(), (), (), ()]
    ((∀ i, (orders i).Perm config.entities) ∧ Relation.ReflTransGen Step (Sys.start config orders db₀) s ∧
      (∀ x ∈ config.entities, EntityAccepted x.2 config.global.schemaValidationConfig.case) ∧
      (s.procs ()).prog = .pure (.ok ())) ∧
    ((∀ x ∈ config.entities, EntityAccepted x.2 config.global.schemaValidationConfig.case) →
      ∀ i r, (s.procs i).prog = .pure r → (∀ x ∈ (s.procs i).log, Settled x.1 x.2) → r = .ok ()) ∧
    ((∃ i, (s.procs i).prog = .pure (.ok ())) → ∀ entity validations, (entity, validations) ∈ config.entities →
      (∀ schema, validations.schema = some schema → ∀ n, n ∈ (s.db entity).indexes ↔
        n ∈ schema.indexes.map indexName ∨ (n ∈ (db₀ entity).indexes ∧ hasPrefix n "_" = true)) ∧
      (validations.schema = none → ∀ n, (n ∈ (s.db entity).indexes ↔ n ∈ (db₀ entity).indexes)) ∧
      ∃ v l, expectedValidation validations config.global.schemaValidationConfig.case = some (v, l) ∧
        (s.db entity).validator = v ∧ (s.db entity).validationLevel = l) := by
  intro index config orders db₀ s
  have hs : Relation.ReflTransGen Step (Sys.start config orders db₀) s := reach_runSchedule _ _
  exact ⟨⟨fun _ => .refl _, hs, by decide, eq_pure_of_result (by decide)⟩,
    createOrUpdateMongoSchema_converges config orders (fun _ => .refl _) db₀ hs⟩

/-- A schema without indexes fails the checks: a process running that config has returned an error at the
    start, with no command sent and so no failure seen. -/
theorem createOrUpdateMongoSchema_fails_without_failures :
    let config : Config := ⟨[("hosts", ⟨some ⟨[], true, [], ""⟩⟩)], ⟨⟨⟨false, ""⟩⟩⟩, by decide⟩
    let s := Sys.start config (fun _ : Unit => config.entities) fun _ => ⟨[], .empty, ""⟩
    (s.procs ()).log = [] ∧
      (s.procs ()).prog = .pure (.error ((GoError.new
        "no indexes defined for hosts; at least one index should be defined for any entity").wrap
          "failed to ensure index creation for hosts")) :=
  ⟨rfl, rfl⟩

end Etre.Ddl
