import Etre.Ddl.Reconcile

/-! What a run of `CreateOrUpdateMongoSchema` returns, and what it has done when it returns nil.

    `createOrUpdateMongoSchema_settled`: when the only failures the database reports are `index not found`
    on a `DropOne`, a config whose every schema passes the checks is applied without error.
    `run_createOrUpdateMongoSchema_ok`: a run that returned nil, with no build in progress, has for every
    entity had its `collMod` succeed; and for an entity with a schema it has created every declared index and,
    after one listing, dropped (or found gone) every listed name that is neither declared nor a system name
    (`EntityDone`). These are the facts about one process that the concurrent model builds on.

    The server calls `CreateOrUpdateMongoSchema` from `runSchemaDDL`, up to five times. `runSchemaDDL_spec`:
    a rejected schema fails every try, so the log is five failed tries (`FailedTries`), the result is the fifth
    try's error wrapped, and no try sends that entity's `collMod`; an accepted config returns nil. -/

namespace Etre.Ddl
open Etre.Go Prog

/-- A reply that lets a run go on: a success, whose cursor, for a listing, holds only named descriptions; or a
    `DropOne` that found the index already gone. -/
def Settled (c : Cmd) : Reply → Prop
  | .ok items => ∀ coll, c = .listIndexes coll → ∃ names : List String, items = names.map .named
  | .error m => (∃ coll name, c = .dropOne coll name) ∧ contains m indexNotFound = true

/-! ### Against a database whose only failures are missing indexes -/

theorem existingIndexes_settled (coll : String) :
    Spec Settled (fun _ => True) (fun r => ∃ names, r = .ok names) (existingIndexes coll) := by
  refine ⟨trivial, fun r hr => ?_⟩
  rcases r with m | items
  · obtain ⟨_, _, ⟨⟩⟩ := hr.1
  · obtain ⟨names, rfl⟩ := hr coll rfl
    exact ⟨names, listNames_map_named coll names⟩

theorem createIndex_settled (coll : String) {index : Index} (h : createIndexCheck index = .ok ()) :
    Spec Settled (fun _ => True) (· = .ok (indexName index)) (createIndex coll index) := by
  unfold createIndex
  simp only [h, toBSONIndex_of_check h]
  refine ⟨trivial, fun r hr => ?_⟩
  rcases r with m | _
  · obtain ⟨_, _, ⟨⟩⟩ := hr.1
  · rfl

theorem dropIndexes_settled (coll : String) (created : List String) : ∀ existing : List String,
    Spec Settled (fun _ => True) (· = .ok ()) (dropIndexes coll created existing)
  | [] => rfl
  | idx :: existing => by
    unfold dropIndexes
    split
    · refine ⟨trivial, fun r hr => ?_⟩
      rcases r with m | _
      · dsimp only
        rw [if_pos hr.2]
        exact dropIndexes_settled coll created existing
      · exact dropIndexes_settled coll created existing
    · exact dropIndexes_settled coll created existing

theorem dropObsoleteIndexes_settled (coll : String) (created : List String) :
    Spec Settled (fun _ => True) (· = .ok ()) (dropObsoleteIndexes coll created) :=
  (existingIndexes_settled coll).bind fun _ ⟨names, hr⟩ => by subst hr; exact dropIndexes_settled coll created names

theorem createIndexes_settled (coll : String) : ∀ (indexes : List Index) (created : List String),
    (∀ i ∈ indexes, createIndexCheck i = .ok ()) →
    Spec Settled (fun _ => True) (· = .ok ()) (createIndexes coll indexes created)
  | [], created, _ => dropObsoleteIndexes_settled coll created
  | index :: indexes, created, h =>
    (createIndex_settled coll (h index (List.mem_cons_self _ _))).bind fun _ hr => by
      subst hr; exact createIndexes_settled coll indexes _ fun i hi => h i (List.mem_cons_of_mem _ hi)

theorem updateMongoIndexes_settled (entity : String) {indexes : List Index} (h : IndexesAccepted indexes) :
    Spec Settled (fun _ => True) (· = .ok ()) (updateMongoIndexes entity indexes) := by
  unfold updateMongoIndexes
  rw [if_neg (by simpa using h.1)]
  exact createIndexes_settled entity indexes [] h.2

theorem disableMongoJSONValidation_settled (entity : String) :
    Spec Settled (fun _ => True) (· = .ok ()) (disableMongoJSONValidation entity) := by
  refine ⟨trivial, fun r hr => ?_⟩
  rcases r with m | _
  · obtain ⟨_, _, ⟨⟩⟩ := hr.1
  · rfl

theorem updateMongoJSONValidation_settled (entity : String) {schema : Schema} {global : Global}
    (h : ValidationAccepted schema global.schemaValidationConfig.case) :
    Spec Settled (fun _ => True) (· = .ok ()) (updateMongoJSONValidation entity schema global) := by
  unfold updateMongoJSONValidation
  split
  · exact disableMongoJSONValidation_settled entity
  · next hf =>
    obtain ⟨hv, hl⟩ := h.resolve_left fun h => hf (by simp [h])
    obtain ⟨l, hl⟩ := Option.isSome_iff_exists.mp hl
    split
    · next he => simp [he] at hv
    · simp only [hl]
      refine ⟨trivial, fun r hr => ?_⟩
      rcases r with m | _
      · obtain ⟨_, _, ⟨⟩⟩ := hr.1
      · rfl

theorem createOrUpdateEntity_settled (entity : String) {validations : EntitySchema} {global : Global}
    (h : EntityAccepted validations global.schemaValidationConfig.case) :
    Spec Settled (fun _ => True) (· = .ok ()) (createOrUpdateEntity entity validations global) := by
  rcases validations with ⟨_ | schema⟩
  · exact disableMongoJSONValidation_settled entity
  · exact (updateMongoIndexes_settled entity h.1).bind fun _ hr => by
      subst hr; exact updateMongoJSONValidation_settled entity h.2

/-- A config whose every schema passes the checks is applied without error, as long as the only failures
    are `DropOne`s of indexes already gone. -/
theorem createOrUpdateMongoSchema_settled (global : Global) : ∀ entities : List (String × EntitySchema),
    (∀ x ∈ entities, EntityAccepted x.2 global.schemaValidationConfig.case) →
    Spec Settled (fun _ => True) (· = .ok ()) (createOrUpdateMongoSchema entities global)
  | [], _ => rfl
  | (entity, validations) :: entities, h =>
    (createOrUpdateEntity_settled entity (h _ (List.mem_cons_self _ _))).bind fun _ hr => by
      subst hr; exact createOrUpdateMongoSchema_settled global entities fun x hx => h x (List.mem_cons_of_mem _ hx)

/-! ### What a run that returned nil has done -/

/-- What a run that returned nil did for one entity: its `collMod`, to the validation the schema asks for,
    succeeded; and with a schema, every declared index was created, and after one listing every listed name
    neither declared nor a system name was dropped or found gone. -/
def EntityDone (entity : String) (validations : EntitySchema) (globalCase : Case) (log : List (Cmd × Reply)) :
    Prop :=
  (∃ v l x, expectedValidation validations globalCase = some (v, l) ∧ (.collMod entity v l, .ok x) ∈ log) ∧
  ∀ schema, validations.schema = some schema →
    (∀ i ∈ schema.indexes, ∃ keys x, (.createOne entity keys i.unique i.sparse (indexName i), .ok x) ∈ log) ∧
    ∃ L : List String, (.listIndexes entity, .ok (L.map .named)) ∈ log ∧ ∀ n ∈ L, n ∉ schema.indexes.map indexName →
      hasPrefix n "_" = false → ∃ r, (.dropOne entity n, r) ∈ log ∧ Settled (.dropOne entity n) r

theorem EntityDone.mono {entity : String} {validations : EntitySchema} {g : Case} {log log' : List (Cmd × Reply)}
    (h : EntityDone entity validations g log) (hsub : ∀ x ∈ log, x ∈ log') : EntityDone entity validations g log' := by
  obtain ⟨⟨v, l, x, hv, hx⟩, hs⟩ := h
  refine ⟨⟨v, l, x, hv, hsub _ hx⟩, fun schema hschema => ?_⟩
  obtain ⟨hc, L, hL, hd⟩ := hs schema hschema
  refine ⟨fun i hi => ?_, L, hsub _ hL, fun n hn hnd hp => ?_⟩
  · obtain ⟨keys, x, hx⟩ := hc i hi
    exact ⟨keys, x, hsub _ hx⟩
  · obtain ⟨r, hr, hs⟩ := hd n hn hnd hp
    exact ⟨r, hsub _ hr, hs⟩

theorem run_existingIndexes_ok {coll : String} {log : List (Cmd × Reply)} {names : List String}
    (h : Run (existingIndexes coll) log (.ok names)) : log = [(.listIndexes coll, .ok (names.map .named))] := by
  obtain ⟨r, log', rfl, hk⟩ := run_call.mp h
  rcases r with m | items
  · cases (run_pure.mp hk).2
  · obtain ⟨rfl, hnames⟩ := run_pure.mp hk
    rw [listNames_eq_ok hnames]

theorem run_dropIndexes_ok (coll : String) (created : List String) : ∀ (existing : List String)
    {log : List (Cmd × Reply)}, Run (dropIndexes coll created existing) log (.ok ()) →
    ∀ n ∈ existing, n ∉ created → hasPrefix n "_" = false →
      ∃ r, (.dropOne coll n, r) ∈ log ∧ Settled (.dropOne coll n) r
  | [], _, _, n, hn, _, _ => absurd hn (List.not_mem_nil n)
  | idx :: existing, log, h, n, hn, hc, hp => by
    unfold dropIndexes at h
    split at h
    · obtain ⟨r, log', rfl, hk⟩ := run_call.mp h
      have hr : Settled (.dropOne coll idx) r ∧ Run (dropIndexes coll created existing) log' (.ok ()) := by
        rcases r with m | _
        · dsimp only at hk
          split at hk
          · exact ⟨⟨⟨coll, idx, rfl⟩, ‹_›⟩, hk⟩
          · cases (run_pure.mp hk).2
        · exact ⟨fun _ h => (nomatch h), hk⟩
      rcases List.mem_cons.mp hn with rfl | hn
      · exact ⟨r, List.mem_cons_self _ _, hr.1⟩
      · obtain ⟨r', hmem, hs⟩ := run_dropIndexes_ok coll created existing hr.2 n hn hc hp
        exact ⟨r', List.mem_cons_of_mem _ hmem, hs⟩
    · next hg =>
      rcases List.mem_cons.mp hn with rfl | hn
      · exact absurd ⟨hc, hp⟩ hg
      · exact run_dropIndexes_ok coll created existing h n hn hc hp

theorem run_dropObsoleteIndexes_ok {coll : String} {created : List String} {log : List (Cmd × Reply)}
    (h : Run (dropObsoleteIndexes coll created) log (.ok ())) :
    ∃ L : List String, (.listIndexes coll, .ok (L.map .named)) ∈ log ∧ ∀ n ∈ L, n ∉ created → hasPrefix n "_" = false →
      ∃ r, (.dropOne coll n, r) ∈ log ∧ Settled (.dropOne coll n) r := by
  obtain ⟨l₁, l₂, a, rfl, h₁, h₂⟩ := run_bind.mp h
  rcases a with err | L
  · cases (run_pure.mp h₂).2
  · rw [run_existingIndexes_ok h₁]
    refine ⟨L, List.mem_cons_self _ _, fun n hn hc hp => ?_⟩
    obtain ⟨r, hmem, hs⟩ := run_dropIndexes_ok coll created L h₂ n hn hc hp
    exact ⟨r, List.mem_append_right _ hmem, hs⟩

theorem run_createIndex_ok {coll : String} {index : Index} {log : List (Cmd × Reply)} {n : String}
    (h : Run (createIndex coll index) log (.ok n)) :
    n = indexName index ∧ ∃ keys x, log = [(.createOne coll keys index.unique index.sparse n, .ok x)] := by
  unfold createIndex at h
  split at h
  · cases (run_pure.mp h).2
  · split at h
    · cases (run_pure.mp h).2
    · obtain ⟨r, log', rfl, hk⟩ := run_call.mp h
      rcases r with m | x
      · cases (run_pure.mp hk).2
      · obtain ⟨rfl, ⟨⟩⟩ := run_pure.mp hk
        exact ⟨rfl, _, x, rfl⟩

theorem run_createIndexes_ok (coll : String) : ∀ (indexes : List Index) (created : List String)
    {log : List (Cmd × Reply)}, Run (createIndexes coll indexes created) log (.ok ()) →
    (∀ x ∈ log, NoBuildInProgress x.1 x.2) →
    (∀ i ∈ indexes, ∃ keys x, (.createOne coll keys i.unique i.sparse (indexName i), .ok x) ∈ log) ∧
    ∃ L : List String, (.listIndexes coll, .ok (L.map .named)) ∈ log ∧
      ∀ n ∈ L, n ∉ created → n ∉ indexes.map indexName → hasPrefix n "_" = false →
        ∃ r, (.dropOne coll n, r) ∈ log ∧ Settled (.dropOne coll n) r
  | [], created, log, h, _ => by
    obtain ⟨L, hL, hdrop⟩ := run_dropObsoleteIndexes_ok h
    exact ⟨by simp, L, hL, fun n hn hc _ hp => hdrop n hn hc hp⟩
  | index :: indexes, created, log, h, hnb => by
    obtain ⟨l₁, l₂, a, rfl, h₁, h₂⟩ := run_bind.mp h
    rcases a with err | n
    · have hc : contains err.cause buildInProgress = false :=
        ((createIndex_spec coll index).run (fun x hx => hnb x (List.mem_append_left _ hx)) h₁).1
      dsimp only at h₂
      rw [if_neg (by simp [hc])] at h₂
      cases (run_pure.mp h₂).2
    · obtain ⟨rfl, keys, x, rfl⟩ := run_createIndex_ok h₁
      obtain ⟨hcreate, L, hL, hdrop⟩ :=
        run_createIndexes_ok coll indexes _ h₂ fun x hx => hnb x (List.mem_append_right _ hx)
      refine ⟨fun i hi => ?_, L, List.mem_append_right _ hL, fun n hn hc hd hp => ?_⟩
      · rcases List.mem_cons.mp hi with rfl | hi
        · exact ⟨keys, x, List.mem_append_left _ (List.mem_singleton_self _)⟩
        · obtain ⟨keys', x', hm⟩ := hcreate i hi
          exact ⟨keys', x', List.mem_append_right _ hm⟩
      · rw [List.map_cons, List.mem_cons, not_or] at hd
        obtain ⟨r, hm, hs⟩ := hdrop n hn (List.not_mem_cons_of_ne_of_not_mem hd.1 hc) hd.2 hp
        exact ⟨r, List.mem_append_right _ hm, hs⟩

theorem run_updateMongoIndexes_ok {entity : String} {indexes : List Index} {log : List (Cmd × Reply)}
    (h : Run (updateMongoIndexes entity indexes) log (.ok ())) (hnb : ∀ x ∈ log, NoBuildInProgress x.1 x.2) :
    (∀ i ∈ indexes, ∃ keys x, (.createOne entity keys i.unique i.sparse (indexName i), .ok x) ∈ log) ∧
    ∃ L : List String, (.listIndexes entity, .ok (L.map .named)) ∈ log ∧ ∀ n ∈ L, n ∉ indexes.map indexName →
      hasPrefix n "_" = false → ∃ r, (.dropOne entity n, r) ∈ log ∧ Settled (.dropOne entity n) r := by
  unfold updateMongoIndexes at h
  split at h
  · cases (run_pure.mp h).2
  · obtain ⟨hc, L, hL, hd⟩ := run_createIndexes_ok entity indexes [] h hnb
    exact ⟨hc, L, hL, fun n hn => hd n hn (List.not_mem_nil n)⟩

theorem run_disableMongoJSONValidation_ok {entity : String} {log : List (Cmd × Reply)}
    (h : Run (disableMongoJSONValidation entity) log (.ok ())) : ∃ x, (.collMod entity .empty "off", .ok x) ∈ log := by
  obtain ⟨r, log', rfl, hk⟩ := run_call.mp h
  rcases r with m | x
  · cases (run_pure.mp hk).2
  · exact ⟨x, List.mem_cons_self _ _⟩

theorem run_updateMongoJSONValidation_ok {entity : String} {schema : Schema} {global : Global}
    {log : List (Cmd × Reply)} (h : Run (updateMongoJSONValidation entity schema global) log (.ok ())) :
    ∃ v l x, expectedValidation ⟨some schema⟩ global.schemaValidationConfig.case = some (v, l) ∧
      (.collMod entity v l, .ok x) ∈ log := by
  unfold updateMongoJSONValidation at h
  split at h
  · next hf =>
    obtain ⟨x, hx⟩ := run_disableMongoJSONValidation_ok h
    exact ⟨_, _, x, by simp [expectedValidation, List.eq_nil_of_length_eq_zero hf], hx⟩
  · next hf =>
    split at h
    · cases (run_pure.mp h).2
    · next v hv =>
      split at h
      · cases (run_pure.mp h).2
      · next l hl =>
        obtain ⟨r, log', rfl, hk⟩ := run_call.mp h
        rcases r with m | x
        · cases (run_pure.mp hk).2
        · have hf : schema.fields ≠ [] := fun h => hf (by simp [h])
          exact ⟨_, _, x, by simp [expectedValidation, hf, hv, hl], List.mem_cons_self _ _⟩

theorem run_createOrUpdateEntity_ok {entity : String} {validations : EntitySchema} {global : Global}
    {log : List (Cmd × Reply)} (h : Run (createOrUpdateEntity entity validations global) log (.ok ()))
    (hnb : ∀ x ∈ log, NoBuildInProgress x.1 x.2) :
    EntityDone entity validations global.schemaValidationConfig.case log := by
  rcases validations with ⟨_ | schema⟩
  · obtain ⟨x, hx⟩ := run_disableMongoJSONValidation_ok h
    exact ⟨⟨_, _, x, rfl, hx⟩, fun _ h => by cases h⟩
  · obtain ⟨l₁, l₂, a, rfl, h₁, h₂⟩ := run_bind.mp h
    rcases a with err | ⟨⟩
    · cases (run_pure.mp h₂).2
    · obtain ⟨v, l, x, hv, hx⟩ := run_updateMongoJSONValidation_ok h₂
      obtain ⟨hc, L, hL, hd⟩ := run_updateMongoIndexes_ok h₁ fun x hx => hnb x (List.mem_append_left _ hx)
      refine ⟨⟨v, l, x, hv, List.mem_append_right _ hx⟩, fun s hs => ?_⟩
      cases hs
      refine ⟨fun i hi => ?_, L, List.mem_append_left _ hL, fun n hn hnd hp => ?_⟩
      · obtain ⟨keys, x, hm⟩ := hc i hi
        exact ⟨keys, x, List.mem_append_left _ hm⟩
      · obtain ⟨r, hm, hs⟩ := hd n hn hnd hp
        exact ⟨r, List.mem_append_left _ hm, hs⟩

/-- A run that returned nil, with no build in progress, has done what `EntityDone` says for every entity. -/
theorem run_createOrUpdateMongoSchema_ok (global : Global) : ∀ (entities : List (String × EntitySchema))
    {log : List (Cmd × Reply)}, Run (createOrUpdateMongoSchema entities global) log (.ok ()) →
    (∀ x ∈ log, NoBuildInProgress x.1 x.2) →
    ∀ x ∈ entities, EntityDone x.1 x.2 global.schemaValidationConfig.case log
  | [], _, _, _, x, hx => absurd hx (List.not_mem_nil x)
  | (entity, validations) :: entities, log, h, hnb, x, hx => by
    obtain ⟨l₁, l₂, a, rfl, h₁, h₂⟩ := run_bind.mp h
    rcases a with err | ⟨⟩
    · cases (run_pure.mp h₂).2
    · rcases List.mem_cons.mp hx with rfl | hx
      · exact (run_createOrUpdateEntity_ok h₁ fun y hy => hnb y (List.mem_append_left _ hy)).mono
          fun _ => List.mem_append_left _
      · exact (run_createOrUpdateMongoSchema_ok global entities h₂
          (fun y hy => hnb y (List.mem_append_right _ hy)) x hx).mono fun _ => List.mem_append_right _

/-! ### The retries of `runSchemaDDL` -/

/-- The loop of `runSchemaDDL` with `n` tries left, at try `tries`, `err` holding the result of the last try
    (nil before the first): each try runs `CreateOrUpdateMongoSchema`, in the order the map iteration takes
    that time, and returns on nil; after the last try the error is wrapped. The sleep between tries is left
    out. -/
def retrySchemaDDL (orders : Nat → List (String × EntitySchema)) (global : Global) :
    Nat → Nat → Except GoError Unit → Prog (Except GoError Unit)
  | 0, tries, err => .pure (wrapf err ("failed to run DDL after " ++ toString tries ++ " tries"))
  | n + 1, tries, _ =>
    (createOrUpdateMongoSchema (orders tries) global).bind fun
      | .ok () => .pure (.ok ())
      | .error e => retrySchemaDDL orders global n (tries + 1) (.error e)

/-- `runSchemaDDL`: at most five tries of `CreateOrUpdateMongoSchema`. -/
def runSchemaDDL (orders : Nat → List (String × EntitySchema)) (global : Global) : Prog (Except GoError Unit) :=
  retrySchemaDDL orders global 5 0 (.ok ())

/-- With a rejected schema every try fails, so the loop ends with the last error wrapped, and no try sends
    that entity's `collMod`. -/
theorem retrySchemaDDL_rejected_spec (global : Global) (entity : String) (schema : Schema)
    (hrejected : ¬SchemaAccepted schema global.schemaValidationConfig.case)
    {orders : Nat → List (String × EntitySchema)}
    (horders : ∀ k, ((orders k).map Prod.fst).Nodup ∧ (entity, ⟨some schema⟩) ∈ orders k) :
    ∀ n tries (err : Except GoError Unit), (n = 0 → err.isOk = false) →
      Spec NoBuildInProgress (fun c => ∀ v l, c ≠ .collMod entity v l)
        (fun r => ∃ e : GoError, r = .error (e.wrap ("failed to run DDL after " ++ toString (tries + n) ++ " tries")))
        (retrySchemaDDL orders global n tries err)
  | 0, _, .error e, _ => ⟨e, rfl⟩
  | 0, _, .ok (), h => absurd (h rfl) (by simp)
  | n + 1, tries, _, _ =>
    (createOrUpdateMongoSchema_rejected_spec global entity schema hrejected (orders tries) (horders tries).1
      (horders tries).2).bind fun r hr => by
        rcases r with e | ⟨⟩
        · rw [show tries + (n + 1) = tries + 1 + n by omega]
          exact retrySchemaDDL_rejected_spec global entity schema hrejected horders n (tries + 1) (.error e)
            fun _ => rfl
        · cases hr

/-- With every schema accepted and only settled replies, the first try returns nil. -/
theorem retrySchemaDDL_settled (global : Global) {orders : Nat → List (String × EntitySchema)}
    (h : ∀ k, ∀ x ∈ orders k, EntityAccepted x.2 global.schemaValidationConfig.case) :
    ∀ n tries (err : Except GoError Unit), 0 < n →
      Spec Settled (fun _ => True) (· = .ok ()) (retrySchemaDDL orders global n tries err)
  | 0, _, _, h0 => absurd h0 (Nat.lt_irrefl 0)
  | _ + 1, tries, _, _ =>
    (createOrUpdateMongoSchema_settled global (orders tries) (h tries)).bind fun _ hr => by subst hr; rfl

/-- A log made of `n` complete runs of `CreateOrUpdateMongoSchema`, tries `k` to `k + n - 1` in their own
    orders, each returning an error, the last one `e`. -/
inductive FailedTries (orders : Nat → List (String × EntitySchema)) (global : Global) :
    Nat → Nat → List (Cmd × Reply) → GoError → Prop
  | last {k : Nat} {log : List (Cmd × Reply)} {e : GoError}
      (h : Run (createOrUpdateMongoSchema (orders k) global) log (.error e)) : FailedTries orders global k 1 log e
  | cons {k n : Nat} {log₁ log₂ : List (Cmd × Reply)} {e₁ e : GoError}
      (h : Run (createOrUpdateMongoSchema (orders k) global) log₁ (.error e₁))
      (hrest : FailedTries orders global (k + 1) (n + 1) log₂ e) : FailedTries orders global k (n + 2) (log₁ ++ log₂) e

/-- A run of the loop that ends in an error is made of failed tries, and returns the last one's error
    wrapped with the number of tries. -/
theorem run_retrySchemaDDL_error {orders : Nat → List (String × EntitySchema)} {global : Global} :
    ∀ n k (err : Except GoError Unit) {log : List (Cmd × Reply)} {r : Except GoError Unit},
    Run (retrySchemaDDL orders global (n + 1) k err) log r → r.isOk = false →
      ∃ e, FailedTries orders global k (n + 1) log e ∧
        r = .error (e.wrap ("failed to run DDL after " ++ toString (k + n + 1) ++ " tries"))
  | n, k, _, log, r, h, hr => by
    obtain ⟨l₁, l₂, a, rfl, h₁, h₂⟩ := run_bind.mp h
    rcases a with e₁ | ⟨⟩
    · cases n with
      | zero =>
        obtain ⟨rfl, rfl⟩ := run_pure.mp h₂
        exact ⟨e₁, by simpa using FailedTries.last h₁, rfl⟩
      | succ n =>
        obtain ⟨e, hrest, rfl⟩ := run_retrySchemaDDL_error n (k + 1) (.error e₁) h₂ hr
        exact ⟨e, .cons h₁ hrest, by rw [show k + 1 + n + 1 = k + (n + 1) + 1 by omega]⟩
    · obtain ⟨-, rfl⟩ := run_pure.mp h₂
      cases hr

/-- `runSchemaDDL` runs `CreateOrUpdateMongoSchema` up to five times, in a fresh entity order each time.
    Against replies with no build in progress, a config with a rejected schema fails every try: the log is five
    failed tries, the function returns the fifth try's error wrapped as `failed to run DDL after 5 tries`, and
    no try sends that entity's `collMod`. A config whose every schema passes the checks returns nil when the
    only failures are `DropOne`s of indexes already gone and every listing is read to its end. -/
theorem runSchemaDDL_spec (config : Config) (orders : Nat → List (String × EntitySchema))
    (horders : ∀ k, (orders k).Perm config.entities) (σ : Nat → Reply) :
    let run := (runSchemaDDL orders config.global).runWith σ
    ((∀ x ∈ run.1, reportsBuildInProgress x.1 x.2 = false) → ∀ entity schema,
      (entity, ⟨some schema⟩) ∈ config.entities → ¬SchemaAccepted schema config.global.schemaValidationConfig.case →
      (∃ e, FailedTries orders config.global 0 5 run.1 e ∧ run.2 = .error (e.wrap "failed to run DDL after 5 tries")) ∧
        ∀ x ∈ run.1, ∀ v l, x.1 ≠ .collMod entity v l) ∧
    ((∀ x ∈ config.entities, EntityAccepted x.2 config.global.schemaValidationConfig.case) →
      (∀ x ∈ run.1, Settled x.1 x.2) → run.2 = .ok ()) := by
  intro run
  refine ⟨fun hσ entity schema hentity hrejected => ?_, fun haccepted hσ => ?_⟩
  · obtain ⟨⟨e, he⟩, hcoll⟩ := Spec.runWith σ (retrySchemaDDL_rejected_spec config.global entity schema hrejected
      (fun k => ⟨((horders k).map Prod.fst).nodup_iff.mpr config.entities_nodup, (horders k).mem_iff.mpr hentity⟩)
      5 0 (.ok ()) (by simp)) hσ
    exact ⟨run_retrySchemaDDL_error 4 0 (.ok ()) (run_runWith _ σ) ((congrArg Except.isOk he).trans rfl), hcoll⟩
  · exact (Spec.runWith σ (retrySchemaDDL_settled config.global
      (fun k x hx => haccepted x ((horders k).mem_iff.mp hx)) 5 0 (.ok ()) (by decide)) hσ).1

/-- A valid index and an unknown validation level, the same order on every try, a database that accepts
    everything: each of the five tries creates the index, lists, and fails on the level. -/
theorem runSchemaDDL_spec_lenient :
    let field : Field := ⟨"host", "string", true, "", none, none, []⟩
    let index : Index := { keys := ["host"], unique := false, direction := [], sparse := false }
    let schema : Schema :=
      { fields := [field], additionalProperties := true, indexes := [index], validationLevel := "lenient" }
    let config : Config := ⟨[("hosts", ⟨some schema⟩)], ⟨⟨⟨false, ""⟩⟩⟩, by decide⟩
    let orders : Nat → List (String × EntitySchema) := fun _ => config.entities
    let run := (runSchemaDDL orders config.global).runWith fun _ => .ok []
    ((∀ k, (orders k).Perm config.entities) ∧ (∀ x ∈ run.1, reportsBuildInProgress x.1 x.2 = false) ∧
      ("hosts", ⟨some schema⟩) ∈ config.entities ∧ ¬SchemaAccepted schema config.global.schemaValidationConfig.case ∧
      run.1.length = 10) ∧
    ((∀ x ∈ run.1, reportsBuildInProgress x.1 x.2 = false) → ∀ entity schema,
      (entity, ⟨some schema⟩) ∈ config.entities → ¬SchemaAccepted schema config.global.schemaValidationConfig.case →
      (∃ e, FailedTries orders config.global 0 5 run.1 e ∧ run.2 = .error (e.wrap "failed to run DDL after 5 tries")) ∧
        ∀ x ∈ run.1, ∀ v l, x.1 ≠ .collMod entity v l) ∧
    ((∀ x ∈ config.entities, EntityAccepted x.2 config.global.schemaValidationConfig.case) →
      (∀ x ∈ run.1, Settled x.1 x.2) → run.2 = .ok ()) := by
  intro field index schema config orders run
  exact ⟨⟨fun _ => .refl _, by decide, List.mem_singleton_self _, by decide, by decide⟩,
    runSchemaDDL_spec config orders (fun _ => .refl _) _⟩

example :
    ((runSchemaDDL (fun _ => [("hosts", ⟨some ⟨[], true, [], ""⟩⟩)]) ⟨⟨⟨false, ""⟩⟩⟩).runWith fun _ => .ok []).2 =
      .error (((GoError.new "no indexes defined for hosts; at least one index should be defined for any entity").wrap
        "failed to ensure index creation for hosts").wrap "failed to run DDL after 5 tries") := by
  decide

end Etre.Ddl
