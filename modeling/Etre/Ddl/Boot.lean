import Etre.Ddl.Safety

/-! Several Etre servers booting at once against one database, each running `runSchemaDDL`.

    `runSchemaDDL` tries `CreateOrUpdateMongoSchema` up to five times and returns at the first nil. To the
    database a retry is a fresh run of `CreateOrUpdateMongoSchema`: at each moment a server is inside one try,
    its earlier tries have returned errors, and its later ones have not started. So the servers are simulated
    by the processes of `Etre.Ddl.Concurrent`, one process per server and try (`Sys.start` over `ι × Nat`, try
    `k` of server `i` visiting the entities in the order `orders i k`). `Sim` relates the two systems: the
    same database, and each server running what is left of its current try, then the rest of the loop
    (`InTry`). A try that returns an error at once hands over to the next without a step (`bind_afterTry_settle`).
    Every step of the servers is a step of the process of a current try (`Sim.step`), so every state the
    servers reach has a reachable image with the same database (`runSchemaDDL_refines_tries`), and what
    `Etre.Ddl.Safety` proves of the processes holds of the servers (`runSchemaDDL_servers_safe`). This is the
    idempotence the comment of `runSchemaDDL` relies on to retry while other servers run the same DDL. A
    schema that fails the checks is never applied halfway to its own validator: no server's boot passes the
    DDL, and the collection keeps the validation it had (`runSchemaDDL_servers_rejected`), although its
    indexes may already have changed. -/

namespace Etre.Ddl
open Etre.Go Prog

/-! ### The loop after one try -/

/-- What `runSchemaDDL` does once its try `k` has returned, with `n` tries left after it. -/
def afterTry (orders : Nat → List (String × EntitySchema)) (global : Global) (n k : Nat) :
    Except GoError Unit → Prog (Except GoError Unit)
  | .ok () => .pure (.ok ())
  | .error e => retrySchemaDDL orders global n (k + 1) (.error e)

section Loop

variable {orders : Nat → List (String × EntitySchema)} {global : Global}

theorem retrySchemaDDL_succ (n k : Nat) (err : Except GoError Unit) :
    retrySchemaDDL orders global (n + 1) k err =
      (createOrUpdateMongoSchema (orders k) global).bind (afterTry orders global n k) :=
  rfl

/-- Past the tries that return an error at once: the loop at try `k` is the loop at a try `k' ≥ k` that has
    not returned an error while tries are left after it, provided the tries after `k` have not started. -/
theorem bind_afterTry_settle {T : Nat → Prog (Except GoError Unit)} : ∀ n k,
    (∀ j, k < j → T j = createOrUpdateMongoSchema (orders j) global) →
    ∃ k' n', k ≤ k' ∧ (T k).bind (afterTry orders global n k) = (T k').bind (afterTry orders global n' k') ∧
      (0 < n' → ∀ e, T k' ≠ .pure (.error e))
  | 0, k, _ => ⟨k, 0, le_rfl, rfl, fun h => absurd h (Nat.lt_irrefl 0)⟩
  | n + 1, k, hlater => by
    by_cases hk : ∃ e, T k = .pure (.error e)
    · obtain ⟨e, he⟩ := hk
      obtain ⟨k', n', hk', heq, hsettled⟩ := bind_afterTry_settle n (k + 1) fun j hj => hlater j (by omega)
      refine ⟨k', n', by omega, ?_, hsettled⟩
      calc (T k).bind (afterTry orders global (n + 1) k)
          = retrySchemaDDL orders global (n + 1) (k + 1) (.error e) := by rw [he]; rfl
        _ = (T (k + 1)).bind (afterTry orders global n (k + 1)) := by
          rw [retrySchemaDDL_succ, hlater (k + 1) (by omega)]
        _ = (T k').bind (afterTry orders global n' k') := heq
    · exact ⟨k, n + 1, le_rfl, rfl, fun _ e he => hk ⟨e, he⟩⟩

variable {n k : Nat} {p : Prog (Except GoError Unit)}

/-- A server about to send a command is inside a try about to send it. -/
theorem bind_afterTry_eq_call (hsettled : 0 < n → ∀ e, p ≠ .pure (.error e)) {c : Cmd}
    {k' : Reply → Prog (Except GoError Unit)} (h : p.bind (afterTry orders global n k) = .call c k') :
    ∃ k'', p = .call c k'' ∧ k' = fun r => (k'' r).bind (afterTry orders global n k) := by
  cases p with
  | pure a =>
    rcases a with e | ⟨⟩
    · cases n with
      | zero => cases h
      | succ n => exact absurd rfl (hsettled n.succ_pos e)
    · cases h
  | call c₀ k₀ =>
    cases h
    exact ⟨k₀, rfl, rfl⟩

/-- A server that returned nil is inside a try that returned nil. -/
theorem bind_afterTry_eq_ok (hsettled : 0 < n → ∀ e, p ≠ .pure (.error e))
    (h : p.bind (afterTry orders global n k) = .pure (.ok ())) : p = .pure (.ok ()) := by
  cases p with
  | pure a =>
    rcases a with e | ⟨⟩
    · cases n with
      | zero => cases h
      | succ n => exact absurd rfl (hsettled n.succ_pos e)
    · rfl
  | call => cases h

end Loop

/-! ### Servers and tries -/

variable {ι : Type}

/-- Every server about to run `runSchemaDDL` with `config`; server `i` visits the entities in the order
    `orders i k` at its try `k`. -/
def Sys.boot (config : Config) (orders : ι → Nat → List (String × EntitySchema)) (db₀ : Db) : Sys ι :=
  ⟨db₀, fun i => ⟨runSchemaDDL (orders i) config.global, []⟩⟩

/-- Server `i` of `s` is inside try `k` of the processes `t`, with `n` tries after it: the later tries have
    not started, and the server runs what is left of try `k`, then the rest of the loop. -/
structure InTry (config : Config) (orders : ι → Nat → List (String × EntitySchema)) (s : Sys ι)
    (t : Sys (ι × Nat)) (i : ι) (k n : Nat) : Prop where
  /-- The tries after `k` have not started. -/
  later : ∀ j, k < j → (t.procs (i, j)).prog = createOrUpdateMongoSchema (orders i j) config.global
  /-- The server is try `k` followed by the rest of the loop. -/
  current : (s.procs i).prog = (t.procs (i, k)).prog.bind (afterTry (orders i) config.global n k)
  /-- A try that returned an error is never current while tries are left after it. -/
  settled : 0 < n → ∀ e, (t.procs (i, k)).prog ≠ .pure (.error e)

/-- The servers `s` as the try processes `t`: the same database, and each server inside one of its tries. -/
structure Sim (config : Config) (orders : ι → Nat → List (String × EntitySchema)) (s : Sys ι)
    (t : Sys (ι × Nat)) : Prop where
  db : t.db = s.db
  tries : ∀ i, ∃ k n, InTry config orders s t i k n

section Sim

variable {config : Config} {orders : ι → Nat → List (String × EntitySchema)}

/-- Settling a server whose later tries have not started puts it inside a try. -/
theorem InTry.of_current {s : Sys ι} {t : Sys (ι × Nat)} {i : ι} {k n : Nat}
    (hlater : ∀ j, k < j → (t.procs (i, j)).prog = createOrUpdateMongoSchema (orders i j) config.global)
    (hcur : (s.procs i).prog = (t.procs (i, k)).prog.bind (afterTry (orders i) config.global n k)) :
    ∃ k' n', InTry config orders s t i k' n' := by
  obtain ⟨k', n', hk', heq, hsettled⟩ := bind_afterTry_settle (T := fun j => (t.procs (i, j)).prog) n k hlater
  exact ⟨k', n', ⟨fun j hj => hlater j (by omega), hcur.trans heq, hsettled⟩⟩

theorem Sim.start (db₀ : Db) :
    Sim config orders (Sys.boot config orders db₀) (Sys.start config (fun p => orders p.1 p.2) db₀) where
  db := rfl
  tries _ := InTry.of_current (k := 0) (n := 4) (fun _ _ => rfl) (retrySchemaDDL_succ 4 0 (.ok ()))

/-- One step of a server is one step of the process of its current try. -/
theorem Sim.step [DecidableEq ι] {s s' : Sys ι} {t : Sys (ι × Nat)} (hsim : Sim config orders s t) (h : Step s s') :
    ∃ t', Step t t' ∧ Sim config orders s' t' := by
  obtain @⟨i, c, k', r, hprog, hr⟩ := h
  obtain ⟨k, n, hlater, hcur, hsettled⟩ := hsim.tries i
  obtain ⟨k'', hT, rfl⟩ := bind_afterTry_eq_call hsettled (hcur.symm.trans hprog)
  refine ⟨_, .call t (i, k) hT (hsim.db ▸ hr), ⟨by simp [hsim.db], fun i' => ?_⟩⟩
  by_cases hi : i' = i
  · subst hi
    refine InTry.of_current (k := k) (n := n) (fun j hj => ?_) (by simp)
    have hne : (i', j) ≠ (i', k) := fun he => (Nat.ne_of_gt hj) (Prod.mk.inj he).2
    simpa only [Function.update_noteq hne] using hlater j hj
  · obtain ⟨k₁, n₁, hlater₁, hcur₁, hsettled₁⟩ := hsim.tries i'
    have hne : ∀ j, (i', j) ≠ (i, k) := fun j he => hi (Prod.mk.inj he).1
    refine ⟨k₁, n₁, fun j hj => ?_, ?_, ?_⟩ <;>
      simp only [Function.update_noteq hi, Function.update_noteq (hne _)]
    exacts [hlater₁ j hj, hcur₁, hsettled₁]

theorem Sim.reach [DecidableEq ι] {s s' : Sys ι} {t : Sys (ι × Nat)} (hsim : Sim config orders s t)
    (h : Relation.ReflTransGen Step s s') : ∃ t', Relation.ReflTransGen Step t t' ∧ Sim config orders s' t' := by
  induction h with
  | refl => exact ⟨t, .refl, hsim⟩
  | tail _ hstep ih =>
    obtain ⟨t₁, ht₁, hsim₁⟩ := ih
    obtain ⟨t₂, ht₂, hsim₂⟩ := hsim₁.step hstep
    exact ⟨t₂, ht₁.tail ht₂, hsim₂⟩

/-- A server that returned nil has a try that returned nil. -/
theorem Sim.ok {s : Sys ι} {t : Sys (ι × Nat)} (hsim : Sim config orders s t) {i : ι}
    (hi : (s.procs i).prog = .pure (.ok ())) : ∃ k, (t.procs (i, k)).prog = .pure (.ok ()) := by
  obtain ⟨k, n, -, hcur, hsettled⟩ := hsim.tries i
  exact ⟨k, bind_afterTry_eq_ok hsettled (hcur.symm.trans hi)⟩

end Sim

/-! ### The results -/

/-- Any number of servers running `runSchemaDDL`, each try in its own entity order, any interleaving, any
    transient failures: every state they reach is, to the database, a state that processes running one try of
    `CreateOrUpdateMongoSchema` each reach, and a server that returned nil is one of those processes that
    returned nil. -/
theorem runSchemaDDL_refines_tries [DecidableEq ι] (config : Config) (orders : ι → Nat → List (String × EntitySchema))
    (db₀ : Db) {s : Sys ι} (hs : Relation.ReflTransGen Step (Sys.boot config orders db₀) s) :
    ∃ t, Relation.ReflTransGen Step (Sys.start config (fun p : ι × Nat => orders p.1 p.2) db₀) t ∧ t.db = s.db ∧
      ∀ i, (s.procs i).prog = .pure (.ok ()) → ∃ k, (t.procs (i, k)).prog = .pure (.ok ()) := by
  obtain ⟨t, ht, hsim⟩ := (Sim.start db₀).reach hs
  exact ⟨t, ht, hsim.db, fun _ => hsim.ok⟩

/-- One server, one entity without a schema, after its `collMod` succeeded. -/
theorem runSchemaDDL_refines_tries_after_collMod :
    let config : Config := ⟨[("hosts", ⟨none⟩)], ⟨⟨⟨false, ""⟩⟩⟩, by decide⟩
    let orders : Unit → Nat → List (String × EntitySchema) := fun _ _ => config.entities
    let db₀ : Db := fun _ => ⟨["_id_"], .empty, ""⟩
    let s : Sys Unit := ⟨db₀.apply (.collMod "hosts" .empty "off") (.ok []), Function.update
      (Sys.boot config orders db₀).procs () ⟨.pure (.ok ()), [(.collMod "hosts" .empty "off", .ok [])]⟩⟩
    Relation.ReflTransGen Step (Sys.boot config orders db₀) s ∧
    ∃ t, Relation.ReflTransGen Step (Sys.start config (fun p : Unit × Nat => orders p.1 p.2) db₀) t ∧ t.db = s.db ∧
      ∀ i, (s.procs i).prog = .pure (.ok ()) → ∃ k, (t.procs (i, k)).prog = .pure (.ok ()) := by
  intro config orders db₀ s
  have hstep := Step.call (Sys.boot config orders db₀) () rfl (Responds.collMod _ "hosts" .empty "off")
  have hreach : Relation.ReflTransGen Step (Sys.boot config orders db₀) s := .single hstep
  exact ⟨hreach, runSchemaDDL_refines_tries config orders db₀ hreach⟩

/-- Any number of servers running `runSchemaDDL`, each try in its own entity order, any interleaving, any
    transient failures, no build in progress. At every moment each collection holds only index names it
    started with or declared names, and the validation it started with or the expected one; a declared or
    system index is never removed; and once any server's `runSchemaDDL` has returned nil, the database is in
    the state the config asks for and never changes again, whatever the other servers still do. -/
theorem runSchemaDDL_servers_safe [DecidableEq ι] (config : Config) (orders : ι → Nat → List (String × EntitySchema))
    (horders : ∀ i k, (orders i k).Perm config.entities) (db₀ : Db) {s : Sys ι}
    (hs : Relation.ReflTransGen Step (Sys.boot config orders db₀) s) :
    TowardConfig config db₀ s.db ∧
    (∀ s', Relation.ReflTransGen Step s s' → ∀ coll n, Declared config coll n ∨ hasPrefix n "_" = true →
      n ∈ (s.db coll).indexes → n ∈ (s'.db coll).indexes) ∧
    ((∃ i, (s.procs i).prog = .pure (.ok ())) → Converged config s.db ∧
      ∀ s', Relation.ReflTransGen Step s s' → s'.db = s.db) := by
  have horders' : ∀ p : ι × Nat, (orders p.1 p.2).Perm config.entities := fun p => horders p.1 p.2
  obtain ⟨t, ht, hsim⟩ := (Sim.start db₀).reach hs
  refine ⟨hsim.db ▸ reach_db horders' (fun _ _ _ hc _ h => h.apply hc) .refl ht
    ⟨fun _ _ hn => .inl hn, fun _ => .inl ⟨rfl, rfl⟩⟩, fun s' h coll n hkept hn => ?_, fun ⟨i, hi⟩ => ?_⟩
  · obtain ⟨t', ht', hsim'⟩ := hsim.reach h
    exact hsim'.db ▸ reach_db horders' (P := fun db => n ∈ (db coll).indexes)
      (fun _ _ _ hc _ h => mem_apply_of_kept h hc hkept) ht ht' (hsim.db ▸ hn)
  · obtain ⟨k, hk⟩ := hsim.ok hi
    have hconv := converged_of_ok horders' ht hk
    refine ⟨hsim.db ▸ hconv, fun s' h => ?_⟩
    obtain ⟨t', ht', hsim'⟩ := hsim.reach h
    rw [← hsim'.db, ← hsim.db]
    exact reach_db horders' (P := (· = t.db)) (fun _ _ _ hc hr h => h ▸ hconv.apply_eq hc (h ▸ hr)) ht ht' rfl

/-- The same run: the server has returned nil. -/
theorem runSchemaDDL_servers_safe_hosts :
    let config : Config := ⟨[("hosts", ⟨none⟩)], ⟨⟨⟨false, ""⟩⟩⟩, by decide⟩
    let orders : Unit → Nat → List (String × EntitySchema) := fun _ _ => config.entities
    let db₀ : Db := fun _ => ⟨["_id_"], .empty, ""⟩
    let s : Sys Unit := ⟨db₀.apply (.collMod "hosts" .empty "off") (.ok []), Function.update
      (Sys.boot config orders db₀).procs () ⟨.pure (.ok ()), [(.collMod "hosts" .empty "off", .ok [])]⟩⟩
    ((∀ i k, (orders i k).Perm config.entities) ∧ Relation.ReflTransGen Step (Sys.boot config orders db₀) s) ∧
    TowardConfig config db₀ s.db ∧
    (∀ s', Relation.ReflTransGen Step s s' → ∀ coll n, Declared config coll n ∨ hasPrefix n "_" = true →
      n ∈ (s.db coll).indexes → n ∈ (s'.db coll).indexes) ∧
    ((∃ i, (s.procs i).prog = .pure (.ok ())) → Converged config s.db ∧
      ∀ s', Relation.ReflTransGen Step s s' → s'.db = s.db) := by
  intro config orders db₀ s
  have hstep := Step.call (Sys.boot config orders db₀) () rfl (Responds.collMod _ "hosts" .empty "off")
  have hreach : Relation.ReflTransGen Step (Sys.boot config orders db₀) s := .single hstep
  exact ⟨⟨fun _ _ => .refl _, hreach⟩, runSchemaDDL_servers_safe config orders (fun _ _ => .refl _) db₀ hreach⟩


/-! ### A rejected schema -/

section Rejected

variable {config : Config} {entity : String} {schema : Schema}
  (hentity : (entity, ⟨some schema⟩) ∈ config.entities)
  (hrejected : ¬SchemaAccepted schema config.global.schemaValidationConfig.case)
include hentity hrejected

/-- With a rejected schema, every process, from where it stands, never sends that entity's `collMod` and ends
    with an error. -/
theorem Inv.rejected {orders : ι → List (String × EntitySchema)} {db₀ : Db} {s : Sys ι}
    (horders : ∀ i, (orders i).Perm config.entities) (hs : Inv config orders db₀ s) (i : ι) :
    Spec NoBuildInProgress (fun c => ∀ v l, c ≠ .collMod entity v l) (fun r => r.isOk = false) (s.procs i).prog :=
  ((createOrUpdateMongoSchema_rejected_spec config.global entity schema hrejected (orders i)
    (((horders i).map Prod.fst).nodup_iff.mpr config.entities_nodup) ((horders i).mem_iff.mpr hentity)).resume
    (hs.replies i) (hs.path i)).1

/-- With a rejected schema, the entity's collection keeps its validation along every run of the processes. -/
theorem validation_of_rejected [DecidableEq ι] {orders : ι → List (String × EntitySchema)} {db₀ : Db}
    (horders : ∀ i, (orders i).Perm config.entities) {t : Sys ι}
    (ht : Relation.ReflTransGen Step (Sys.start config orders db₀) t) :
    (t.db entity).validator = (db₀ entity).validator ∧
      (t.db entity).validationLevel = (db₀ entity).validationLevel := by
  induction ht with
  | refl => exact ⟨rfl, rfl⟩
  | tail hreach hstep ih =>
    obtain @⟨i, c, k, r, hprog, -⟩ := hstep
    have hc : ∀ v l, c ≠ .collMod entity v l :=
      (hprog ▸ (inv_of_reach horders hreach).rejected hentity hrejected horders i).1
    rcases apply_validation _ c r entity with ⟨h₁, h₂⟩ | ⟨v, l, rfl, -, -⟩
    · exact ⟨h₁.trans ih.1, h₂.trans ih.2⟩
    · exact absurd rfl (hc v l)

end Rejected

/-- Any number of servers running `runSchemaDDL`, each try in its own entity order, any interleaving, any
    transient failures, no build in progress: when one entity's schema fails the checks, no server's
    `runSchemaDDL` ever returns nil, and that entity's collection keeps the validator and validation level it
    started with, whatever the servers do to its indexes. -/
theorem runSchemaDDL_servers_rejected [DecidableEq ι] (config : Config)
    (orders : ι → Nat → List (String × EntitySchema)) (horders : ∀ i k, (orders i k).Perm config.entities)
    (db₀ : Db) {s : Sys ι} (hs : Relation.ReflTransGen Step (Sys.boot config orders db₀) s) {entity : String}
    {schema : Schema} (hentity : (entity, ⟨some schema⟩) ∈ config.entities)
    (hrejected : ¬SchemaAccepted schema config.global.schemaValidationConfig.case) :
    (∀ i, (s.procs i).prog ≠ .pure (.ok ())) ∧
      (s.db entity).validator = (db₀ entity).validator ∧
        (s.db entity).validationLevel = (db₀ entity).validationLevel := by
  have horders' : ∀ p : ι × Nat, (orders p.1 p.2).Perm config.entities := fun p => horders p.1 p.2
  obtain ⟨t, ht, hsim⟩ := (Sim.start db₀).reach hs
  refine ⟨fun i hi => ?_, hsim.db ▸ validation_of_rejected hentity hrejected horders' ht⟩
  obtain ⟨k, hk⟩ := hsim.ok hi
  have hpost := (inv_of_reach horders' ht).rejected hentity hrejected horders' (i, k)
  rw [hk] at hpost
  exact absurd hpost (by simp)

/-- One server, a schema with a valid index and an unknown validation level: its first try creates the index,
    lists, and fails on the level; its second try has created the index again. -/
theorem runSchemaDDL_servers_rejected_lenient :
    let field : Field := ⟨"host", "string", true, "", none, none, []⟩
    let index : Index := { keys := ["host"], unique := false, direction := [], sparse := false }
    let schema : Schema :=
      { fields := [field], additionalProperties := true, indexes := [index], validationLevel := "lenient" }
    let config : Config := ⟨[("hosts", ⟨some schema⟩)], ⟨⟨⟨false, ""⟩⟩⟩, by decide⟩
    let orders : Unit → Nat → List (String × EntitySchema) := fun _ _ => config.entities
    let db₀ : Db := fun _ => ⟨["_id_"], .empty, ""⟩
    let s := (Sys.boot config orders db₀).runSchedule [(), (), ()]
    ((∀ i k, (orders i k).Perm config.entities) ∧ Relation.ReflTransGen Step (Sys.boot config orders db₀) s ∧
      ("hosts", ⟨some schema⟩) ∈ config.entities ∧ ¬SchemaAccepted schema config.global.schemaValidationConfig.case ∧
      (s.procs ()).log.map Prod.fst = [.createOne "hosts" [("host", 1)] false false "SL_host", .listIndexes "hosts",
        .createOne "hosts" [("host", 1)] false false "SL_host"]) ∧
    (∀ i, (s.procs i).prog ≠ .pure (.ok ())) ∧
      (s.db "hosts").validator = (db₀ "hosts").validator ∧
        (s.db "hosts").validationLevel = (db₀ "hosts").validationLevel := by
  intro field index schema config orders db₀ s
  have hs : Relation.ReflTransGen Step (Sys.boot config orders db₀) s := reach_runSchedule _ _
  have hrejected : ¬SchemaAccepted schema config.global.schemaValidationConfig.case := by decide
  exact ⟨⟨fun _ _ => .refl _, hs, List.mem_singleton_self _, hrejected, by decide⟩,
    runSchemaDDL_servers_rejected config orders (fun _ _ => .refl _) db₀ hs (List.mem_singleton_self _) hrejected⟩

end Etre.Ddl
