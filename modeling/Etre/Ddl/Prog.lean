import Etre.Ddl.Validator

/-! The database commands the DDL code sends, and the code itself as a tree of such commands.

    `CreateOrUpdateMongoSchema` and its helpers talk to MongoDB through four commands: `CreateOne` and
    `DropOne` on a collection's indexes, a listing of its indexes (a cursor of index descriptions, which may
    end in an error), and `collMod`. Everything else they do is pure, so each helper is a `Prog`: a finished
    result, or a command together with what the code does for each reply the driver may give. The database is
    left open: `runWith` runs a program against any stream of replies, `resume` follows a logged path of
    (command, reply) pairs, and `Spec Q P post` says that along every path whose replies satisfy `Q` each
    command satisfies `P` and the result satisfies `post`. -/

namespace Etre.Ddl
open Etre.Go

/-- The `validator` document of a `collMod`: `bson.D{}` (no validation) or a `$jsonSchema`. -/
inductive Validator where
  | empty
  | jsonSchema (schema : JSONSchema)
  deriving DecidableEq, Repr

/-- A command sent to the database, on the collection named by its first field. -/
inductive Cmd where
  | createOne (coll : String) (keys : List (String × Int)) (unique sparse : Bool) (name : String)
  | listIndexes (coll : String)
  | dropOne (coll name : String)
  | collMod (coll : String) (validator : Validator) (validationLevel : String)
  deriving DecidableEq, Repr

/-- The collection a command acts on. -/
def Cmd.coll : Cmd → String
  | .createOne coll .. | .listIndexes coll | .dropOne coll _ | .collMod coll .. => coll

/-- One step of the cursor a listing returns, as `existingIndexes` reads it: an index description whose `name`
    is a string, one without such a name (as `%+v` prints it), a document that fails to decode, or the end of
    the iteration with a cursor error. -/
inductive CursorItem where
  | named (name : String)
  | unnamed (index : String)
  | undecodable (err : String)
  | failed (err : String)
  deriving DecidableEq, Repr

/-- A description with a name is written as the name. -/
instance : Coe String CursorItem := ⟨.named⟩

/-- The driver's reply: the text of an error, or success with the cursor a listing returns (empty for the
    other commands). -/
abbrev Reply := Except String (List CursorItem)

/-- A program over the database: a result, or a command and the continuation for each reply. -/
inductive Prog (α : Type) where
  | pure (a : α)
  | call (c : Cmd) (k : Reply → Prog α)

namespace Prog

variable {α β : Type}

/-- Sequencing: run `p`, then `f` on its result. -/
def bind : Prog α → (α → Prog β) → Prog β
  | pure a, f => f a
  | call c k, f => call c fun r => bind (k r) f

/-- The continuation reached after the (command, reply) pairs of `log`, if `log` is a path of `p`. -/
def resume : Prog α → List (Cmd × Reply) → Option (Prog α)
  | p, [] => some p
  | pure _, _ :: _ => none
  | call c k, (c', r) :: log => if c = c' then resume (k r) log else none

/-- `log` is a complete run of `p` that ends with result `a`. -/
def Run (p : Prog α) (log : List (Cmd × Reply)) (a : α) : Prop := p.resume log = some (pure a)

/-- The result of a program that has returned; `none` while it has a command to send. -/
def result : Prog α → Option α
  | pure a => some a
  | call _ _ => none

/-- The run of `p` against the reply stream `σ`: the (command, reply) log and the result. Every program is a
    finite tree, so every run ends. -/
def runWith : Prog α → (Nat → Reply) → List (Cmd × Reply) × α
  | pure a, _ => ([], a)
  | call c k, σ =>
    let t := (k (σ 0)).runWith fun n => σ (n + 1)
    ((c, σ 0) :: t.1, t.2)

/-- Along every path of `p` whose replies satisfy `Q`, every command satisfies `P` and the result satisfies
    `post`. -/
def Spec (Q : Cmd → Reply → Prop) (P : Cmd → Prop) (post : α → Prop) : Prog α → Prop
  | pure a => post a
  | call c k => P c ∧ ∀ r, Q c r → Spec Q P post (k r)

/-! ### Paths -/

@[simp] theorem resume_nil (p : Prog α) : p.resume [] = some p := by cases p <;> rfl

@[simp] theorem resume_pure_cons (a : α) (x : Cmd × Reply) (log : List (Cmd × Reply)) :
    (pure a).resume (x :: log) = none := rfl

/-- A program whose result is `a` is `pure a`: so that a finished run can be checked by `decide`. -/
theorem eq_pure_of_result {p : Prog α} {a : α} (h : p.result = some a) : p = pure a := by
  cases p <;> cases h; rfl

theorem resume_call_cons (c c' : Cmd) (k : Reply → Prog α) (r : Reply) (log : List (Cmd × Reply)) :
    (call c k).resume ((c', r) :: log) = if c = c' then (k r).resume log else none := rfl

/-- Answering the command a path ends at extends the path by one pair. -/
theorem resume_snoc {p : Prog α} {log : List (Cmd × Reply)} {c : Cmd} {k : Reply → Prog α}
    (h : p.resume log = some (call c k)) (r : Reply) : p.resume (log ++ [(c, r)]) = some (k r) := by
  induction log generalizing p with
  | nil => simp only [resume_nil, Option.some.injEq] at h; subst h; simp [resume_call_cons]
  | cons x log ih =>
    obtain ⟨c', r'⟩ := x
    cases p with
    | pure a => simp at h
    | call c₀ k₀ =>
      rw [resume_call_cons] at h
      split_ifs at h with hc
      rw [List.cons_append, resume_call_cons, if_pos hc, ih h]

theorem run_pure {a b : α} {log : List (Cmd × Reply)} : Run (pure a) log b ↔ log = [] ∧ a = b := by
  cases log <;> simp [Run]

theorem run_call {c : Cmd} {k : Reply → Prog α} {log : List (Cmd × Reply)} {b : α} :
    Run (call c k) log b ↔ ∃ r log', log = (c, r) :: log' ∧ Run (k r) log' b := by
  constructor
  · intro h
    match log, h with
    | [], h => simp [Run] at h
    | (c', r) :: log', h =>
      rw [Run, resume_call_cons] at h
      split_ifs at h with hc
      exact ⟨r, log', hc ▸ rfl, h⟩
  · rintro ⟨r, log', rfl, h⟩
    simpa [Run, resume_call_cons] using h

theorem run_bind {p : Prog α} {f : α → Prog β} {log : List (Cmd × Reply)} {b : β} :
    Run (p.bind f) log b ↔ ∃ l₁ l₂ a, log = l₁ ++ l₂ ∧ Run p l₁ a ∧ Run (f a) l₂ b := by
  induction p generalizing log with
  | pure a =>
    simp only [bind, run_pure]
    constructor
    · exact fun h => ⟨[], log, a, rfl, ⟨rfl, rfl⟩, h⟩
    · rintro ⟨_, l₂, _, rfl, ⟨rfl, rfl⟩, h⟩; exact h
  | call c k ih =>
    simp only [bind, run_call, ih]
    constructor
    · rintro ⟨r, log', rfl, l₁, l₂, a, rfl, h₁, h₂⟩
      exact ⟨(c, r) :: l₁, l₂, a, rfl, ⟨r, l₁, rfl, h₁⟩, h₂⟩
    · rintro ⟨_, l₂, a, rfl, ⟨r, l₁, rfl, h₁⟩, h₂⟩
      exact ⟨r, l₁ ++ l₂, rfl, l₁, l₂, a, rfl, h₁, h₂⟩

/-- A run against a reply stream is a complete run. -/
theorem run_runWith (p : Prog α) (σ : Nat → Reply) : Run p (p.runWith σ).1 (p.runWith σ).2 := by
  induction p generalizing σ with
  | pure a => exact run_pure.mpr ⟨rfl, rfl⟩
  | call c k ih => exact run_call.mpr ⟨σ 0, _, rfl, ih _ _⟩

/-! ### Specifications -/

variable {Q : Cmd → Reply → Prop} {P P' : Cmd → Prop} {post : α → Prop}

@[simp] theorem spec_pure (a : α) : Spec Q P post (pure a) ↔ post a := Iff.rfl

@[simp] theorem spec_call (c : Cmd) (k : Reply → Prog α) :
    Spec Q P post (call c k) ↔ P c ∧ ∀ r, Q c r → Spec Q P post (k r) := Iff.rfl

theorem Spec.bind {p : Prog α} {f : α → Prog β} {post' : β → Prop} (hp : Spec Q P post p)
    (hf : ∀ a, post a → Spec Q P post' (f a)) : Spec Q P post' (p.bind f) := by
  induction p with
  | pure a => exact hf a hp
  | call c k ih => exact ⟨hp.1, fun r hr => ih r (hp.2 r hr)⟩

theorem Spec.mono {p : Prog α} {post' : α → Prop} (hp : Spec Q P post p) (hP : ∀ c, P c → P' c)
    (hpost : ∀ a, post a → post' a) : Spec Q P' post' p := by
  induction p with
  | pure a => exact hpost a hp
  | call c k ih => exact ⟨hP c hp.1, fun r hr => ih r (hp.2 r hr)⟩

/-- Following a path whose replies satisfy `Q` keeps the specification, and its commands satisfy `P`. -/
theorem Spec.resume {p q : Prog α} {log : List (Cmd × Reply)} (hp : Spec Q P post p)
    (hlog : ∀ x ∈ log, Q x.1 x.2) (h : p.resume log = some q) : Spec Q P post q ∧ ∀ x ∈ log, P x.1 := by
  induction log generalizing p with
  | nil => simp only [resume_nil, Option.some.injEq] at h; exact ⟨h ▸ hp, by simp⟩
  | cons x log ih =>
    obtain ⟨c', r⟩ := x
    cases p with
    | pure a => simp at h
    | call c k =>
      rw [resume_call_cons] at h
      split_ifs at h with hc
      subst hc
      have hr := hlog (c, r) (List.mem_cons_self _ _)
      obtain ⟨hq, hP⟩ := ih (hp.2 r hr) (fun x hx => hlog x (List.mem_cons_of_mem _ hx)) h
      exact ⟨hq, List.forall_mem_cons.mpr ⟨hp.1, hP⟩⟩

theorem Spec.run {p : Prog α} {log : List (Cmd × Reply)} {a : α} (hp : Spec Q P post p)
    (hlog : ∀ x ∈ log, Q x.1 x.2) (h : Run p log a) : post a ∧ ∀ x ∈ log, P x.1 :=
  Spec.resume hp hlog h

theorem Spec.runWith {p : Prog α} (σ : Nat → Reply) (hp : Spec Q P post p)
    (hlog : ∀ x ∈ (p.runWith σ).1, Q x.1 x.2) : post (p.runWith σ).2 ∧ ∀ x ∈ (p.runWith σ).1, P x.1 :=
  hp.run hlog (run_runWith p σ)

end Prog

end Etre.Ddl
