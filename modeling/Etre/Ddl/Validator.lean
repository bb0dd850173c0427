import Etre.Ddl.Config

/-! `BSONSchemaValidator`: the `$jsonSchema` document built from a schema's fields.

    The loop walks the fields in order and stops at the first one it rejects (empty name, unsupported type,
    or an enum on a non-string type, checked in that order). Otherwise every field writes its property into
    a map, so a later field with the same name wins, appends its name to `required` when required, and
    records its dependents when it has some. `bsonSchemaValidator_spec` states all of this against
    `specFieldSchema`, a definition that follows the priority list of the specification. So when the names
    are distinct the order of the fields only decides which error is reported and the order of `required`
    (`bsonSchemaValidator_reorder`). -/

namespace Etre.Ddl
open Etre.Go

/-- The constraint set beside `bsonType`: the code sets at most one of `pattern` and `enum`. -/
inductive Constraint where
  | none
  | pattern (p : String)
  | enum (values : List String)
  deriving DecidableEq, Repr

/-- A property's schema, `bson.M{"bsonType": .., "pattern" or "enum": ..}`. -/
structure FieldSchema where
  bsonType : String
  constraint : Constraint
  deriving DecidableEq, Repr

/-- The `$jsonSchema` document. -/
structure JSONSchema where
  bsonType : String
  properties : GoMap FieldSchema
  required : List String
  additionalProperties : Bool
  dependencies : Option (GoMap (List String))
  deriving DecidableEq, Repr

/-- The `switch field.Type`: the backing type of a supported field type. -/
def bsonTypeOf (type : String) : Option String :=
  if type = "string" ∨ type = "bool" ∨ type = "object" then some type
  else if type = "int" then some "long"
  else if type = "datetime" ∨ type = "int-str" ∨ type = "bool-str" then some "string"
  else none

/-- The checks and the type switch of one iteration: the field's `bsonType`, or the error for it. -/
def fieldBSONType (field : Field) : Except GoError String :=
  if field.name = "" then
    .error (errFieldNameEmpty.wrap ("field of type " ++ field.type ++ " has an empty name"))
  else
    match bsonTypeOf field.type with
    | none => .error (errInvalidFieldType.wrap ("field " ++ field.name ++ " is of type " ++ quote field.type))
    | some bsonType =>
      if field.type ≠ "string" ∧ field.enum.isSome then
        .error (errEnumNotString.wrap ("field " ++ field.name ++ " is of type " ++ quote field.type))
      else .ok bsonType

/-- The pattern-or-casing switch of one iteration. -/
def fieldConstraint (field : Field) (bsonType : String) (globalCase : Case) : Constraint :=
  let effectiveCase := field.case.getD globalCase
  if field.pattern ≠ "" then .pattern field.pattern
  else if field.enum.getD [] ≠ [] then .enum (field.enum.getD [])
  else if field.type = "datetime" then .pattern regexRFC3339
  else if field.type = "int-str" then .pattern regexInt64
  else if field.type = "bool-str" then .enum ["true", "false"]
  else if effectiveCase.strict ∧ bsonType = "string" then
    if effectiveCase.type = "lower" then .pattern regexLowerCase else .none
  else .none

/-- The loop's accumulators: `requiredFields`, `dependents` and `properties`. -/
structure ValidatorAcc where
  requiredFields : List String
  dependents : GoMap (List String)
  properties : GoMap FieldSchema

/-- One iteration past the checks. -/
def ValidatorAcc.add (acc : ValidatorAcc) (globalCase : Case) (field : Field) (bsonType : String) :
    ValidatorAcc where
  properties := acc.properties.set field.name ⟨bsonType, fieldConstraint field bsonType globalCase⟩
  requiredFields := if field.required then acc.requiredFields ++ [field.name] else acc.requiredFields
  dependents := if field.dependents.length > 0 then acc.dependents.set field.name field.dependents
    else acc.dependents

/-- One iteration of the loop: check the field, then record it. -/
def validatorStep (globalCase : Case) (acc : ValidatorAcc) (field : Field) : Except GoError ValidatorAcc := do
  let bsonType ← fieldBSONType field
  pure (acc.add globalCase field bsonType)

/-- `BSONSchemaValidator`; the result stands for `bson.M{"$jsonSchema": ..}`. -/
def bsonSchemaValidator (schema : Schema) (globalCase : Case) : Except GoError JSONSchema := do
  let acc ← schema.fields.foldlM (validatorStep globalCase) ⟨[], .empty, .empty⟩
  pure {
    bsonType := "object"
    properties := acc.properties
    required := acc.requiredFields
    additionalProperties := schema.additionalProperties
    dependencies := if acc.dependents.nonEmpty then some acc.dependents else none }

/-! ### The specification's reading -/

/-- The field types the validator supports. -/
def supportedTypes : List String := ["string", "int", "bool", "object", "datetime", "int-str", "bool-str"]

/-- A field the validator must reject. -/
def fieldRejected (f : Field) : Prop :=
  f.name = "" ∨ f.type ∉ supportedTypes ∨ (f.enum.isSome ∧ f.type ≠ "string")

instance : DecidablePred fieldRejected := fun _ => inferInstanceAs (Decidable (_ ∨ _ ∨ _))

/-- The error for a rejected field: name first, then type, then enum. -/
def fieldError (f : Field) : GoError :=
  if f.name = "" then errFieldNameEmpty.wrap ("field of type " ++ f.type ++ " has an empty name")
  else if f.type ∉ supportedTypes then
    errInvalidFieldType.wrap ("field " ++ f.name ++ " is of type " ++ quote f.type)
  else errEnumNotString.wrap ("field " ++ f.name ++ " is of type " ++ quote f.type)

/-- The backing type: `int` is a long; `datetime`, `int-str` and `bool-str` are strings. -/
def specBSONType (type : String) : String :=
  if type = "int" then "long"
  else if type = "datetime" ∨ type = "int-str" ∨ type = "bool-str" then "string"
  else type

/-- The constraint by priority: explicit pattern, non-empty enum, the type-driven patterns, then the
    lower-case rule for a string field whose effective case is strict and lower. -/
def specConstraint (globalCase : Case) (f : Field) : Constraint :=
  match f.pattern, f.enum with
  | "", some (v :: vs) => .enum (v :: vs)
  | "", _ =>
    if f.type = "datetime" then .pattern regexRFC3339
    else if f.type = "int-str" then .pattern regexInt64
    else if f.type = "bool-str" then .enum ["true", "false"]
    else if f.type = "string" ∧ (f.case.getD globalCase).strict ∧ (f.case.getD globalCase).type = "lower" then
      .pattern regexLowerCase
    else .none
  | p, _ => .pattern p

/-- The property schema the specification gives a field. -/
def specFieldSchema (globalCase : Case) (f : Field) : FieldSchema :=
  ⟨specBSONType f.type, specConstraint globalCase f⟩

/-- The last field satisfying `p`. -/
def lastWith (p : Field → Bool) (fields : List Field) : Option Field := fields.reverse.find? p

/-! ### One field -/

theorem bsonTypeOf_eq (t : String) :
    bsonTypeOf t = if t ∈ supportedTypes then some (specBSONType t) else none := by
  by_cases h : t ∈ supportedTypes
  · simp only [supportedTypes, List.mem_cons, List.mem_singleton, List.not_mem_nil, or_false] at h
    rcases h with rfl | rfl | rfl | rfl | rfl | rfl | rfl <;> decide
  · simp only [supportedTypes, List.mem_cons, List.not_mem_nil, or_false, not_or] at h
    simp [bsonTypeOf, supportedTypes, h]

/-- The spec lemma of one iteration's checks. -/
theorem fieldBSONType_eq (f : Field) :
    fieldBSONType f = if fieldRejected f then .error (fieldError f) else .ok (specBSONType f.type) := by
  unfold fieldBSONType fieldRejected fieldError
  rw [bsonTypeOf_eq]
  by_cases hn : f.name = ""
  · simp [hn]
  by_cases ht : f.type ∈ supportedTypes
  · have he : (f.type ≠ "string" ∧ f.enum.isSome = true) ↔ (f.enum.isSome = true ∧ f.type ≠ "string") :=
      and_comm
    simp only [hn, ht, if_false, if_true, not_true, false_or, not_false_eq_true, he]
  · simp [hn, ht]

/-- Past the pattern, enum and type-driven cases, the code's `strict && bsonType == "string"` guard is the
    specification's "string field" condition. -/
theorem caseRule_eq (c : Case) {t : String} (h1 : t ≠ "datetime") (h2 : t ≠ "int-str") (h3 : t ≠ "bool-str") :
    (if c.strict = true ∧ specBSONType t = "string" then
      (if c.type = "lower" then Constraint.pattern regexLowerCase else .none) else .none) =
    (if t = "string" ∧ c.strict = true ∧ c.type = "lower" then Constraint.pattern regexLowerCase else .none) := by
  by_cases hs : t = "string"
  · subst hs
    by_cases hc : c.strict = true <;> by_cases hl : c.type = "lower" <;> simp [hc, hl, specBSONType]
  · have : specBSONType t ≠ "string" := by unfold specBSONType; split_ifs <;> simp_all
    simp [hs, this]

/-- The code's switch gives the specification's constraint, for every field. -/
theorem fieldConstraint_eq (f : Field) (g : Case) :
    fieldConstraint f (specBSONType f.type) g = specConstraint g f := by
  rcases f with ⟨name, type, required, pattern, case, enum, dependents⟩
  unfold fieldConstraint specConstraint
  by_cases hp : pattern = ""
  · subst hp
    have typed : (if type = "datetime" then Constraint.pattern regexRFC3339
        else if type = "int-str" then .pattern regexInt64
        else if type = "bool-str" then .enum ["true", "false"]
        else if (case.getD g).strict = true ∧ specBSONType type = "string" then
          (if (case.getD g).type = "lower" then .pattern regexLowerCase else .none) else .none) =
        (if type = "datetime" then Constraint.pattern regexRFC3339
        else if type = "int-str" then .pattern regexInt64
        else if type = "bool-str" then .enum ["true", "false"]
        else if type = "string" ∧ (case.getD g).strict = true ∧ (case.getD g).type = "lower" then
          .pattern regexLowerCase else .none) := by
      by_cases h1 : type = "datetime"; · simp [h1]
      by_cases h2 : type = "int-str"; · simp [h2]
      by_cases h3 : type = "bool-str"; · simp [h3]
      simp only [h1, h2, h3, if_false]
      exact caseRule_eq _ h1 h2 h3
    rcases enum with _ | _ | ⟨v, vs⟩ <;> simp [typed]
  · simp [hp]

/-! ### The loop -/

theorem validatorStep_eq (g : Case) (acc : ValidatorAcc) (f : Field) :
    validatorStep g acc f =
      if fieldRejected f then .error (fieldError f) else .ok (acc.add g f (specBSONType f.type)) := by
  unfold validatorStep
  rw [fieldBSONType_eq]
  split_ifs <;> rfl

/-- The loop fails exactly at the first rejected field, with that field's error. -/
theorem foldlM_validatorStep_error (g : Case) (e : GoError) : ∀ (fields : List Field) (acc : ValidatorAcc),
    fields.foldlM (validatorStep g) acc = .error e ↔
      ∃ pre f post, fields = pre ++ f :: post ∧ (∀ x ∈ pre, ¬fieldRejected x) ∧ fieldRejected f ∧
        e = fieldError f
  | [], acc => by simp [pure, Except.pure]
  | x :: xs, acc => by
    rw [List.foldlM_cons, validatorStep_eq]
    by_cases hx : fieldRejected x
    · simp only [hx, if_true]
      constructor
      · intro h
        exact ⟨[], x, xs, rfl, by simp, hx, by cases h; rfl⟩
      · rintro ⟨pre, f, post, h, hpre, hf, rfl⟩
        cases pre with
        | nil => cases h; rfl
        | cons y pre => cases h; exact absurd hx (hpre _ (by simp))
    · simp only [hx, if_false]
      rw [show (Except.ok (acc.add g x (specBSONType x.type)) >>= fun a => xs.foldlM (validatorStep g) a) =
        xs.foldlM (validatorStep g) (acc.add g x (specBSONType x.type)) from rfl,
        foldlM_validatorStep_error g e xs]
      constructor
      · rintro ⟨pre, f, post, rfl, hpre, hf, rfl⟩
        exact ⟨x :: pre, f, post, rfl, List.forall_mem_cons.mpr ⟨hx, hpre⟩, hf, rfl⟩
      · rintro ⟨pre, f, post, h, hpre, hf, rfl⟩
        cases pre with
        | nil => cases h; exact absurd hf hx
        | cons y pre =>
          cases h
          exact ⟨pre, f, post, rfl, fun z hz => hpre z (by simp [hz]), hf, rfl⟩

/-- With no rejected field, the loop is the fold of `add`. -/
theorem foldlM_validatorStep_ok (g : Case) : ∀ (fields : List Field) (acc : ValidatorAcc),
    (∀ f ∈ fields, ¬fieldRejected f) →
      fields.foldlM (validatorStep g) acc = .ok (fields.foldl (fun a f => a.add g f (specBSONType f.type)) acc)
  | [], _, _ => rfl
  | x :: xs, acc, h => by
    rw [List.foldlM_cons, validatorStep_eq, if_neg (h x (by simp))]
    exact foldlM_validatorStep_ok g xs _ fun f hf => h f (by simp [hf])

theorem lastWith_cons (p : Field → Bool) (f : Field) (fs : List Field) :
    lastWith p (f :: fs) = (lastWith p fs).or (if p f then some f else none) := by
  simp only [lastWith, List.reverse_cons, List.find?_append, List.find?_cons, List.find?_nil]
  cases p f <;> rfl

theorem lastWith_mem {p : Field → Bool} {fs : List Field} {f : Field} (h : lastWith p fs = some f) :
    f ∈ fs ∧ p f = true :=
  ⟨List.mem_reverse.mp (List.mem_of_find?_eq_some h), List.find?_some h⟩

section Accumulators

variable (g : Case)

/-- `required` lists the required fields' names in order, repeats included. -/
theorem foldl_add_required : ∀ (fields : List Field) (acc : ValidatorAcc),
    (fields.foldl (fun a f => a.add g f (specBSONType f.type)) acc).requiredFields =
      acc.requiredFields ++ (fields.filter (·.required)).map (·.name)
  | [], acc => by simp
  | f :: fs, acc => by
    rw [List.foldl_cons, foldl_add_required fs]
    cases hf : f.required <;> simp [ValidatorAcc.add, hf]

/-- A property holds what the last field of its name wrote. -/
theorem foldl_add_properties : ∀ (fields : List Field) (acc : ValidatorAcc) (n : String),
    (fields.foldl (fun a f => a.add g f (specBSONType f.type)) acc).properties.get? n =
      ((lastWith (·.name == n) fields).map fun f =>
        (⟨specBSONType f.type, fieldConstraint f (specBSONType f.type) g⟩ : FieldSchema)).or
        (acc.properties.get? n)
  | [], acc, n => by simp [lastWith]
  | f :: fs, acc, n => by
    rw [List.foldl_cons, foldl_add_properties fs, lastWith_cons, Option.map_or', Option.or_assoc]
    congr 1
    by_cases hn : f.name = n <;> simp [ValidatorAcc.add, GoMap.get?_set, hn]

/-- A dependency holds the dependents of the last field of its name that has some. -/
theorem foldl_add_dependents : ∀ (fields : List Field) (acc : ValidatorAcc) (n : String),
    (fields.foldl (fun a f => a.add g f (specBSONType f.type)) acc).dependents.get? n =
      ((lastWith (fun f => f.name == n && !f.dependents.isEmpty) fields).map (·.dependents)).or
        (acc.dependents.get? n)
  | [], acc, n => by simp [lastWith]
  | f :: fs, acc, n => by
    rw [List.foldl_cons, foldl_add_dependents fs, lastWith_cons, Option.map_or', Option.or_assoc]
    congr 1
    by_cases hn : f.name = n <;> cases hd : f.dependents <;>
      simp [ValidatorAcc.add, GoMap.get?_set, hn, hd]

theorem foldl_add_dependents_nonEmpty : ∀ (fields : List Field) (acc : ValidatorAcc),
    (fields.foldl (fun a f => a.add g f (specBSONType f.type)) acc).dependents.nonEmpty =
      (acc.dependents.nonEmpty || fields.any fun f => !f.dependents.isEmpty)
  | [], acc => by simp
  | f :: fs, acc => by
    rw [List.foldl_cons, foldl_add_dependents_nonEmpty fs]
    cases hd : f.dependents <;> simp [ValidatorAcc.add, hd]

end Accumulators

/-- `BSONSchemaValidator` against the specification. It fails exactly at the first rejected field, with that
    field's error. Otherwise the document is an object schema with the schema's `additionalProperties`,
    for each name the property of the last field of that name, the required names in order, and
    `dependencies` only when some field has dependents, holding for each name the dependents of the last
    field of that name that has some. -/
theorem bsonSchemaValidator_spec (schema : Schema) (g : Case) :
    (∀ e, bsonSchemaValidator schema g = .error e ↔
      ∃ pre f post, schema.fields = pre ++ f :: post ∧ (∀ x ∈ pre, ¬fieldRejected x) ∧ fieldRejected f ∧
        e = fieldError f) ∧
    ((∀ f ∈ schema.fields, ¬fieldRejected f) → ∃ J, bsonSchemaValidator schema g = .ok J ∧
      J.bsonType = "object" ∧ J.additionalProperties = schema.additionalProperties ∧
      (∀ n, J.properties.get? n = (lastWith (·.name == n) schema.fields).map (specFieldSchema g)) ∧
      J.required = (schema.fields.filter (·.required)).map (·.name) ∧
      (J.dependencies.isSome ↔ ∃ f ∈ schema.fields, f.dependents ≠ []) ∧
      ∀ D, J.dependencies = some D → ∀ n,
        D.get? n = (lastWith (fun f => f.name == n && !f.dependents.isEmpty) schema.fields).map (·.dependents)) := by
  constructor
  · intro e
    rw [← foldlM_validatorStep_error g e schema.fields ⟨[], .empty, .empty⟩]
    unfold bsonSchemaValidator
    cases schema.fields.foldlM (validatorStep g) ⟨[], .empty, .empty⟩ <;> simp [bind, Except.bind, pure, Except.pure]
  · intro hok
    unfold bsonSchemaValidator
    rw [foldlM_validatorStep_ok g _ _ hok]
    refine ⟨_, rfl, rfl, rfl, fun n => ?_, by simp [foldl_add_required], ?_, fun D hD n => ?_⟩
    · simp only [foldl_add_properties, GoMap.get?_empty, Option.or_none]
      congr 1
      funext f
      rw [fieldConstraint_eq]; rfl
    · simp [foldl_add_dependents_nonEmpty, List.isEmpty_iff]
    · simp only [Option.ite_none_right_eq_some, Option.some.injEq] at hD
      rw [← hD.2, foldl_add_dependents]
      simp

/-! ### The order of the fields -/

/-- Two `$jsonSchema` documents that validate alike: the same `bsonType` and `additionalProperties`, the same
    property and the same dependents for every name, and the same required names, in any order. -/
structure JSONSchema.SameValidation (J J' : JSONSchema) : Prop where
  bsonType : J.bsonType = J'.bsonType
  additionalProperties : J.additionalProperties = J'.additionalProperties
  properties : ∀ n, J.properties.get? n = J'.properties.get? n
  required : J.required.Perm J'.required
  dependencies : J.dependencies.map GoMap.get? = J'.dependencies.map GoMap.get?

/-- A loop that got through has rejected no field. -/
theorem not_rejected_of_foldlM_ok (g : Case) : ∀ (fields : List Field) {acc acc' : ValidatorAcc},
    fields.foldlM (validatorStep g) acc = .ok acc' → ∀ f ∈ fields, ¬fieldRejected f
  | [], _, _, _ => by simp
  | x :: xs, acc, acc', h => by
    rw [List.foldlM_cons, validatorStep_eq] at h
    by_cases hx : fieldRejected x
    · rw [if_pos hx] at h
      cases h
    · rw [if_neg hx] at h
      exact List.forall_mem_cons.mpr ⟨hx, not_rejected_of_foldlM_ok g xs h⟩

/-- The document built from a schema none of whose fields is rejected. -/
theorem bsonSchemaValidator_eq_ok {schema : Schema} {g : Case} (hok : ∀ f ∈ schema.fields, ¬fieldRejected f) :
    let acc := schema.fields.foldl (fun (a : ValidatorAcc) f => a.add g f (specBSONType f.type)) ⟨[], .empty, .empty⟩
    bsonSchemaValidator schema g = .ok ⟨"object", acc.properties, acc.requiredFields, schema.additionalProperties,
      if acc.dependents.nonEmpty then some acc.dependents else none⟩ := by
  unfold bsonSchemaValidator
  rw [foldlM_validatorStep_ok g _ _ hok]
  rfl

theorem isOk_bsonSchemaValidator (schema : Schema) (g : Case) :
    (bsonSchemaValidator schema g).isOk = true ↔ ∀ f ∈ schema.fields, ¬fieldRejected f := by
  refine ⟨fun h => ?_, fun h => by rw [bsonSchemaValidator_eq_ok h]; rfl⟩
  unfold bsonSchemaValidator at h
  cases hfold : schema.fields.foldlM (validatorStep g) ⟨[], .empty, .empty⟩ with
  | error e => simp [hfold, bind, Except.bind] at h
  | ok acc => exact not_rejected_of_foldlM_ok g _ hfold

/-- Among fields a test picks at most one of, the last one it picks does not depend on their order. -/
theorem lastWith_perm {p : Field → Bool} {fs fs' : List Field} (hperm : fs.Perm fs')
    (huniq : ∀ f ∈ fs, ∀ f' ∈ fs, p f = true → p f' = true → f = f') : lastWith p fs = lastWith p fs' := by
  have key : ∀ {l l' : List Field}, l.Perm l' → (∀ f ∈ l, ∀ f' ∈ l, p f = true → p f' = true → f = f') →
      ∀ f, lastWith p l = some f → lastWith p l' = some f := by
    intro l l' hp hu f h
    obtain ⟨hf, hpf⟩ := lastWith_mem h
    obtain ⟨x, hx⟩ : ∃ x, lastWith p l' = some x := Option.isSome_iff_exists.mp
      (List.find?_isSome.mpr ⟨f, List.mem_reverse.mpr (hp.mem_iff.mp hf), hpf⟩)
    obtain ⟨hxm, hpx⟩ := lastWith_mem hx
    rw [← hu x (hp.mem_iff.mpr hxm) f hf hpx hpf]
    exact hx
  cases h : lastWith p fs with
  | some f => exact (key hperm huniq f h).symm
  | none =>
    cases h' : lastWith p fs' with
    | none => rfl
    | some f =>
      have huniq' : ∀ f ∈ fs', ∀ f' ∈ fs', p f = true → p f' = true → f = f' :=
        fun f hf f' hf' => huniq f (hperm.mem_iff.mpr hf) f' (hperm.mem_iff.mpr hf')
      simpa [h] using key hperm.symm huniq' f h'

/-- With distinct field names the order of the fields decides only which error is reported: the validator
    succeeds for every order or for none, and the documents it builds validate alike, `required` listing the
    required names in the fields' order. -/
theorem bsonSchemaValidator_reorder (g : Case) {schema schema' : Schema} (hperm : schema.fields.Perm schema'.fields)
    (hnames : (schema.fields.map (·.name)).Nodup) (hadd : schema.additionalProperties = schema'.additionalProperties) :
    (bsonSchemaValidator schema g).isOk = (bsonSchemaValidator schema' g).isOk ∧
      ∀ J J', bsonSchemaValidator schema g = .ok J → bsonSchemaValidator schema' g = .ok J' →
        J.SameValidation J' := by
  have hmem : ∀ f, f ∈ schema.fields ↔ f ∈ schema'.fields := fun _ => hperm.mem_iff
  refine ⟨Bool.eq_iff_iff.mpr (by simp only [isOk_bsonSchemaValidator, hmem]), fun J J' hJ hJ' => ?_⟩
  have hok := (isOk_bsonSchemaValidator schema g).mp (by simp [hJ])
  have hok' := (isOk_bsonSchemaValidator schema' g).mp (by simp [hJ'])
  rw [bsonSchemaValidator_eq_ok hok, Except.ok.injEq] at hJ
  rw [bsonSchemaValidator_eq_ok hok', Except.ok.injEq] at hJ'
  subst hJ hJ'
  have hname := List.inj_on_of_nodup_map hnames
  have hlast : ∀ (n : String) (q : Field → Bool),
      lastWith (fun f => f.name == n && q f) schema.fields = lastWith (fun f => f.name == n && q f) schema'.fields :=
    fun n q => lastWith_perm hperm fun f hf f' hf' hp hp' => hname hf hf' (by simp_all)
  have hany : (schema.fields.any fun f => !f.dependents.isEmpty) = schema'.fields.any fun f => !f.dependents.isEmpty :=
    Bool.eq_iff_iff.mpr (by simp only [List.any_eq_true, hmem])
  refine ⟨rfl, hadd, fun n => ?_, ?_, ?_⟩
  · have h := hlast n fun _ => true
    simp only [Bool.and_true] at h
    simp only [foldl_add_properties, GoMap.get?_empty, Option.or_none, h]
  · simpa [foldl_add_required] using (hperm.filter _).map _
  · simp only [foldl_add_dependents_nonEmpty, GoMap.nonEmpty_empty, Bool.false_or, hany]
    split_ifs
    · simp only [Option.map_some', Option.some.injEq]
      funext n
      simp only [foldl_add_dependents, GoMap.get?_empty, Option.or_none, hlast n fun f => !f.dependents.isEmpty]
    · rfl

/-- Two fields, in both orders. -/
theorem bsonSchemaValidator_reorder_host_port :
    let host : Field := ⟨"host", "string", true, "", none, none, []⟩
    let port : Field := ⟨"port", "int", true, "", none, none, ["host"]⟩
    let schema : Schema := ⟨[host, port], false, [], ""⟩
    let schema' : Schema := ⟨[port, host], false, [], ""⟩
    (schema.fields.Perm schema'.fields ∧ (schema.fields.map (·.name)).Nodup ∧
      schema.additionalProperties = schema'.additionalProperties) ∧
    (bsonSchemaValidator schema ⟨false, ""⟩).isOk = (bsonSchemaValidator schema' ⟨false, ""⟩).isOk ∧
      ∀ J J', bsonSchemaValidator schema ⟨false, ""⟩ = .ok J → bsonSchemaValidator schema' ⟨false, ""⟩ = .ok J' →
        J.SameValidation J' := by
  intro host port schema schema'
  have hperm : schema.fields.Perm schema'.fields := .swap port host []
  exact ⟨⟨hperm, by decide, rfl⟩, bsonSchemaValidator_reorder _ hperm (by decide) rfl⟩

end Etre.Ddl
