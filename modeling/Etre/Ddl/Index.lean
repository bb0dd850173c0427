import Etre.Ddl.Config

/-! Index declarations: the up-front checks of `createIndex`, the generated name `indexName`, and the key
    document `toBSONIndex` sent with `CreateOne`.

    Reconciliation keeps and drops indexes by name alone, so the name has to identify the index MongoDB builds.
    The name is `prefix_keys[_directions]` joined with `_`, so it does so only when no key contains `_` and
    no key reads as a direction: `indexName_identifies` proves the name determines the key document and the
    two flags under that condition, and `indexName_collides` exhibits two valid indexes with one name.

    `toBSONIndex` reads `Direction[i]` for each key without a bound check; the length check of `createIndex`
    is what keeps it in range. `toBSONIndex_checked`: on a checked index it builds one `(key, direction)` pair
    per key in key order, each direction `1` or `-1`. -/

namespace Etre.Ddl
open Etre.Go

/-- The checks `createIndex` makes before it talks to the database, in the order it makes them. -/
def createIndexCheck (index : Index) : Except GoError Unit :=
  if index.keys.length = 0 then .error (errNoKeysForIndex.wrap ("index: " ++ index.toString))
  else if index.keys.length > 30 then .error (errTooManyKeysForIndex.wrap ("index: " ++ index.toString))
  else if index.direction.length > 0 ∧ index.keys.length ≠ index.direction.length then
    .error (errKeysAndDirectionsDoNotMatch.wrap ("index: " ++ index.toString))
  else if index.sparse ∧ index.unique then .error (errIndexSparseAndUnique.wrap ("index: " ++ index.toString))
  else if index.direction.any (fun d => d ≠ 1 ∧ d ≠ -1) then
    .error (errInvalidIndexDirection.wrap ("index: " ++ index.toString))
  else .ok ()

/-- `intSliceToString`: `strconv.Itoa` on each entry. -/
def intSliceToString (slice : List Int) : List String := slice.map ToString.toString

/-- `indexName`: `IL`, `SPARSE` or `SL`, then the keys, then the directions if any, all joined with `_`. -/
def indexName (index : Index) : String :=
  if index.keys.length = 0 then ""
  else
    let indexNamePrefix := if index.unique then "IL" else if index.sparse then "SPARSE" else "SL"
    if index.direction.length = 0 then indexNamePrefix ++ "_" ++ "_".intercalate index.keys
    else
      let direction := intSliceToString index.direction
      indexNamePrefix ++ "_" ++ "_".intercalate index.keys ++ "_" ++ "_".intercalate direction

/-- `toBSONIndex`: one `(key, direction)` pair per key; `none` is the panic of reading `Direction[i]` out of
    range. -/
def toBSONIndex (index : Index) : Option (List (String × Int)) :=
  if index.direction.length = 0 then some (index.keys.map fun key => (key, defaultIndexDirection))
  else index.keys.enum.mapM fun (i, key) => index.direction[i]?.map fun d => (key, d)

/-- What passing the checks means, field by field. -/
theorem createIndexCheck_ok_iff (index : Index) :
    createIndexCheck index = .ok () ↔
      0 < index.keys.length ∧ index.keys.length ≤ 30 ∧
      (index.direction = [] ∨ index.direction.length = index.keys.length) ∧
      ¬(index.sparse = true ∧ index.unique = true) ∧ ∀ d ∈ index.direction, d = 1 ∨ d = -1 := by
  unfold createIndexCheck
  split_ifs with h0 h30 hd hsu hany
  · simp [h0]
  · simp; omega
  · simp only [reduceCtorEq, false_iff]
    rintro ⟨-, -, hdl | hdl, -⟩
    · simp [hdl] at hd
    · exact hd.2 hdl.symm
  · simp [hsu]
  · simp only [List.any_eq_true] at hany
    obtain ⟨d, hd, hne⟩ := hany
    simp only [reduceCtorEq, false_iff]
    exact fun h => by rcases h.2.2.2.2 d hd with rfl | rfl <;> simp at hne
  · simp only [List.any_eq_true, not_exists, not_and, decide_eq_true_eq, not_not] at hany
    refine iff_of_true rfl ⟨by omega, by omega, ?_, hsu, fun d hd => ?_⟩
    · exact (em (index.direction = [])).imp_right fun hnil => by have := List.length_pos.mpr hnil; omega
    · exact (em (d = 1)).imp_right (hany d hd)

/-! ### The key document -/

/-- The loop of `toBSONIndex` over the keys from position `n`, while `Direction` reaches that far: each key
    paired with the direction at its position. -/
theorem mapM_enumFrom_direction (direction : List Int) : ∀ (keys : List String) (n : Nat),
    n + keys.length ≤ direction.length →
      (keys.enumFrom n).mapM (fun (i, key) => direction[i]?.map fun d => (key, d)) =
        some (keys.zip (direction.drop n))
  | [], _, _ => rfl
  | key :: keys, n, h => by
    have hn : n < direction.length := by simp only [List.length_cons] at h; omega
    simp only [List.enumFrom_cons, List.mapM_cons, List.getElem?_eq_getElem hn, Option.map_some',
      mapM_enumFrom_direction direction keys (n + 1) (by simp only [List.length_cons] at h; omega),
      List.drop_eq_getElem_cons hn, List.zip_cons_cons]
    rfl

/-- On a checked index `toBSONIndex` reads `Direction` only in range: it pairs the keys with `Direction`, or
    each key with the default direction `1` when there is none. -/
theorem toBSONIndex_of_check {index : Index} (h : createIndexCheck index = .ok ()) :
    toBSONIndex index = some (if index.direction = [] then index.keys.map fun key => (key, 1)
      else index.keys.zip index.direction) := by
  obtain ⟨-, -, hdir, -, -⟩ := (createIndexCheck_ok_iff index).mp h
  unfold toBSONIndex
  by_cases hd : index.direction = []
  · simp [hd, defaultIndexDirection]
  · rw [if_neg (by simpa using hd), if_neg hd, List.enum,
      mapM_enumFrom_direction _ _ 0 (by simp [hdir.resolve_left hd]), List.drop_zero]

/-- The two columns of the key document of a checked index: the keys, and `Direction` or a `1` per key. -/
theorem toBSONIndex_columns {index : Index} {doc : List (String × Int)} (h : createIndexCheck index = .ok ())
    (hdoc : toBSONIndex index = some doc) :
    doc.map Prod.fst = index.keys ∧
      doc.map Prod.snd = if index.direction = [] then List.replicate index.keys.length 1 else index.direction := by
  obtain ⟨-, -, hdir, -, -⟩ := (createIndexCheck_ok_iff index).mp h
  rw [toBSONIndex_of_check h, Option.some.injEq] at hdoc
  subst hdoc
  split_ifs with hd
  · simp [Function.comp_def]
  · have hlen := hdir.resolve_left hd
    exact ⟨List.map_fst_zip _ _ hlen.ge, List.map_snd_zip _ _ hlen.le⟩

theorem toBSONIndex_direction {index : Index} {doc : List (String × Int)} (h : createIndexCheck index = .ok ())
    (hdoc : toBSONIndex index = some doc) : ∀ p ∈ doc, p.2 = 1 ∨ p.2 = -1 := by
  obtain ⟨-, -, -, -, hvals⟩ := (createIndexCheck_ok_iff index).mp h
  intro p hp
  have hmem : p.2 ∈ doc.map Prod.snd := List.mem_map_of_mem _ hp
  rw [(toBSONIndex_columns h hdoc).2] at hmem
  split_ifs at hmem
  · exact .inl (List.eq_of_mem_replicate hmem)
  · exact hvals _ hmem

/-- For every index that passes `createIndex`'s checks, `toBSONIndex` does not panic, and its key document has
    one pair per key, in key order, with `Direction[k]` (or `1` when `Direction` is empty) as the `k`-th
    direction; so every direction sent with `CreateOne` is `1` or `-1`. -/
theorem toBSONIndex_checked (index : Index) (h : createIndexCheck index = .ok ()) :
    ∃ doc, toBSONIndex index = some doc ∧ doc.map Prod.fst = index.keys ∧
      doc.map Prod.snd = (if index.direction = [] then List.replicate index.keys.length 1 else index.direction) ∧
      ∀ p ∈ doc, p.2 = 1 ∨ p.2 = -1 :=
  have hdoc := toBSONIndex_of_check h
  ⟨_, hdoc, (toBSONIndex_columns h hdoc).1, (toBSONIndex_columns h hdoc).2, toBSONIndex_direction h hdoc⟩

/-- Two keys, one descending. -/
theorem toBSONIndex_checked_host_port :
    let index : Index := { keys := ["host", "port"], unique := false, direction := [1, -1], sparse := false }
    createIndexCheck index = .ok () ∧
      ∃ doc, toBSONIndex index = some doc ∧ doc.map Prod.fst = index.keys ∧
        doc.map Prod.snd = (if index.direction = [] then List.replicate index.keys.length 1 else index.direction) ∧
        ∀ p ∈ doc, p.2 = 1 ∨ p.2 = -1 :=
  ⟨by decide, toBSONIndex_checked _ (by decide)⟩

/-! ### The name as a join of segments -/

theorem intercalate_go_append (s : String) : ∀ (x y : String) (l : List String),
    String.intercalate.go (x ++ y) s l = x ++ String.intercalate.go y s l
  | x, y, [] => rfl
  | x, y, b :: l => by
    simp only [String.intercalate.go, String.append_assoc, intercalate_go_append s x _ l]

theorem string_intercalate_cons_cons (s a b : String) (l : List String) :
    s.intercalate (a :: b :: l) = a ++ s ++ s.intercalate (b :: l) := by
  simp only [String.intercalate, String.intercalate.go]
  rw [← intercalate_go_append]

theorem list_intercalate_cons_cons (sep a b : List Char) (l : List (List Char)) :
    sep.intercalate (a :: b :: l) = a ++ sep ++ sep.intercalate (b :: l) := by
  simp [List.intercalate, List.intersperse_cons_cons]

theorem list_intercalate_cons_of_ne_nil (x : Char) (a : List Char) {l : List (List Char)} (h : l ≠ []) :
    [x].intercalate (a :: l) = a ++ x :: [x].intercalate l := by
  obtain ⟨b, l, rfl⟩ := List.exists_cons_of_ne_nil h
  simp [list_intercalate_cons_cons]

/-- `strings.Join` on the characters: the list intercalation. -/
theorem intercalate_data (s : String) : ∀ l : List String,
    (s.intercalate l).data = s.data.intercalate (l.map String.data)
  | [] => rfl
  | [_] => by simp [String.intercalate, String.intercalate.go, List.intercalate]
  | a :: b :: l => by
    rw [string_intercalate_cons_cons, List.map_cons, List.map_cons, list_intercalate_cons_cons,
      String.data_append, String.data_append, intercalate_data s (b :: l), List.map_cons]

theorem intercalate_append_of_ne_nil (x : Char) : ∀ {l₁ l₂ : List (List Char)}, l₁ ≠ [] → l₂ ≠ [] →
    [x].intercalate (l₁ ++ l₂) = [x].intercalate l₁ ++ x :: [x].intercalate l₂
  | [a], _, _, h₂ => by
    rw [List.singleton_append, list_intercalate_cons_of_ne_nil _ _ h₂]; simp [List.intercalate]
  | a :: b :: l, l₂, _, h₂ => by
    rw [List.cons_append, list_intercalate_cons_of_ne_nil _ _ (by simp),
      intercalate_append_of_ne_nil x (List.cons_ne_nil b l) h₂, list_intercalate_cons_cons]
    simp

/-- The pieces `indexName` joins with `_`: the kind prefix, the keys, then the directions. -/
def nameSegments (index : Index) : List String :=
  (if index.unique then "IL" else if index.sparse then "SPARSE" else "SL") ::
    (index.keys ++ intSliceToString index.direction)

theorem indexName_data {index : Index} (h : index.keys ≠ []) :
    (indexName index).data = ['_'].intercalate ((nameSegments index).map String.data) := by
  have hk : index.keys.length ≠ 0 := by simpa using h
  have hkm : index.keys.map String.data ≠ [] := by simpa using h
  unfold indexName nameSegments
  rw [List.map_cons, list_intercalate_cons_of_ne_nil _ _ (by simp [h])]
  by_cases hd : index.direction.length = 0
  · have : index.direction = [] := List.eq_nil_of_length_eq_zero hd
    simp [hk, hd, this, intSliceToString, String.data_append, intercalate_data]
  · have hdm : (intSliceToString index.direction).map String.data ≠ [] := by
      simpa [intSliceToString] using hd
    simp [hk, hd, String.data_append, intercalate_data, intercalate_append_of_ne_nil _ hkm hdm]

/-! ### The name identifies the index -/

/-- A key the name carries unambiguously: it has no `_` and does not read as a direction. -/
def plainKey (k : String) : Prop := '_' ∉ k.data ∧ k ≠ "1" ∧ k ≠ "-1"

instance : DecidablePred plainKey := fun _ => inferInstanceAs (Decidable (_ ∧ _ ∧ _))

theorem direction_string {d : Int} (h : d = 1 ∨ d = -1) : toString d = "1" ∨ toString d = "-1" := by
  rcases h with rfl | rfl <;> decide

theorem underscore_not_mem_segments {index : Index} (hv : createIndexCheck index = .ok ())
    (hk : ∀ k ∈ index.keys, plainKey k) : ∀ seg ∈ nameSegments index, '_' ∉ seg.data := by
  have hdir := ((createIndexCheck_ok_iff index).mp hv).2.2.2.2
  intro seg hseg
  simp only [nameSegments, List.mem_cons, List.mem_append, intSliceToString, List.mem_map] at hseg
  rcases hseg with rfl | hkey | ⟨d, hd, rfl⟩
  · split_ifs <;> decide
  · exact (hk seg hkey).1
  · rcases direction_string (hdir d hd) with h | h <;> rw [h] <;> decide

/-- Splitting a checked index's name at `_` gives back its segments. -/
theorem splitOn_indexName {index : Index} (hv : createIndexCheck index = .ok ())
    (hk : ∀ k ∈ index.keys, plainKey k) :
    (indexName index).data.splitOn '_' = (nameSegments index).map String.data := by
  have hne : index.keys ≠ [] :=
    List.ne_nil_of_length_pos ((createIndexCheck_ok_iff index).mp hv).1
  rw [indexName_data hne, List.splitOn_intercalate]
  · simpa using underscore_not_mem_segments hv hk
  · simp [nameSegments]

/-- Keys that never read as directions are told apart from the directions that follow them. -/
theorem keys_directions_split {k₁ k₂ d₁ d₂ : List String}
    (hd₁ : d₁ = [] ∨ d₁.length = k₁.length) (hd₂ : d₂ = [] ∨ d₂.length = k₂.length)
    (hk₁ : ∀ k ∈ k₁, k ≠ "1" ∧ k ≠ "-1") (hk₂ : ∀ k ∈ k₂, k ≠ "1" ∧ k ≠ "-1")
    (hn₁ : ∀ d ∈ d₁, d = "1" ∨ d = "-1") (hn₂ : ∀ d ∈ d₂, d = "1" ∨ d = "-1")
    (h : k₁ ++ d₁ = k₂ ++ d₂) : k₁ = k₂ ∧ d₁ = d₂ := by
  have numeral_not_key : ∀ {k d : List String}, (∀ x ∈ k, x ≠ "1" ∧ x ≠ "-1") →
      (∀ x ∈ d, x = "1" ∨ x = "-1") → ∀ x ∈ d, x ∉ k := fun hk hd x hx hxk => by
    rcases hd x hx with rfl | rfl
    exacts [(hk _ hxk).1 rfl, (hk _ hxk).2 rfl]
  by_cases e₁ : d₁ = [] <;> by_cases e₂ : d₂ = []
  · subst e₁ e₂; simpa using h
  · obtain ⟨x, hx⟩ := List.exists_mem_of_ne_nil d₂ e₂
    subst e₁
    exact absurd (by rw [List.append_nil] at h; rw [h]; simp [hx]) (numeral_not_key hk₁ hn₂ x hx)
  · obtain ⟨x, hx⟩ := List.exists_mem_of_ne_nil d₁ e₁
    subst e₂
    exact absurd (by rw [List.append_nil] at h; rw [← h]; simp [hx]) (numeral_not_key hk₂ hn₁ x hx)
  · have hlen : k₁.length = k₂.length := by
      have := congrArg List.length h
      simp only [List.length_append, hd₁.resolve_left e₁, hd₂.resolve_left e₂] at this
      omega
    exact List.append_inj h hlen

theorem intSliceToString_inj : ∀ {d₁ d₂ : List Int}, (∀ d ∈ d₁, d = 1 ∨ d = -1) →
    (∀ d ∈ d₂, d = 1 ∨ d = -1) → intSliceToString d₁ = intSliceToString d₂ → d₁ = d₂
  | [], [], _, _, _ => rfl
  | [], _ :: _, _, _, h => by simp [intSliceToString] at h
  | _ :: _, [], _, _, h => by simp [intSliceToString] at h
  | a :: as, b :: bs, h₁, h₂, h => by
    simp only [intSliceToString, List.map_cons, List.cons.injEq] at h
    have hab : a = b := by
      rcases h₁ a (by simp) with rfl | rfl <;> rcases h₂ b (by simp) with rfl | rfl <;>
        first | rfl | exact absurd h.1 (by decide)
    exact hab ▸ congrArg _ (intSliceToString_inj (fun d hd => h₁ d (by simp [hd]))
      (fun d hd => h₂ d (by simp [hd])) h.2)

/-- The kind prefix determines both flags of an index that is not both sparse and unique. -/
theorem flags_of_prefix {u₁ s₁ u₂ s₂ : Bool} (h₁ : ¬(s₁ = true ∧ u₁ = true)) (h₂ : ¬(s₂ = true ∧ u₂ = true))
    (h : (if u₁ then "IL" else if s₁ then "SPARSE" else "SL") =
      (if u₂ then "IL" else if s₂ then "SPARSE" else "SL")) : u₁ = u₂ ∧ s₁ = s₂ := by
  cases u₁ <;> cases s₁ <;> cases u₂ <;> cases s₂ <;> simp_all

/-- For checked indexes whose keys have no `_` and do not read as directions, equal names mean the same key
    document and the same flags. -/
theorem indexName_identifies (i j : Index) (hi : createIndexCheck i = .ok ())
    (hj : createIndexCheck j = .ok ()) (hki : ∀ k ∈ i.keys, plainKey k) (hkj : ∀ k ∈ j.keys, plainKey k)
    (h : indexName i = indexName j) :
    toBSONIndex i = toBSONIndex j ∧ i.unique = j.unique ∧ i.sparse = j.sparse := by
  obtain ⟨-, -, hdi, hsui, hvi⟩ := (createIndexCheck_ok_iff i).mp hi
  obtain ⟨-, -, hdj, hsuj, hvj⟩ := (createIndexCheck_ok_iff j).mp hj
  have hseg : nameSegments i = nameSegments j := by
    have := congrArg (fun n : String => n.data.splitOn '_') h
    simp only [splitOn_indexName hi hki, splitOn_indexName hj hkj] at this
    exact List.map_injective_iff.mpr (fun _ _ => String.ext) this
  simp only [nameSegments, List.cons.injEq] at hseg
  obtain ⟨hu, hs⟩ := flags_of_prefix hsui hsuj hseg.1
  have numerals : ∀ {d : List Int}, (∀ x ∈ d, x = 1 ∨ x = -1) →
      ∀ x ∈ intSliceToString d, x = "1" ∨ x = "-1" := fun hv x hx => by
    obtain ⟨d, hd, rfl⟩ := List.mem_map.mp hx
    exact direction_string (hv d hd)
  obtain ⟨hkeys, hdirs⟩ := keys_directions_split
    (by rcases hdi with h | h <;> simp [intSliceToString, h])
    (by rcases hdj with h | h <;> simp [intSliceToString, h])
    (fun k hk => (hki k hk).2) (fun k hk => (hkj k hk).2) (numerals hvi) (numerals hvj) hseg.2
  have hdir := intSliceToString_inj hvi hvj hdirs
  exact ⟨by simp [toBSONIndex, hkeys, hdir], hu, hs⟩

/-- Two checked compound indexes with explicit directions and plain keys: the hypotheses hold, so the theorem
    applies. -/
theorem indexName_identifies_app_region :
    (createIndexCheck ⟨["app", "region"], false, [1, -1], false⟩ = .ok () ∧
      (∀ k ∈ ["app", "region"], plainKey k) ∧
      indexName ⟨["app", "region"], false, [1, -1], false⟩ = "SL_app_region_1_-1") ∧
    (toBSONIndex ⟨["app", "region"], false, [1, -1], false⟩ = toBSONIndex ⟨["app", "region"], false, [1, -1], false⟩ ∧
      (⟨["app", "region"], false, [1, -1], false⟩ : Index).unique = (⟨["app", "region"], false, [1, -1], false⟩ : Index).unique ∧
      (⟨["app", "region"], false, [1, -1], false⟩ : Index).sparse = (⟨["app", "region"], false, [1, -1], false⟩ : Index).sparse) :=
  have hv : createIndexCheck ⟨["app", "region"], false, [1, -1], false⟩ = .ok () :=
    (createIndexCheck_ok_iff _).mpr (by decide)
  ⟨⟨hv, by decide, by decide⟩,
    indexName_identifies ⟨["app", "region"], false, [1, -1], false⟩ ⟨["app", "region"], false, [1, -1], false⟩
      hv hv (by decide) (by decide) rfl⟩

/-- Two checked indexes, `[user_id]` and `[user, id]`, get one name but different key documents. -/
theorem indexName_collides :
    createIndexCheck ⟨["user_id"], false, [], false⟩ = .ok () ∧
    createIndexCheck ⟨["user", "id"], false, [], false⟩ = .ok () ∧
    indexName ⟨["user_id"], false, [], false⟩ = indexName ⟨["user", "id"], false, [], false⟩ ∧
    toBSONIndex ⟨["user_id"], false, [], false⟩ ≠ toBSONIndex ⟨["user", "id"], false, [], false⟩ :=
  ⟨rfl, rfl, by decide, by decide⟩

end Etre.Ddl
