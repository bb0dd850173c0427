import Etre.Ddl.Config

/-! The regular expressions the validator hands to the database as `pattern`s.

    MongoDB matches a `pattern` with PCRE. This module models the part of PCRE the three patterns of the DDL
    code use: literals, bracket classes with ranges, `\d` and `\W` (in PCRE's default, ASCII, sense), groups,
    alternation, `?`, `+`, `*`, `{n}` and `{n,m}`, anchored by `^` and `$`, where `$` matches at the very end
    or just before a final newline. `compile` parses the pattern text the code carries, so every statement
    about a pattern is about the constant in the source. Matching is a decidable function: `seq` tries every
    split, and `star` takes non-empty pieces with the input's length as fuel. -/

namespace Etre.Ddl

/-- One item of a bracket class. -/
inductive ClassItem where
  | char (c : Char)
  | range (lo hi : Char)
  | digit
  | nonWord
  deriving DecidableEq, Repr

/-- Whether a character is in an item; `\W` is everything outside `[A-Za-z0-9_]`. -/
def ClassItem.matches : ClassItem → Char → Bool
  | .char c, x => x == c
  | .range lo hi, x => lo ≤ x && x ≤ hi
  | .digit, x => '0' ≤ x && x ≤ '9'
  | .nonWord, x => !(x.isAlphanum || x == '_')

/-- Whether a character is in a bracket class. -/
def classMatches (items : List ClassItem) (c : Char) : Bool := items.any (·.matches c)

/-- A regular expression. -/
inductive Re where
  | eps
  | cls (items : List ClassItem)
  | seq (a b : Re)
  | alt (a b : Re)
  | star (a : Re)
  deriving DecidableEq, Repr

namespace Re

/-- `c`. -/
def lit (c : Char) : Re := cls [.char c]

/-- `a?`. -/
def opt (a : Re) : Re := alt eps a

/-- `a+`. -/
def plus (a : Re) : Re := seq a (star a)

/-- `a{n}`. -/
def exactly (a : Re) : Nat → Re
  | 0 => eps
  | n + 1 => seq a (exactly a n)

/-- `a{0,n}`. -/
def upTo (a : Re) : Nat → Re
  | 0 => eps
  | n + 1 => opt (seq a (upTo a n))

/-- `a{n,m}`. -/
def between (a : Re) (n m : Nat) : Re := seq (exactly a n) (upTo a (m - n))

end Re

/-! ### Matching -/

/-- Every way to cut `s` in two. -/
def splits (s : List Char) : List (List Char × List Char) :=
  (List.range (s.length + 1)).map fun i => (s.take i, s.drop i)

/-- Kleene star over an acceptor: each round takes a non-empty first piece; `n` is fuel. -/
def starAccepts (f : List Char → Bool) : Nat → List Char → Bool
  | _, [] => true
  | 0, _ :: _ => false
  | n + 1, c :: cs => (List.range (cs.length + 1)).any fun i =>
      f ((c :: cs).take (i + 1)) && starAccepts f n ((c :: cs).drop (i + 1))

/-- Whether `r` matches the whole of `s`. -/
def Re.accepts : Re → List Char → Bool
  | .eps, s => s.isEmpty
  | .cls items, s => match s with
    | [c] => classMatches items c
    | _ => false
  | .seq a b, s => (splits s).any fun p => a.accepts p.1 && b.accepts p.2
  | .alt a b, s => a.accepts s || b.accepts s
  | .star a, s => starAccepts (fun u => a.accepts u) s.length s

/-! ### Parsing the pattern text -/

/-- The item an escape `\c` stands for inside a class. -/
def escapeItem (c : Char) : ClassItem :=
  if c = 'd' then .digit else if c = 'W' then .nonWord else .char c

/-- The items of a bracket class up to its `]`. -/
def parseClass : List Char → Option (List ClassItem × List Char)
  | [] => none
  | ']' :: rest => some ([], rest)
  | '\\' :: c :: rest => (parseClass rest).map fun p => (escapeItem c :: p.1, p.2)
  | c :: '-' :: d :: rest =>
    if d = ']' then some ([.char c, .char '-'], rest)
    else (parseClass rest).map fun p => (.range c d :: p.1, p.2)
  | c :: rest => (parseClass rest).map fun p => (.char c :: p.1, p.2)

/-- The characters that cannot stand for themselves outside a class. -/
def special (c : Char) : Bool := "()[]{}|?+*.^$\\".data.contains c

/-- One atom: a group (parsed by `group`), a class, an escape or a literal. -/
def parseAtom (group : List Char → Option (Re × List Char)) : List Char → Option (Re × List Char)
  | '(' :: rest => match group rest with
    | some (r, ')' :: rest) => some (r, rest)
    | _ => none
  | '[' :: rest => (parseClass rest).map fun p => (.cls p.1, p.2)
  | '\\' :: c :: rest => some (.cls [escapeItem c], rest)
  | c :: rest => if special c then none else some (.lit c, rest)
  | [] => none

/-- The value of a run of decimal digits. -/
def digitsValue (ds : List Char) : Nat := ds.foldl (fun n c => 10 * n + (c.toNat - '0'.toNat)) 0

/-- The body of a `{n}` or `{n,m}` quantifier, after its `{`. -/
def parseBraces (s : List Char) : Option (Nat × Nat × List Char) :=
  let n := s.takeWhile Char.isDigit
  match s.dropWhile Char.isDigit with
  | '}' :: rest => if n.isEmpty then none else some (digitsValue n, digitsValue n, rest)
  | ',' :: rest =>
    let m := rest.takeWhile Char.isDigit
    match rest.dropWhile Char.isDigit with
    | '}' :: rest' => if n.isEmpty || m.isEmpty then none else some (digitsValue n, digitsValue m, rest')
    | _ => none
  | _ => none

/-- An optional quantifier after an atom. -/
def parseQuant (a : Re) : List Char → Option (Re × List Char)
  | '?' :: rest => some (.opt a, rest)
  | '+' :: rest => some (.plus a, rest)
  | '*' :: rest => some (.star a, rest)
  | '{' :: rest => (parseBraces rest).map fun p =>
      (if p.1 = p.2.1 then .exactly a p.1 else .between a p.1 p.2.1, p.2.2)
  | s => some (a, s)

/-- A concatenation, up to a `|`, a `)` or the end; `n` is fuel. -/
def parseSeq (group : List Char → Option (Re × List Char)) : Nat → List Char → Option (Re × List Char)
  | 0, _ => none
  | _ + 1, [] => some (.eps, [])
  | _ + 1, '|' :: rest => some (.eps, '|' :: rest)
  | _ + 1, ')' :: rest => some (.eps, ')' :: rest)
  | n + 1, s => do
    let (a, s) ← parseAtom group s
    let (a, s) ← parseQuant a s
    let (b, s) ← parseSeq group n s
    pure (if b = .eps then a else .seq a b, s)

/-- An alternation of concatenations; `n` is fuel. -/
def parseAlt : Nat → List Char → Option (Re × List Char)
  | 0, _ => none
  | n + 1, s => do
    let (a, s) ← parseSeq (parseAlt n) n s
    match s with
    | '|' :: rest => do
      let (b, rest) ← parseAlt n rest
      pure (.alt a b, rest)
    | _ => pure (a, s)

/-- The expression between `^` and `$` of an anchored pattern; `none` outside the supported syntax. -/
def compile (p : String) : Option Re :=
  match p.data with
  | '^' :: body =>
    if body.getLast? = some '$' then
      match parseAlt (body.length + 1) body.dropLast with
      | some (r, []) => some r
      | _ => none
    else none
  | _ => none

/-- Whether the database's regex engine matches `s` against the anchored pattern `p`. -/
def pcreMatch (p s : String) : Bool :=
  match compile p with
  | none => false
  | some r => r.accepts s.data || (s.data.getLast? == some '\n' && r.accepts s.data.dropLast)

/-! ### What each construct matches -/

namespace Re

variable {a b : Re} {s : List Char}

theorem mem_splits {s u v : List Char} : (u, v) ∈ splits s ↔ s = u ++ v := by
  simp only [splits, List.mem_map, List.mem_range, Prod.mk.injEq]
  constructor
  · rintro ⟨i, -, rfl, rfl⟩; simp
  · rintro rfl; exact ⟨u.length, by simp; omega, by simp, by simp⟩

@[simp] theorem accepts_eps : eps.accepts s = true ↔ s = [] := by
  simp [accepts]

@[simp] theorem accepts_cls {items : List ClassItem} :
    (cls items).accepts s = true ↔ ∃ c, s = [c] ∧ classMatches items c = true := by
  match s with
  | [] => simp [accepts]
  | [c] => simp [accepts]
  | _ :: _ :: _ => simp [accepts]

@[simp] theorem accepts_seq :
    (seq a b).accepts s = true ↔ ∃ u v, s = u ++ v ∧ a.accepts u = true ∧ b.accepts v = true := by
  simp only [accepts, List.any_eq_true, Bool.and_eq_true, Prod.exists]
  exact ⟨fun ⟨u, v, hm, h⟩ => ⟨u, v, mem_splits.mp hm, h⟩, fun ⟨u, v, he, h⟩ => ⟨u, v, mem_splits.mpr he, h⟩⟩

@[simp] theorem accepts_alt : (alt a b).accepts s = true ↔ a.accepts s = true ∨ b.accepts s = true := by
  simp [accepts]

/-- The fuelled star accepts exactly the concatenations of non-empty accepted pieces. -/
theorem starAccepts_iff (f : List Char → Bool) :
    ∀ (n : Nat) (s : List Char), s.length ≤ n →
      (starAccepts f n s = true ↔ ∃ l : List (List Char), s = l.flatten ∧ ∀ u ∈ l, u ≠ [] ∧ f u = true)
  | _, [], _ => by simp only [starAccepts, true_iff]; exact ⟨[], rfl, by simp⟩
  | 0, _ :: _, h => by simp at h
  | n + 1, c :: cs, h => by
    simp only [starAccepts, List.any_eq_true, List.mem_range, Bool.and_eq_true]
    constructor
    · rintro ⟨i, hi, hf, hr⟩
      obtain ⟨l, hl, hu⟩ := (starAccepts_iff f n _ (by simp at h ⊢; omega)).mp hr
      refine ⟨(c :: cs).take (i + 1) :: l, by rw [List.flatten_cons, ← hl, List.take_append_drop], ?_⟩
      simp only [List.mem_cons, forall_eq_or_imp]
      exact ⟨⟨by simp, hf⟩, hu⟩
    · rintro ⟨l, hl, hu⟩
      match l, hl, hu with
      | [], hl, _ => simp at hl
      | [] :: _, _, hu => exact absurd rfl (hu [] (by simp)).1
      | (x :: u) :: l, hl, hu =>
        simp only [List.flatten_cons, List.cons_append, List.cons.injEq] at hl
        obtain ⟨rfl, rfl⟩ := hl
        refine ⟨u.length, by simp; omega, ?_, ?_⟩
        · simpa [List.take_append_of_le_length] using (hu (c :: u) (by simp)).2
        · rw [show (c :: (u ++ l.flatten)).drop (u.length + 1) = l.flatten by simp]
          exact (starAccepts_iff f n _ (by simp at h ⊢; omega)).mpr
            ⟨l, rfl, fun v hv => hu v (by simp [hv])⟩

theorem accepts_star :
    (star a).accepts s = true ↔ ∃ l : List (List Char), s = l.flatten ∧ ∀ u ∈ l, u ≠ [] ∧ a.accepts u = true :=
  starAccepts_iff _ _ s le_rfl

theorem accepts_cls_cons {items : List ClassItem} {c : Char} :
    (cls items).accepts (c :: s) = true ↔ classMatches items c = true ∧ s = [] := by
  rw [accepts_cls]
  constructor
  · rintro ⟨x, h, hx⟩
    obtain ⟨rfl, rfl⟩ := List.cons.inj h
    exact ⟨hx, rfl⟩
  · rintro ⟨hc, rfl⟩
    exact ⟨c, rfl, hc⟩

/-- A class in front consumes exactly the first character. -/
theorem accepts_seq_cls_cons {items : List ClassItem} {c : Char} :
    (seq (cls items) b).accepts (c :: s) = true ↔ classMatches items c = true ∧ b.accepts s = true := by
  simp only [accepts_seq, accepts_cls]
  constructor
  · rintro ⟨u, v, h, ⟨x, rfl, hx⟩, hv⟩
    simp only [List.singleton_append, List.cons.injEq] at h
    obtain ⟨rfl, rfl⟩ := h
    exact ⟨hx, hv⟩
  · rintro ⟨hc, hs⟩
    exact ⟨[c], s, rfl, ⟨c, rfl, hc⟩, hs⟩

@[simp] theorem accepts_seq_cls_nil {items : List ClassItem} : (seq (cls items) b).accepts [] = false := by
  rw [← Bool.not_eq_true, accepts_seq]
  rintro ⟨u, v, h, hu, -⟩
  obtain ⟨x, rfl, -⟩ := accepts_cls.mp hu
  simp at h

@[simp] theorem accepts_seq_eps : (seq eps b).accepts s = b.accepts s := by
  rw [Bool.eq_iff_iff, accepts_seq]
  exact ⟨fun ⟨u, v, h, hu, hv⟩ => by simp_all, fun h => ⟨[], s, rfl, by simp, h⟩⟩

@[simp] theorem accepts_opt : (opt a).accepts s = true ↔ s = [] ∨ a.accepts s = true := by
  simp [opt]

variable {items : List ClassItem}

/-- A starred class accepts exactly the strings made of its characters. -/
theorem accepts_star_cls : (star (cls items)).accepts s = true ↔ ∀ c ∈ s, classMatches items c = true := by
  rw [accepts_star]
  constructor
  · rintro ⟨l, rfl, hl⟩ c hc
    obtain ⟨u, hu, hcu⟩ := List.mem_flatten.mp hc
    obtain ⟨x, rfl, hx⟩ := accepts_cls.mp (hl u hu).2
    simpa [List.mem_singleton.mp hcu] using hx
  · intro h
    exact ⟨s.map fun c => [c], by rw [← List.flatMap_def, List.flatMap_singleton'], by simpa using h⟩

theorem accepts_plus_cls :
    (plus (cls items)).accepts s = true ↔ s ≠ [] ∧ ∀ c ∈ s, classMatches items c = true := by
  simp only [plus, accepts_seq, accepts_cls, accepts_star_cls]
  constructor
  · rintro ⟨u, v, rfl, ⟨c, rfl, hc⟩, hv⟩
    exact ⟨by simp, List.forall_mem_cons.mpr ⟨hc, hv⟩⟩
  · rintro ⟨hne, h⟩
    obtain ⟨c, v, rfl⟩ := List.exists_cons_of_ne_nil hne
    exact ⟨[c], v, rfl, ⟨c, rfl, h c (by simp)⟩, fun x hx => h x (by simp [hx])⟩

theorem accepts_exactly_cls : ∀ {n : Nat} {s : List Char},
    (exactly (cls items) n).accepts s = true ↔ s.length = n ∧ ∀ c ∈ s, classMatches items c = true
  | 0, s => by
    simp only [exactly, accepts_eps]
    exact ⟨by rintro rfl; simp, fun h => List.eq_nil_of_length_eq_zero h.1⟩
  | n + 1, s => by
    simp only [exactly, accepts_seq, accepts_cls, accepts_exactly_cls]
    constructor
    · rintro ⟨u, v, rfl, ⟨c, rfl, hc⟩, hv, hall⟩
      exact ⟨by simp [hv], List.forall_mem_cons.mpr ⟨hc, hall⟩⟩
    · rintro ⟨hlen, h⟩
      obtain ⟨c, v, rfl⟩ := List.exists_cons_of_ne_nil (List.ne_nil_of_length_pos (show 0 < s.length by omega))
      exact ⟨[c], v, rfl, ⟨c, rfl, h c (by simp)⟩, by simpa using hlen, fun x hx => h x (by simp [hx])⟩

theorem accepts_upTo_cls : ∀ {n : Nat} {s : List Char},
    (upTo (cls items) n).accepts s = true ↔ s.length ≤ n ∧ ∀ c ∈ s, classMatches items c = true
  | 0, s => by
    simp only [upTo, accepts_eps, Nat.le_zero, List.length_eq_zero]
    exact ⟨by rintro rfl; simp, And.left⟩
  | n + 1, s => by
    simp only [upTo, accepts_opt, accepts_seq, accepts_cls, accepts_upTo_cls]
    constructor
    · rintro (rfl | ⟨u, v, rfl, ⟨c, rfl, hc⟩, hv, hall⟩)
      · simp
      · exact ⟨by simp; omega, List.forall_mem_cons.mpr ⟨hc, hall⟩⟩
    · rintro ⟨hlen, h⟩
      rcases s with _ | ⟨c, v⟩
      · exact .inl rfl
      · exact .inr ⟨[c], v, rfl, ⟨c, rfl, h c (by simp)⟩, by simpa using hlen,
          fun x hx => h x (by simp [hx])⟩

end Re

end Etre.Ddl
