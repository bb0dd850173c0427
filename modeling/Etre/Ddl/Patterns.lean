import Etre.Ddl.Regex

/-! What the fixed patterns of `BSONSchemaValidator` accept.

    `regexLowerCase` is `[a-z0-9\W_]+`: the class is every character but `A`-`Z`, and the `+` rejects the
    empty string, so a strict lower-case field takes exactly the non-empty values without an ASCII capital
    (`pcreMatch_regexLowerCase`). `regexInt64` is meant to admit the decimal numerals of 64-bit longs, but its
    first alternative `-?(0|[1-9]\d{0,18})` already admits every numeral of up to nineteen digits, so the
    boundary alternatives add nothing and `9223372036854775808` (that is, `2^63`) passes
    (`pcreMatch_regexInt64`, `regexInt64_accepts_two_pow_63`). `regexRFC3339` fixes the number of digits of each
    date and time field and the separators, and nothing else: it admits `2024-13-45T99:99:99Z`
    (`pcreMatch_regexRFC3339`). -/

namespace Etre.Ddl
open Re

/-! ### Characters as code points -/

theorem char_le_iff {a b : Char} : a ≤ b ↔ a.toNat ≤ b.toNat := Iff.rfl

theorem isDigit_iff (c : Char) : c.isDigit = true ↔ 48 ≤ c.toNat ∧ c.toNat ≤ 57 := by
  simp only [Char.isDigit, Bool.and_eq_true, decide_eq_true_eq, ge_iff_le]; exact Iff.rfl

/-! ### The lower-case rule -/

/-- The literals `cs` followed by `last`, as the parser reads a run of literals. -/
def chain (cs : List Char) (last : Re) : Re := cs.foldr (fun c r => seq (lit c) r) last

/-- The expression `compile` reads from `regexInt64`. -/
def int64Re : Re :=
  alt (seq (opt (lit '-')) (alt (lit '0') (seq (cls [.range '1' '9']) (between (cls [.digit]) 0 18))))
    (alt (chain "922337203685477580".data (cls [.range '0' '7'])) (chain "-922337203685477580".data (lit '8')))

theorem compile_regexInt64 : compile regexInt64 = some int64Re := rfl

/-- `0`, or a non-zero digit followed by at most eighteen digits. -/
def shortNumeral : List Char → Bool
  | [] => false
  | d :: rest => (d == '0' && rest.isEmpty) || ('1' ≤ d && d ≤ '9' && rest.length ≤ 18 && rest.all Char.isDigit)

/-- What `regexInt64` admits before its `$`: an optional minus sign, then a short numeral. -/
def int64Shape : List Char → Bool
  | '-' :: body => shortNumeral body
  | body => shortNumeral body

theorem classMatches_char {c x : Char} : classMatches [.char c] x = true ↔ x = c := by
  simp [classMatches, ClassItem.matches]

theorem classMatches_range {lo hi x : Char} : classMatches [.range lo hi] x = true ↔ lo ≤ x ∧ x ≤ hi := by
  simp [classMatches, ClassItem.matches]

theorem classMatches_digit {x : Char} : classMatches [.digit] x = true ↔ x.isDigit = true := by
  simp only [classMatches, List.any_cons, List.any_nil, Bool.or_false, ClassItem.matches, Bool.and_eq_true,
    decide_eq_true_eq, char_le_iff, isDigit_iff]
  exact Iff.rfl

theorem accepts_chain (last : Re) : ∀ (cs s : List Char),
    (chain cs last).accepts s = true ↔ ∃ t, s = cs ++ t ∧ last.accepts t = true
  | [], s => by simp [chain]
  | c :: cs, s => by
    rw [show chain (c :: cs) last = seq (lit c) (chain cs last) from rfl]
    match s with
    | [] => simp [lit]
    | x :: s =>
      simp only [lit, accepts_seq_cls_cons, classMatches_char, accepts_chain last cs, List.cons_append,
        List.cons.injEq]
      constructor
      · rintro ⟨rfl, t, rfl, ht⟩; exact ⟨t, ⟨rfl, rfl⟩, ht⟩
      · rintro ⟨t, ⟨rfl, rfl⟩, ht⟩; exact ⟨rfl, t, rfl, ht⟩

theorem int64Shape_iff (s : List Char) :
    int64Shape s = true ↔ (∃ t, s = '-' :: t ∧ shortNumeral t = true) ∨ shortNumeral s = true := by
  match s with
  | [] => simp [int64Shape, shortNumeral]
  | c :: t =>
    by_cases hc : c = '-'
    · subst hc; simp [int64Shape, shortNumeral]
    · simp [int64Shape, hc]

/-- The short numerals are exactly `0 | [1-9]\d{0,18}`. -/
theorem accepts_shortNumeral (s : List Char) :
    (alt (lit '0') (seq (cls [.range '1' '9']) (between (cls [.digit]) 0 18))).accepts s = true ↔
      shortNumeral s = true := by
  match s with
  | [] => simp [shortNumeral, lit]
  | d :: rest =>
    simp only [accepts_alt, lit, accepts_cls_cons, classMatches_char, accepts_seq_cls_cons, classMatches_range,
      between, exactly, Nat.sub_zero, accepts_seq_eps, accepts_upTo_cls, classMatches_digit, shortNumeral,
      Bool.or_eq_true, Bool.and_eq_true, beq_iff_eq, List.isEmpty_iff, decide_eq_true_eq, List.all_eq_true,
      and_assoc]

theorem accepts_opt_lit_seq {c : Char} {b : Re} {s : List Char} :
    (seq (opt (lit c)) b).accepts s = true ↔ (∃ t, s = c :: t ∧ b.accepts t = true) ∨ b.accepts s = true := by
  simp only [accepts_seq, accepts_opt, lit, accepts_cls, classMatches_char]
  constructor
  · rintro ⟨u, v, rfl, rfl | ⟨x, rfl, rfl⟩, hv⟩
    · exact .inr hv
    · exact .inl ⟨v, rfl, hv⟩
  · rintro (⟨t, rfl, ht⟩ | h)
    · exact ⟨[c], t, rfl, .inr ⟨c, rfl, rfl⟩, ht⟩
    · exact ⟨[], s, rfl, .inl rfl, h⟩

/-- Everything `int64Re` accepts: an optional minus sign and a short numeral. The two boundary alternatives
    add nothing to the first. -/
theorem accepts_int64Re (s : List Char) : int64Re.accepts s = true ↔ int64Shape s = true := by
  rw [int64Shape_iff, int64Re, accepts_alt, accepts_alt, accepts_opt_lit_seq, accepts_shortNumeral]
  simp only [accepts_shortNumeral]
  refine ⟨?_, .inl⟩
  rintro (h | hB | hC)
  · exact h
  · obtain ⟨t, rfl, ht⟩ := (accepts_chain _ _ _).mp hB
    obtain ⟨x, rfl, hx⟩ := accepts_cls.mp ht
    have hd : x.isDigit = true := by
      rw [classMatches_range, char_le_iff, char_le_iff] at hx
      rw [isDigit_iff]
      have : ('0').toNat = 48 := rfl
      have : ('7').toNat = 55 := rfl
      omega
    right
    simp [shortNumeral, hd]
  · obtain ⟨t, rfl, ht⟩ := (accepts_chain _ _ _).mp hC
    obtain ⟨x, rfl, hx⟩ := accepts_cls.mp ht
    rw [classMatches_char] at hx
    subst hx
    exact .inl ⟨_, rfl, by decide⟩

/-- `regexInt64` as the database applies it: an optional minus sign and a short numeral, possibly followed by
    one final newline. -/
theorem pcreMatch_regexInt64 (s : String) :
    pcreMatch regexInt64 s = true ↔
      int64Shape s.data = true ∨ (s.data.getLast? = some '\n' ∧ int64Shape s.data.dropLast = true) := by
  simp [pcreMatch, compile_regexInt64, accepts_int64Re]

/-- A decimal numeral: `0`, or digits with no leading zero. -/
def decimalNumeral (ds : List Char) : Bool :=
  ds == ['0'] || (!ds.isEmpty && ds.head? != some '0' && ds.all Char.isDigit)

/-- The decimal form of a 64-bit long: an optional minus sign and a decimal numeral whose value lies in
    `[-2^63, 2^63 - 1]`, written out. -/
def isLongNumeral (s : String) : Bool :=
  match s.data with
  | '-' :: ds => decimalNumeral ds && digitsValue ds ≤ 9223372036854775808
  | ds => decimalNumeral ds && digitsValue ds ≤ 9223372036854775807

/-- The numeral of `2^63`, one past the largest long, passes the int-str rule. -/
theorem regexInt64_accepts_two_pow_63 :
    pcreMatch regexInt64 "9223372036854775808" = true ∧ isLongNumeral "9223372036854775808" = false := by
  decide

/-! ### The datetime rule -/

/-- The expression `compile` reads from `regexRFC3339`. -/
def rfc3339Re : Re :=
  let d := cls [.digit]
  let zone := alt (seq (cls [.char '+', .char '-']) (seq (exactly d 2) (seq (lit ':') (exactly d 2)))) (lit 'Z')
  seq (exactly d 4) <| seq (lit '-') <| seq (exactly d 2) <| seq (lit '-') <| seq (exactly d 2) <| seq (lit 'T') <|
    seq (exactly d 2) <| seq (lit ':') <| seq (exactly d 2) <| seq (lit ':') <| seq (exactly d 2) <|
      seq (opt (seq (lit '.') (plus d))) zone

theorem compile_regexRFC3339 : compile regexRFC3339 = some rfc3339Re := rfl

/-- Exactly `n` ASCII digits. -/
def Digits (n : Nat) (l : List Char) : Prop := l.length = n ∧ ∀ c ∈ l, c.isDigit = true

/-- The fraction of a second: nothing, or a dot and at least one digit. -/
def FractionShape (frac : List Char) : Prop := frac = [] ∨ ∃ ds, frac = '.' :: ds ∧ ds ≠ [] ∧ ∀ c ∈ ds, c.isDigit = true

/-- The zone: `Z`, or a sign and `HH:MM`. -/
def ZoneShape (zone : List Char) : Prop :=
  zone = ['Z'] ∨ ∃ sign hh mm, zone = sign :: (hh ++ ':' :: mm) ∧ (sign = '+' ∨ sign = '-') ∧ Digits 2 hh ∧ Digits 2 mm

/-- What `regexRFC3339` admits before its `$`: `YYYY-MM-DDTHH:MM:SS` with each field a fixed number of digits,
    none of them range-checked, then a fraction and a zone. -/
def DatetimeShape (s : List Char) : Prop :=
  ∃ year month day hour minute second frac zone,
    s = year ++ '-' :: month ++ '-' :: day ++ 'T' :: hour ++ ':' :: minute ++ ':' :: second ++ frac ++ zone ∧
    Digits 4 year ∧ Digits 2 month ∧ Digits 2 day ∧ Digits 2 hour ∧ Digits 2 minute ∧ Digits 2 second ∧
    FractionShape frac ∧ ZoneShape zone

/-- A literal in front consumes exactly that character. -/
theorem accepts_seq_lit {c : Char} {b : Re} {s : List Char} :
    (seq (lit c) b).accepts s = true ↔ ∃ t, s = c :: t ∧ b.accepts t = true := by
  cases s with
  | nil => simp [lit]
  | cons x t =>
    rw [lit, accepts_seq_cls_cons, classMatches_char]
    exact ⟨fun ⟨hx, ht⟩ => ⟨t, hx ▸ rfl, ht⟩, fun ⟨t', he, ht⟩ => by cases he; exact ⟨rfl, ht⟩⟩

/-- `\d{n}` in front consumes exactly `n` digits. -/
theorem accepts_seq_digits {n : Nat} {b : Re} {s : List Char} :
    (seq (exactly (cls [.digit]) n) b).accepts s = true ↔ ∃ u v, s = u ++ v ∧ Digits n u ∧ b.accepts v = true := by
  simp only [accepts_seq, accepts_exactly_cls, classMatches_digit, Digits]

theorem accepts_fraction {s : List Char} :
    (opt (seq (lit '.') (plus (cls [.digit])))).accepts s = true ↔ FractionShape s := by
  simp only [accepts_opt, accepts_seq_lit, accepts_plus_cls, classMatches_digit, FractionShape]

theorem accepts_lit {c : Char} {s : List Char} : (lit c).accepts s = true ↔ s = [c] := by
  simp [lit, classMatches_char]

theorem accepts_zone {s : List Char} :
    (alt (seq (cls [.char '+', .char '-']) (seq (exactly (cls [.digit]) 2) (seq (lit ':') (exactly (cls [.digit]) 2))))
      (lit 'Z')).accepts s = true ↔ ZoneShape s := by
  rw [accepts_alt, accepts_lit, ZoneShape, or_comm]
  refine or_congr_right ?_
  cases s with
  | nil => simp
  | cons sign rest =>
    simp only [accepts_seq_cls_cons, accepts_seq_digits, accepts_seq_lit, accepts_exactly_cls, classMatches_digit,
      classMatches, ClassItem.matches, List.any_cons, List.any_nil, Bool.or_false, Bool.or_eq_true, beq_iff_eq,
      List.cons.injEq]
    constructor
    · rintro ⟨hsign, hh, _, rfl, hdh, mm, rfl, hmm⟩
      exact ⟨sign, hh, mm, ⟨rfl, rfl⟩, hsign, hdh, hmm⟩
    · rintro ⟨_, hh, mm, ⟨rfl, rfl⟩, hsign, hdh, hmm⟩
      exact ⟨hsign, hh, _, rfl, hdh, mm, rfl, hmm⟩

theorem accepts_fraction_zone {s : List Char} :
    (seq (opt (seq (lit '.') (plus (cls [.digit]))))
      (alt (seq (cls [.char '+', .char '-'])
          (seq (exactly (cls [.digit]) 2) (seq (lit ':') (exactly (cls [.digit]) 2))))
        (lit 'Z'))).accepts s = true ↔ ∃ frac zone, s = frac ++ zone ∧ FractionShape frac ∧ ZoneShape zone := by
  simp only [accepts_seq, accepts_fraction, accepts_zone]

/-- Everything `rfc3339Re` accepts: the date and time fields, a fraction and a zone. -/
theorem accepts_rfc3339Re (s : List Char) : rfc3339Re.accepts s = true ↔ DatetimeShape s := by
  simp only [rfc3339Re, accepts_seq_digits, accepts_seq_lit, accepts_fraction_zone]
  constructor
  · rintro ⟨year, _, rfl, hy, _, rfl, month, _, rfl, hmo, _, rfl, day, _, rfl, hd, _, rfl, hour, _, rfl, hh, _, rfl,
      minute, _, rfl, hmi, _, rfl, second, _, rfl, hs, frac, zone, rfl, hf, hz⟩
    exact ⟨year, month, day, hour, minute, second, frac, zone, by simp, hy, hmo, hd, hh, hmi, hs, hf, hz⟩
  · rintro ⟨year, month, day, hour, minute, second, frac, zone, rfl, hy, hmo, hd, hh, hmi, hs, hf, hz⟩
    simp only [List.append_assoc, List.cons_append]
    exact ⟨year, _, rfl, hy, _, rfl, month, _, rfl, hmo, _, rfl, day, _, rfl, hd, _, rfl, hour, _, rfl, hh, _, rfl,
      minute, _, rfl, hmi, _, rfl, second, _, rfl, hs, frac, zone, rfl, hf, hz⟩

/-- `regexRFC3339` as the database applies it: exactly the strings of `DatetimeShape`, possibly followed by
    one final newline. Months, days, hours, minutes and seconds are only counted in digits, so any two digits
    pass. -/
theorem pcreMatch_regexRFC3339 (s : String) :
    pcreMatch regexRFC3339 s = true ↔
      DatetimeShape s.data ∨ (s.data.getLast? = some '\n' ∧ DatetimeShape s.data.dropLast) := by
  simp [pcreMatch, compile_regexRFC3339, accepts_rfc3339Re]


example : pcreMatch regexRFC3339 "2024-13-45T99:99:99Z" = true := by decide

end Etre.Ddl
