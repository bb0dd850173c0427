import Mathlib.Data.List.Infix
import Mathlib.Data.List.Basic

/-! The pieces of the Go runtime that the modelled code leans on.

    Errors are values of `github.com/pkg/errors`: `Error()` prints the whole wrapped text and `Cause()` returns
    the innermost error, which is what `updateMongoIndexes` inspects. A Go `map[string]T` is read only by key and
    by size, so it is an association list whose keys stay distinct. `strings.Contains` and `strings.HasPrefix`
    are the list relations on the characters of the two strings. -/

namespace Etre.Go

/-- Results are compared by value, so that runs on fixed inputs can be checked by `decide`. -/
instance instDecidableEqExcept {ε α : Type} [DecidableEq ε] [DecidableEq α] : DecidableEq (Except ε α)
  | .ok a, .ok b => decidable_of_iff (a = b) ⟨congrArg _, Except.ok.inj⟩
  | .error a, .error b => decidable_of_iff (a = b) ⟨congrArg _, Except.error.inj⟩
  | .ok _, .error _ => isFalse Except.noConfusion
  | .error _, .ok _ => isFalse Except.noConfusion

@[simp] theorem isOk_ok {ε α : Type} (a : α) : (Except.ok a : Except ε α).isOk = true := rfl

@[simp] theorem isOk_error {ε α : Type} (e : ε) : (Except.error e : Except ε α).isOk = false := rfl

/-- An error value: its text (`Error()`) and the text of its cause (`errors.Cause(err).Error()`). -/
structure GoError where
  msg : String
  cause : String
  deriving DecidableEq, Repr

/-- `errors.New(s)` and `fmt.Errorf(...)`: a fresh error is its own cause. -/
def GoError.new (s : String) : GoError := ⟨s, s⟩

/-- `errors.Wrapf(err, ctx)` on a non-nil error: the text gains a prefix, the cause is kept. -/
def GoError.wrap (e : GoError) (ctx : String) : GoError := ⟨ctx ++ ": " ++ e.msg, e.cause⟩

/-- `errors.Wrapf(err, ctx)` on a possibly nil error: wrapping nil gives nil. -/
def wrapf : Except GoError Unit → String → Except GoError Unit
  | .ok (), _ => .ok ()
  | .error e, ctx => .error (e.wrap ctx)

@[simp] theorem GoError.wrap_cause (e : GoError) (ctx : String) : (e.wrap ctx).cause = e.cause := rfl

@[simp] theorem GoError.new_cause (s : String) : (GoError.new s).cause = s := rfl

/-- `strings.Contains(s, sub)`. -/
def contains (s sub : String) : Bool := decide (sub.data <:+: s.data)

/-- `strings.HasPrefix(s, pre)`. -/
def hasPrefix (s pre : String) : Bool := pre.data.isPrefixOf s.data

/-- `fmt.Sprintf("%v", xs)` for a slice of strings: `[a b c]`. -/
def sliceString (xs : List String) : String := "[" ++ " ".intercalate xs ++ "]"

/-- `fmt.Sprintf("%q", s)` for a printable string: the string in double quotes (Go would also escape quotes,
    backslashes and non-printable characters inside it). -/
def quote (s : String) : String := "\"" ++ s ++ "\""

/-- A Go `map[string]T`, kept as an association list with distinct keys. -/
structure GoMap (α : Type) where
  entries : List (String × α)
  deriving DecidableEq, Repr

namespace GoMap

variable {α : Type}

/-- The empty map, `make(map[string]T)`. -/
def empty : GoMap α := ⟨[]⟩

/-- `m[k]` with its `ok` flag. -/
def get? (m : GoMap α) (k : String) : Option α := (m.entries.find? (·.1 == k)).map (·.2)

/-- `m[k] = v`: the old entry for `k`, if any, is replaced. -/
def set (m : GoMap α) (k : String) (v : α) : GoMap α := ⟨(k, v) :: m.entries.filter (·.1 != k)⟩

/-- `len(m) > 0`. -/
def nonEmpty (m : GoMap α) : Bool := !m.entries.isEmpty

@[simp] theorem get?_empty (k : String) : (empty : GoMap α).get? k = none := rfl

theorem get?_set (m : GoMap α) (k k' : String) (v : α) :
    (m.set k v).get? k' = if k = k' then some v else m.get? k' := by
  by_cases h : k = k'
  · subst h; simp [get?, set]
  · have hkk : (k == k') = false := by simpa using h
    simp only [get?, set, List.find?_cons, hkk, h, if_false, List.find?_filter]
    congr 2
    funext x
    by_cases hx : x.1 = k' <;> simp [hx, Ne.symm h]

@[simp] theorem get?_set_self (m : GoMap α) (k : String) (v : α) : (m.set k v).get? k = some v := by
  simp [get?_set]

@[simp] theorem nonEmpty_set (m : GoMap α) (k : String) (v : α) : (m.set k v).nonEmpty = true := rfl

@[simp] theorem nonEmpty_empty : (empty : GoMap α).nonEmpty = false := rfl

end GoMap

end Etre.Go
