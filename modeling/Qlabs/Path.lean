import Mathlib.Data.Bool.AllAny
import Qlabs.Bytes

/-!
# POSIX paths

A path is a byte string whose components are separated by slashes. Lexically,
empty components and `.` stand for the directory they are in, and `..` for the
one above (`normalize`); a path starting with a slash is absolute, and above its
root there is nothing.

Where no component is `..`, the components of the end of a path are kept, in
order, by the normalisation (`foldl_follow`): such an end only goes down (`below_append`).
-/

namespace Qlabs.Path

/-- `/` -/
def separator : UInt8 := 47

/-- The components of a path, empty ones included. -/
def components (p : Bytes) : List Bytes := p.splitOn separator

def isAbsolute (p : Bytes) : Bool := p.head? == some separator

/-- A component that stands for the directory it is in. -/
def IsCurrent (c : Bytes) : Prop := c = [] ∨ c = bytes "."

instance (c : Bytes) : Decidable (IsCurrent c) := inferInstanceAs (Decidable (_ ∨ _))

/-- Following the component `c` from the directory reached so far, whose
    components are stacked, the last one on top. -/
def follow (absolute : Bool) (stack : List Bytes) (c : Bytes) : List Bytes :=
  if IsCurrent c then stack
  else if c = bytes ".." then
    match stack with
    | [] => if absolute then [] else [c]
    | d :: rest => if d = bytes ".." then c :: stack else rest
  else c :: stack

/-- The lexical normalisation of a path: whether it is absolute, and its
    components once the empty ones, `.` and `..` are resolved. -/
def normalize (p : Bytes) : Bool × List Bytes :=
  (isAbsolute p, ((components p).foldl (follow (isAbsolute p)) []).reverse)

/-- The path `p` is in the directory `dir`, or below, lexically. -/
def Below (dir p : Bytes) : Prop :=
  (normalize dir).1 = (normalize p).1 ∧ (normalize dir).2 <+: (normalize p).2

/-- What `base::FilePath::ReferencesParent` calls a reference to the parent: a
    component of dots and whitespace only, with two dots in a row. -/
def IsParentReference (c : Bytes) : Prop :=
  (∀ b ∈ c, b ∈ bytes ". \n\r\t") ∧ bytes ".." <:+: c

theorem isParentReference_dotdot : IsParentReference (bytes "..") :=
  ⟨List.all_iff_forall_prop.1 (by decide), List.infix_rfl⟩

theorem components_append (p q : Bytes) :
    components (p ++ separator :: q) = components p ++ components q :=
  List.splitOn_append_cons_self _ _

@[simp] theorem isAbsolute_append {p : Bytes} (hp : p ≠ []) (q : Bytes) :
    isAbsolute (p ++ q) = isAbsolute p := by
  cases p with
  | nil => exact absurd rfl hp
  | cons b p => rfl

theorem follow_of_isCurrent {absolute : Bool} {stack : List Bytes} {c : Bytes}
    (hc : IsCurrent c) : follow absolute stack c = stack :=
  if_pos hc

/-- Going down only: without `..`, the components are stacked as they come. -/
theorem foldl_follow {absolute : Bool} {cs : List Bytes} (hcs : bytes ".." ∉ cs)
    (stack : List Bytes) :
    cs.foldl (follow absolute) stack = (cs.filter (¬IsCurrent ·)).reverse ++ stack := by
  induction cs generalizing stack with
  | nil => rfl
  | cons c cs ih =>
    rw [List.mem_cons, not_or] at hcs
    rw [List.foldl_cons, ih hcs.2]
    by_cases hc : IsCurrent c
    · simp [follow_of_isCurrent hc, hc]
    · simp [follow, hc, Ne.symm hcs.1]

/-- A path that goes on from a directory without `..` is below it. -/
theorem below_append {p q : Bytes} (hp : p ≠ []) (hq : bytes ".." ∉ components q) :
    Below p (p ++ separator :: q) := by
  refine ⟨(isAbsolute_append hp _).symm, ?_⟩
  rw [normalize, normalize, isAbsolute_append hp, components_append, List.foldl_append,
    foldl_follow hq, List.reverse_append, List.reverse_reverse]
  exact List.prefix_append _ _

/-- A doubled separator counts once. -/
theorem normalize_double (p q : Bytes) :
    normalize (p ++ separator :: separator :: q) = normalize (p ++ separator :: q) := by
  have hc : components (separator :: q) = [] :: components q := components_append [] q
  have ha : isAbsolute (p ++ separator :: separator :: q) = isAbsolute (p ++ separator :: q) := by
    cases p <;> rfl
  simp only [normalize, ha, components_append, hc, List.foldl_append, List.foldl_cons,
    follow_of_isCurrent (.inl rfl)]

/-- Trailing separators do not matter where a path goes on. -/
theorem normalize_trailing (p q : Bytes) (n : ℕ) :
    normalize (p ++ List.replicate n separator ++ separator :: q) =
      normalize (p ++ separator :: q) := by
  induction n with
  | zero => rw [List.replicate_zero, List.append_nil]
  | succ n ih =>
    rw [List.replicate_succ', ← List.append_assoc, List.append_assoc _ [separator],
      List.singleton_append, normalize_double, ih]

end Qlabs.Path
