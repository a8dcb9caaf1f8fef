import Mathlib

/-!
# Ragcore — Python values of JSON shape

The values `json.loads` produces, with the parts of Python's data model that programs over
them meet: type names, equality across the numeric types, hashing, ordering and `set`.

* **`PyFloat`** — a float is the rational it denotes or one of the special values. A NaN
  carries the identity of its object: Python containers compare by identity before `==`, so
  two references to one NaN are one set member and two NaN objects are two.
* **`HKey`** — a hashable value up to "same object or `==`", which is what dict keys, set
  members and `in` are compared by. `1`, `1.0` and `True` are one `HKey`; lists and dicts
  have none (`TypeError: unhashable`).
* **`Json.same` / `Json.eq`** — container comparison and `==`; they differ on NaN only.
* **`sortSet` / `sortKeys`** — `sorted` on a set; mixed types do not order.

A `dict` is the list of its fields; where a name repeats, its first field counts.
-/

namespace Ragcore

inductive PyFloat where
  | fin (q : ℚ)
  | inf
  | negInf
  | nan (obj : Nat)
  deriving DecidableEq, Repr

/-- A value as `json.load` builds it, with dicts that keep the order of their keys. -/
inductive Json where
  | null
  | bool (b : Bool)
  | int (n : Int)
  | float (x : PyFloat)
  | str (s : String)
  | list (xs : List Json)
  | dict (fields : List (String × Json))
  deriving Repr

/-- The entries of a dict under string keys. -/
abbrev Fields := List (String × Json)

/-! ## Exceptions

An exception is its class and its message. The message keeps apart the fixed texts of the source and
the values it interpolates, so that no text has to be rendered. -/

/-- The exception classes the engine and the standard library raise here. -/
inductive ErrKind where
  | typeError
  | valueError
  | keyError
  | attributeError
  | overflowError
  deriving DecidableEq, Repr

/-- A piece of an f-string: literal text, `{v}` or `{v!r}`. -/
inductive MsgPart where
  | text (s : String)
  | value (v : Json)
  | repr (v : Json)
  deriving Repr

instance : Coe String MsgPart := ⟨.text⟩

/-- An exception with its message, part by part. -/
structure PyErr where
  kind : ErrKind
  message : List MsgPart
  deriving Repr

namespace PyErr

def typeError (message : List MsgPart) : PyErr := ⟨.typeError, message⟩
def valueError (message : List MsgPart) : PyErr := ⟨.valueError, message⟩
def keyError (message : List MsgPart) : PyErr := ⟨.keyError, message⟩
def attributeError (message : List MsgPart) : PyErr := ⟨.attributeError, message⟩
def overflowError (message : List MsgPart) : PyErr := ⟨.overflowError, message⟩

@[simp] theorem typeError_kind (m : List MsgPart) : (typeError m).kind = .typeError := rfl
@[simp] theorem valueError_kind (m : List MsgPart) : (valueError m).kind = .valueError := rfl
@[simp] theorem keyError_kind (m : List MsgPart) : (keyError m).kind = .keyError := rfl

end PyErr

/-! ## Floats

A float is a rational, an infinity or a NaN. Sums and products are exact; where the rounding
matters, the kernel over the binary64 values is used instead. A NaN carries the object it came from,
since a Python set or dict compares by identity first. -/

namespace PyFloat

/-- Nearest integer, a tie going to the even neighbour. -/
def roundHalfEven (q : ℚ) : ℤ :=
  let below := ⌊q⌋
  let rest := q - below
  if rest < 1 / 2 then below
  else if 1 / 2 < rest then below + 1
  else if below % 2 = 0 then below else below + 1

/-- The IEEE double nearest to `q`: 53 significant bits, exponents from `-1074` to `971`. -/
def toDouble (q : ℚ) : PyFloat :=
  if q = 0 then .fin 0
  else
    let ulp : ℚ := 2 ^ max (Int.log 2 |q| - 52) (-1074)
    let r := roundHalfEven (q / ulp) * ulp
    if (2 : ℚ) ^ 1024 ≤ r then .inf else if r ≤ -(2 : ℚ) ^ 1024 then .negInf else .fin r

/-- `x + n` for an int `n`, which Python converts to a float first. A NaN sum is a new
object. -/
def addInt (x : PyFloat) (n : Int) : Except PyErr PyFloat :=
  match toDouble n with
  | .fin m =>
    match x with
    | .fin q => .ok (toDouble (q + m))
    | .nan obj => .ok (.nan (obj + 1))
    | infinite => .ok infinite
  | _ => .error (.overflowError ["int too large to convert to float"])

/-- The sign flips, the object of a NaN stays. -/
def neg : PyFloat → PyFloat
  | .fin q => .fin (-q)
  | .inf => .negInf
  | .negInf => .inf
  | .nan obj => .nan obj

/-- Sum, with exact rationals for the finite case. -/
def add : PyFloat → PyFloat → PyFloat
  | .fin p, .fin q => .fin (p + q)
  | .nan obj, _ => .nan obj
  | _, .nan obj => .nan obj
  | .inf, .negInf => .nan 0
  | .negInf, .inf => .nan 0
  | .inf, _ => .inf
  | _, .inf => .inf
  | .negInf, _ => .negInf
  | _, .negInf => .negInf

/-- The sign of a float, with which an infinity enters a product. -/
def signum : PyFloat → ℚ
  | .fin q => if 0 < q then 1 else if q < 0 then -1 else 0
  | .inf => 1
  | .negInf => -1
  | .nan _ => 0

/-- Product, with exact rationals for the finite case. -/
def mul : PyFloat → PyFloat → PyFloat
  | .fin p, .fin q => .fin (p * q)
  | .nan obj, _ => .nan obj
  | _, .nan obj => .nan obj
  | x, y =>
    if 0 < x.signum * y.signum then .inf
    else if x.signum * y.signum < 0 then .negInf else .nan 0

instance : Add PyFloat := ⟨add⟩
instance : Mul PyFloat := ⟨mul⟩
instance : Neg PyFloat := ⟨neg⟩
instance : Sub PyFloat := ⟨fun x y => x + -y⟩

@[simp] theorem fin_add_fin (p q : ℚ) : fin p + fin q = fin (p + q) := rfl
@[simp] theorem fin_mul_fin (p q : ℚ) : fin p * fin q = fin (p * q) := rfl
@[simp] theorem fin_sub_fin (p q : ℚ) : fin p - fin q = fin (p - q) := by
  change fin (p + -q) = _
  rw [sub_eq_add_neg]

@[simp] theorem nan_mul (obj : Nat) (x : PyFloat) : nan obj * x = nan obj := by
  cases x <;> rfl

/-- A NaN absorbs every factor. -/
@[simp] theorem fin_mul_nan (q : ℚ) (obj : Nat) : fin q * nan obj = nan obj := rfl

/-- `x <= y`; no comparison with a NaN holds. -/
def le : PyFloat → PyFloat → Bool
  | .nan _, _ => false
  | _, .nan _ => false
  | .negInf, _ => true
  | _, .inf => true
  | .fin p, .fin q => p ≤ q
  | _, _ => false

/-- `x < y`. -/
def lt : PyFloat → PyFloat → Bool
  | .nan _, _ => false
  | _, .nan _ => false
  | x, y => !le y x

@[simp] theorem fin_le_fin (p q : ℚ) : le (fin p) (fin q) = decide (p ≤ q) := rfl

@[simp] theorem fin_lt_fin (p q : ℚ) : lt (fin p) (fin q) = decide (p < q) := by
  simp [lt, ← not_le]

end PyFloat

/-! ## Hashable values

What a dict or set can hold as a key. `1`, `1.0` and `True` are one key, so numbers are keyed by
value. -/

/-- A hashable JSON value up to identity or `==`. -/
inductive HKey where
  | none
  | num (x : PyFloat)
  | str (s : String)
  deriving DecidableEq, Repr

namespace HKey

/-- Hash key of an int. -/
def int (n : Int) : HKey := .num (.fin n)

@[simp] theorem int_inj {m n : Int} : int m = int n ↔ m = n := by simp [int]

/-- The int the key equals, if any. -/
def toInt? : HKey → Option Int
  | .num (.fin q) => if q.den = 1 then some q.num else Option.none
  | _ => Option.none

@[simp] theorem toInt?_int (n : Int) : (int n).toInt? = some n := by simp [int, toInt?]

/-- The int keys are those that stand for a whole number. -/
theorem toInt?_eq_some {k : HKey} {n : Int} : k.toInt? = some n ↔ k = int n := by
  constructor
  · intro h
    match k, h with
    | .num (.fin q), h =>
      simp only [toInt?] at h
      -- a number is whole exactly when its denominator is one
      split at h
      · rename_i hden
        have hq : q.num = n := by simpa using h
        simp only [int, num.injEq, PyFloat.fin.injEq]
        rw [← hq]
        exact (Rat.den_eq_one_iff q).mp hden |>.symm
      · cases h
  · rintro rfl
    exact toInt?_int n

/-- The JSON value that prints the key: ints as ints, other numbers as floats. -/
def toJson : HKey → Json
  | .none => .null
  | .num (.fin q) => if q.den = 1 then .int q.num else .float (.fin q)
  | .num x => .float x
  | .str s => .str s

@[simp] theorem toJson_int (n : Int) : (int n).toJson = .int n := by simp [int, toJson]

/-- Place in a linear order that extends `<` on numbers and on strings. -/
def rank : HKey → ℕ ×ₗ ℚ ×ₗ ℕ ×ₗ String
  | .none => toLex (0, toLex (0, toLex (0, "")))
  | .num .negInf => toLex (1, toLex (0, toLex (0, "")))
  | .num (.fin q) => toLex (2, toLex (q, toLex (0, "")))
  | .num .inf => toLex (3, toLex (0, toLex (0, "")))
  | .num (.nan obj) => toLex (4, toLex (0, toLex (obj, "")))
  | .str s => toLex (5, toLex (0, toLex (0, s)))

/-- The rank tells all keys apart. -/
theorem rank_injective : Function.Injective rank := by
  intro a b h
  rcases a with _ | (_ | _ | _ | _) | _ <;> rcases b with _ | (_ | _ | _ | _) | _ <;>
    simp_all [rank]

instance : LinearOrder HKey := LinearOrder.lift' rank rank_injective

theorem int_le_int {m n : Int} : int m ≤ int n ↔ m ≤ n := by
  change rank (int m) ≤ rank (int n) ↔ m ≤ n
  simp only [int, rank, Prod.Lex.toLex_le_toLex, lt_irrefl, le_refl, false_or, true_and, and_true,
    Int.cast_lt, Int.cast_inj]
  exact le_iff_lt_or_eq.symm

theorem int_lt_int {m n : Int} : int m < int n ↔ m < n := by
  rw [lt_iff_le_not_ge, int_le_int, int_le_int, lt_iff_le_not_ge]

/-- Whether Python's `<` is defined between the two. -/
def comparable : HKey → HKey → Bool
  | .num _, .num _ => true
  | .str _, .str _ => true
  | _, _ => false

@[simp] theorem comparable_int (m n : Int) : comparable (int m) (int n) = true := rfl

end HKey

/-! ## JSON values

The operations the source applies to a decoded value: its type tests, its comparisons and its hash.
-/

namespace Json

/-- `type(v).__name__`. -/
def typeName : Json → String
  | .null => "NoneType"
  | .bool _ => "bool"
  | .int _ => "int"
  | .float _ => "float"
  | .str _ => "str"
  | .list _ => "list"
  | .dict _ => "dict"

/-- The value as a number: bools count as `0` and `1`. -/
def number? : Json → Option PyFloat
  | .bool b => some (.fin (if b then 1 else 0))
  | .int n => some (.fin n)
  | .float x => some x
  | _ => none

/-- The key a dict or set files the value under; `none` for unhashable values. -/
def key? : Json → Option HKey
  | .null => some .none
  | .bool b => some (.num (.fin (if b then 1 else 0)))
  | .int n => some (.int n)
  | .float x => some (.num x)
  | .str s => some (.str s)
  | .list _ => none
  | .dict _ => none

/-- `hash(v)`. -/
def hash (v : Json) : Except PyErr HKey :=
  match v.key? with
  | some k => .ok k
  | none => .error (.typeError [s!"unhashable type: '{v.typeName}'"])

/-- The int that `v` is, or equals (`True` is `1`, `2.0` is `2`). -/
def asInt? (v : Json) : Option Int := v.key?.bind HKey.toInt?

/-- `type(v) is int`: bools and floats are not. -/
def exactInt? : Json → Option Int
  | .int n => some n
  | _ => none

/-- `_exact_int`. -/
def exactInt (v : Json) : Bool := v.exactInt?.isSome

mutual

/-- Identical or equal, the comparison containers use. -/
def same : Json → Json → Bool
  | .list xs, .list ys => sameList xs ys
  | .dict fs, .dict gs => sameFields fs gs && gs.all fun g => (fs.lookup g.1).isSome
  | .null, w => w.key? == Json.null.key?
  | .bool b, w => w.key? == (Json.bool b).key?
  | .int n, w => w.key? == (Json.int n).key?
  | .float x, w => w.key? == (Json.float x).key?
  | .str s, w => w.key? == (Json.str s).key?
  | _, _ => false

/-- Element by element, and of the same length. -/
def sameList : List Json → List Json → Bool
  | [], [] => true
  | x :: xs, y :: ys => same x y && sameList xs ys
  | _, _ => false

/-- Every field of the first has an equal field of its name in the second. -/
def sameFields : Fields → Fields → Bool
  | [], _ => true
  | (name, v) :: rest, gs =>
    (match gs.lookup name with
      | some w => same v w
      | none => false) && sameFields rest gs

end

def isNan : Json → Bool
  | .float (.nan _) => true
  | _ => false

/-- `v == w`: a NaN equals nothing, itself included. -/
def eq (v w : Json) : Bool := !v.isNan && !w.isNan && same v w

/-- A key is the key of its own JSON value. -/
@[simp] theorem key?_toJson (k : HKey) : k.toJson.key? = some k := by
  rcases k with _ | (q | _ | _ | _) | _
  case num.fin =>
    simp only [HKey.toJson]
    split
    · rename_i hden
      simp [key?, HKey.int, (Rat.den_eq_one_iff q).mp hden]
    · rfl
  all_goals rfl

theorem key?_eq_none {v : Json} : v.key? = some .none ↔ v = .null := by
  cases v <;> simp [key?, HKey.int]

theorem key?_eq_num {v : Json} {x : PyFloat} : v.key? = some (.num x) ↔ v.number? = some x := by
  cases v <;> simp [key?, number?, HKey.int]

theorem key?_eq_str {v : Json} {text : String} : v.key? = some (.str text) ↔ v = .str text := by
  cases v <;> simp [key?, HKey.int]

/-- Hashing succeeds on the values that have a key. -/
theorem hash_ok_iff {v : Json} {key : HKey} : v.hash = .ok key ↔ v.key? = some key := by
  unfold hash
  cases v.key? <;> simp

@[simp] theorem key?_int (n : Int) : (Json.int n).key? = some (.int n) := rfl
@[simp] theorem hash_int (n : Int) : (Json.int n).hash = .ok (.int n) := rfl
@[simp] theorem asInt?_int (n : Int) : (Json.int n).asInt? = some n := by simp [asInt?]
@[simp] theorem exactInt?_int (n : Int) : (Json.int n).exactInt? = some n := rfl

theorem exactInt?_eq_some {v : Json} {n : Int} : v.exactInt? = some n ↔ v = .int n := by
  cases v <;> simp [exactInt?]

/-- Being filed under an int's key is being equal to the int. -/
theorem asInt?_eq_some {v : Json} {n : Int} : v.asInt? = some n ↔ v.key? = some (.int n) := by
  rw [asInt?, Option.bind_eq_some_iff]
  constructor
  · rintro ⟨k, hk, hn⟩
    rw [hk, HKey.toInt?_eq_some.mp hn]
  · intro h
    exact ⟨_, h, HKey.toInt?_int n⟩

/-- A value is the int `n` as a key exactly when it equals `n`. -/
theorem same_int (v : Json) (n : Int) : same v (.int n) = decide (v.key? = some (.int n)) := by
  rw [Bool.eq_iff_iff, decide_eq_true_iff]
  cases v <;> simp only [same, key?, beq_iff_eq, reduceCtorEq, Bool.false_eq_true] <;>
    exact eq_comm

/-- `v == n` for a literal int `n`. -/
theorem eq_int {v : Json} {n : Int} : v.eq (.int n) = true ↔ v.asInt? = some n := by
  rw [asInt?_eq_some, eq, same_int]
  cases v with
  | float x => cases x <;> simp [isNan, key?, HKey.int]
  | _ => simp [isNan]

@[simp] theorem int_eq_int (m n : Int) : (Json.int m).eq (.int n) = decide (m = n) := by
  rw [Bool.eq_iff_iff, eq_int]
  simp

/-- `v + n` for an int `n`. -/
def addInt (v : Json) (n : Int) : Except PyErr Json :=
  match v with
  | .int m => .ok (.int (m + n))
  | .bool b => .ok (.int ((if b then 1 else 0) + n))
  | .float x => (x.addInt n).map Json.float
  | v => .error (.typeError [s!"unsupported operand type(s) for +: '{v.typeName}' and 'int'"])

@[simp] theorem addInt_int (m n : Int) : (Json.int m).addInt n = .ok (.int (m + n)) := rfl

end Json

/-! ## Sorting sets

`sorted(s)` of a set of linearly ordered values: the only ascending listing. -/

section SortSet

variable {α : Type}

/-- `sorted(s)` under `r`, by insertion so that it evaluates in the kernel. -/
def sortSet (r : α → α → Prop) [DecidableRel r] [IsTrans α r] [Std.Antisymm r] [Std.Total r]
    (s : Finset α) : List α :=
  Quot.liftOn s.val (List.insertionSort r) fun l l' h =>
    List.Perm.eq_of_pairwise (fun _ _ _ _ => antisymm_of r) (List.pairwise_insertionSort r l)
      (List.pairwise_insertionSort r l')
      (((List.perm_insertionSort r l).trans h).trans (List.perm_insertionSort r l').symm)

/-- The sort Mathlib has for finite sets. -/
theorem sortSet_eq_sort (r : α → α → Prop) [DecidableRel r] [IsTrans α r] [Std.Antisymm r]
    [Std.Total r] (s : Finset α) : sortSet r s = s.sort r := by
  obtain ⟨m, hm⟩ := s
  induction m using Quot.inductionOn with
  | h l =>
    refine List.Perm.eq_of_pairwise (fun _ _ _ _ => antisymm_of r)
      (List.pairwise_insertionSort r l) (Finset.pairwise_sort _ r) ?_
    refine (List.perm_insertionSort r l).trans (Multiset.coe_eq_coe.mp ?_)
    exact (Finset.sort_eq (⟨Quot.mk _ l, hm⟩ : Finset α) r).symm

variable [LinearOrder α] {s : Finset α} {a : α}

instance isTrans_le : IsTrans α fun a b => a ≤ b := ⟨fun _ _ _ => le_trans⟩

instance antisymm_le : Std.Antisymm fun a b : α => a ≤ b := ⟨fun _ _ => le_antisymm⟩

@[simp] theorem mem_sortSet : a ∈ sortSet (· ≤ ·) s ↔ a ∈ s := by simp [sortSet_eq_sort]

@[simp] theorem sortSet_toFinset [DecidableEq α] : (sortSet (· ≤ ·) s).toFinset = s := by
  rw [sortSet_eq_sort]
  convert Finset.sort_toFinset s (· ≤ ·)

/-- A set has no duplicates, so the listing is strict. -/
theorem sortSet_pairwise_lt (s : Finset α) : (sortSet (· ≤ ·) s).Pairwise (· < ·) := by
  rw [sortSet_eq_sort]
  exact (Finset.sortedLT_sort s).pairwise

/-- `sorted(s, reverse=True)` is the listing backwards. -/
theorem sortSet_desc (s : Finset α) : sortSet (· ≥ ·) s = (sortSet (· ≤ ·) s).reverse := by
  rw [sortSet_eq_sort, sortSet_eq_sort]
  refine List.Perm.eq_of_pairwise (fun _ _ _ _ h h' => le_antisymm h' h)
    (Finset.pairwise_sort s (· ≥ ·)) (List.pairwise_reverse.mpr (Finset.pairwise_sort s (· ≤ ·))) ?_
  exact (Finset.sort_perm_toList s _).trans
    ((Finset.sort_perm_toList s _).symm.trans (List.reverse_perm _).symm)

@[simp] theorem mem_sortSet_desc : a ∈ sortSet (· ≥ ·) s ↔ a ∈ s := by
  rw [sortSet_desc, List.mem_reverse, mem_sortSet]

/-- The greatest member, if there is one, comes first in descending order. -/
theorem sortSet_desc_cons_iff :
    (∃ rest, sortSet (· ≥ ·) s = a :: rest) ↔ IsGreatest (s : Set α) a := by
  have hsorted : (sortSet (· ≥ ·) s).Pairwise (· > ·) := by
    rw [sortSet_desc, List.pairwise_reverse]
    exact sortSet_pairwise_lt s
  have hmem : ∀ b, b ∈ sortSet (· ≥ ·) s ↔ b ∈ s := fun b => mem_sortSet_desc
  -- the head of a descending listing is above all that follow it
  constructor
  · rintro ⟨rest, hcons⟩
    rw [hcons] at hmem hsorted
    refine ⟨(hmem a).mp List.mem_cons_self, fun b hb => ?_⟩
    rcases List.mem_cons.mp ((hmem b).mpr hb) with rfl | hrest
    · exact le_rfl
    · exact (List.rel_of_pairwise_cons hsorted hrest).le
  · rintro ⟨ha, hgreatest⟩
    cases hcons : sortSet (· ≥ ·) s with
    | nil =>
      have hin := (hmem a).mpr ha
      rw [hcons] at hin
      cases hin
    | cons b rest =>
      rw [hcons] at hmem hsorted
      have hle : b ≤ a := hgreatest ((hmem b).mp List.mem_cons_self)
      rcases List.mem_cons.mp ((hmem a).mpr ha) with rfl | hrest
      · exact ⟨rest, rfl⟩
      · exact absurd (List.rel_of_pairwise_cons hsorted hrest) hle.not_gt

/-- The head comes from the set. -/
theorem mem_of_sortSet_desc_cons {rest : List α} (h : sortSet (· ≥ ·) s = a :: rest) : a ∈ s :=
  (sortSet_desc_cons_iff.mp ⟨rest, h⟩).1

end SortSet

/-- `sorted` on a set of hashable values: `<` must be defined between any two. The place of
a NaN is left open by the source; here NaNs come last. -/
def sortKeys (s : Finset HKey) : Except PyErr (List HKey) :=
  if ∀ a ∈ s, ∀ b ∈ s, a ≠ b → HKey.comparable a b = true then .ok (sortSet (· ≤ ·) s)
  else .error (.typeError ["'<' not supported between the members"])

end Ragcore
