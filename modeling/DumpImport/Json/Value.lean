import DumpImport.Binary64.Basic

/-!
JSON values. An object keeps its members in the order in which their keys first came.
-/
namespace DumpImport.Json

structure Integer where
  val : Int
  lower : -0x8000000000000000 ≤ val
  upper : val < 0x10000000000000000
deriving DecidableEq

def Integer.ofInt? (i : Int) : Option Integer :=
  if h : -0x8000000000000000 ≤ i ∧ i < 0x10000000000000000 then some ⟨i, h.1, h.2⟩ else none

theorem Integer.ofInt?_val (i : Integer) : ofInt? i.val = some i := by
  rw [ofInt?, dif_pos ⟨i.lower, i.upper⟩]

/-- The number itself if it has 64 bits, else the last one that has. -/
def Integer.nearest (i : Int) : Integer :=
  ⟨max (-0x8000000000000000) (min i 0xFFFFFFFFFFFFFFFF), by omega, by omega⟩

inductive Number where
  | int (i : Integer)
  | double (x : Binary64)
deriving DecidableEq

inductive Value where
  | null
  | bool (b : Bool)
  | number (n : Number)
  | string (s : String)
  | array (vs : List Value)
  | object (ms : List (String × Value))

abbrev Object := List (String × Value)

namespace Object

def get? (o : Object) (k : String) : Option Value := o.lookup k

def has (o : Object) (k : String) : Bool := (o.get? k).isSome

/-- A key already there keeps its place; a new one goes last. -/
def insert : Object → String → Value → Object
  | [], k, v => [(k, v)]
  | (l, w) :: o, k, v => if l = k then (l, v) :: o else (l, w) :: insert o k v

def ofMembers (ms : List (String × Value)) : Object :=
  ms.foldl (fun o m => o.insert m.1 m.2) []

theorem get?_cons (k l : String) (v : Value) (o : Object) :
    get? ((l, v) :: o) k = if k = l then some v else get? o k := by
  by_cases h : k = l
  · simp [get?, h]
  · simp [get?, List.lookup_cons, beq_false_of_ne h, h]

theorem get?_insert_self (o : Object) (k : String) (v : Value) :
    (o.insert k v).get? k = some v := by
  induction o with
  | nil => simp [insert, get?_cons]
  | cons m o ih =>
    obtain ⟨l, w⟩ := m
    by_cases h : l = k
    · simp [insert, h, get?_cons]
    · simp [insert, h, get?_cons, ih, Ne.symm h]

theorem get?_insert_ne (o : Object) {k l : String} (v : Value) (h : l ≠ k) :
    (o.insert k v).get? l = o.get? l := by
  induction o with
  | nil => rw [insert, get?_cons, if_neg h]
  | cons m o ih =>
    obtain ⟨j, w⟩ := m
    by_cases hj : j = k
    · subst hj; simp [insert, get?_cons, h]
    · by_cases hl : l = j <;> simp [insert, hj, get?_cons, hl, ih]

end Object

end DumpImport.Json
