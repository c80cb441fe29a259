import Rjr.Lib.OrderedHash
import Rjr.Ruby

/-!
# Arguments

`validate!` and `extract` of `lib/rjr/util/args.rb`. Both take a hash from names to the number of
arguments that follow the name, and both first replace its keys by strings, in place and key by
key. An argument is then looked up as it is, so only a string is found. `validate!` also takes a
list of names; there every argument is compared by its `to_s`. The loops run over an index: one
jumps over the arguments of a name, the other steps through them past the end of the list, where
an argument reads as `nil`.

A hash is meant to have counts as its values. A list of names may start with a hash as well, which
is then taken for the hash form, with whatever its values are: what is added to the index may raise,
and the loop may not end.
-/

namespace Rjr

/-- A name that `validate!` or `extract` is given. -/
inductive Name where
  /-- A symbol. -/
  | symbol (text : String)
  /-- A string or any other value. -/
  | value (json : Json)
  deriving DecidableEq

namespace Name

/-- `to_s`. -/
def toS (runtime : Runtime) : Name → String
  | .symbol text => text
  | .value json => runtime.toS json

/-- `is_a?(String)`. -/
def isString : Name → Bool
  | .value (.str _) => true
  | _ => false

/-- `is_a?(Hash)`. -/
def isHash : Name → Bool
  | .value (.obj _) => true
  | _ => false

/-- A name as the string it is compared by. -/
def stringOf (runtime : Runtime) (name : Name) : Name := .value (.str (name.toS runtime))

/-- The string of a string is that string. -/
theorem stringOf_isString (runtime : Runtime) {name : Name} (string : name.isString = true) :
    name.stringOf runtime = name := by
  cases name with
  | symbol text => cases string
  | value json =>
    cases json with
    | str text => rfl
    | _ => cases string

/-- Only a string is found where all names are strings. -/
theorem isString_stringOf (runtime : Runtime) (name : Name) :
    (name.stringOf runtime).isString = true := rfl

end Name

/-- A list of acceptable names. A hash in the first place would be taken for the hash form. -/
structure Names where
  /-- The names. -/
  list : List Name
  /-- The first name is not a hash. -/
  first : list.head?.any Name.isHash = false

/-- What `validate!` is given. -/
inductive Acceptable where
  /-- A hash from names to the number of arguments to skip. -/
  | hash (map : OrderedHash Name Nat)
  /-- A list of names. -/
  | names (names : Names)

/-- What `extract` does. -/
structure Extraction where
  /-- The groups it returns. -/
  groups : List (List Json)
  /-- The indexes at which it goes on to the next argument without a group. -/
  skipped : List Nat

namespace Arguments

variable (runtime : Runtime)

section Swaps

variable {ν : Type} [Inhabited ν]

/-- One key of the hash is replaced by its string. -/
def swapKey (table : OrderedHash Name ν) (k : Name) : OrderedHash Name ν :=
  let written := table.put (k.stringOf runtime) ((table.get? k).getD default)
  if k.isString then written else written.select fun entry => entry.1 ≠ k

/-- The keys of the hash are swapped for strings, one after the other. -/
def swapKeys (map : OrderedHash Name ν) : OrderedHash Name ν :=
  map.keys.foldl (swapKey runtime) map

end Swaps

/-- The error of an argument that is not acceptable. -/
def notAcceptable (val : Json) : Exn :=
  ⟨"ArgumentError", runtime.toS val ++ " not an acceptable arg"⟩

/-- `self[i]`. -/
def argAt (args : List Json) (i : Nat) : Json := args.getD i .null

/-- The loop of the hash form: the index of the first argument that is not acceptable. -/
def rejectedFrom (table : OrderedHash Name Nat) (args : List Json) (i : Nat) : Option Nat :=
  if i < args.length then
    match table.get? (.value (argAt args i)) with
    | none => some i
    | some skip => rejectedFrom table args (i + (skip + 1))
  else none
termination_by args.length - i

/-- The loop of the list form: the index of the first argument that is not acceptable. -/
def unlistedFrom (acceptable : List String) (args : List Json) (i : Nat) : Option Nat :=
  if i < args.length then
    if acceptable.contains (runtime.toS (argAt args i)) then unlistedFrom acceptable args (i + 1)
    else some i
  else none
termination_by args.length - i

/-- What `validate!` raises for the argument at an index, if there is one. -/
def raiseAt (args : List Json) : Option Nat → Except Exn Unit
  | none => .ok ()
  | some i => .error (notAcceptable runtime (argAt args i))

/-- `Arguments#validate!`. -/
def validate (args : List Json) : Acceptable → Except Exn Unit
  | .hash map => raiseAt runtime args (rejectedFrom (swapKeys runtime map) args 0)
  | .names names =>
    raiseAt runtime args (unlistedFrom runtime (names.list.map (Name.toS runtime)) args 0)

/-! ## Names that start with a hash -/

/-- What Ruby computes with the values that stand in a hash, where an index is expected. -/
structure Numbers where
  /-- `a + b`. -/
  plus : Json → Json → Except Exn Json
  /-- `a < b`. -/
  less : Json → Json → Except Exn Bool
  /-- `array[i]`. -/
  index : List Json → Json → Except Exn Json
  /-- Integers are added. -/
  plus_int : ∀ a b, plus (.int a) (.int b) = .ok (.int (a + b))
  /-- Integers are compared. -/
  less_int : ∀ a b, less (.int a) (.int b) = .ok (decide (a < b))
  /-- An index that is not negative counts from the front; there is `nil` past the end. -/
  index_nat : ∀ array (i : Nat), index array (.int i) = .ok (array.getD i .null)

section Hashes

variable (numbers : Numbers)

/-- One iteration of the loop of the hash form: the next index, or `none` at the end. -/
def iterate (table : OrderedHash Name Json) (args : List Json) (i : Json) :
    Except Exn (Option Json) := do
  if ← numbers.less i (.int args.length) then
    let val ← numbers.index args i
    match table.get? (.value val) with
    | none => .error (notAcceptable runtime val)
    | some skip => return some (← numbers.plus i (← numbers.plus skip (.int 1)))
  else return none

/-- The loop of the hash form with any values, as far as it is run. -/
def loopWithin (table : OrderedHash Name Json) (args : List Json) :
    Nat → Json → Option (Except Exn Unit)
  | 0, _ => none
  | fuel + 1, i =>
    match iterate runtime numbers table args i with
    | .error raised => some (.error raised)
    | .ok none => some (.ok ())
    | .ok (some next) => loopWithin table args fuel next

/-- `nil` is what a hash has under a key it lacks. -/
instance : Inhabited Json := ⟨.null⟩

/-- `Hash[acceptable.first]`, for a value that is a hash. -/
def hashOf : Option Name → OrderedHash Name Json
  | some (.value (.obj members)) =>
    OrderedHash.ofList (members.map fun member => (.value (.str member.1), member.2))
  | _ => .empty

/-- `Arguments#validate!` with any list of names, as far as its loop is run. -/
def validateWithin (args : List Json) (acceptable : List Name) (fuel : Nat) :
    Option (Except Exn Unit) :=
  if first : acceptable.head?.any Name.isHash = false then
    some (validate runtime args (.names ⟨acceptable, first⟩))
  else
    loopWithin runtime numbers (swapKeys runtime (hashOf acceptable.head?)) args fuel (.int 0)

end Hashes

/-! ## Groups -/

/-- `0.upto(num-1) { group << self[i]; i += 1 }`, with the group and the index after it. -/
def upto (args : List Json) : Nat → List Json → Nat → List Json × Nat
  | 0, group, i => (group, i)
  | num + 1, group, i => upto args num (group ++ [argAt args i]) (i + 1)

/-- The index after a group is behind its arguments. -/
theorem upto_index (args : List Json) (num : Nat) : ∀ group i,
    (upto args num group i).2 = i + num := by
  induction num with
  | zero => exact fun _ _ => rfl
  | succ num ih =>
    intro group i
    rw [upto, ih]
    omega

/-- The loop of `extract`. -/
def extractFrom (map : OrderedHash Name Nat) (args : List Json) (i : Nat) : Extraction :=
  if i < args.length then
    let val := argAt args i
    match map.get? (.value val) with
    | none =>
      let rest := extractFrom map args (i + 1)
      { rest with skipped := i :: rest.skipped }
    | some num =>
      let grouped := upto args num [val] (i + 1)
      let rest := extractFrom map args grouped.2
      { rest with groups := grouped.1 :: rest.groups }
  else ⟨[], []⟩
termination_by args.length - i
decreasing_by
  · omega
  · rw [upto_index]
    omega

/-- `Arguments#extract`, with the indexes it passes over. -/
def extraction (args : List Json) (map : OrderedHash Name Nat) : Extraction :=
  extractFrom (swapKeys runtime map) args 0

/-- `Arguments#extract`. -/
def extract (args : List Json) (map : OrderedHash Name Nat) : List (List Json) :=
  (extraction runtime args map).groups

/-! ## The swapped keys -/

section Keys

variable {runtime}

variable (runtime) in
/-- What a swap leaves under a name. -/
theorem get?_swapKey (table : OrderedHash Name Nat) (k : Name) (key : Name) (count : Nat) :
    (swapKey runtime table k).get? key = some count ↔
      if key = k.stringOf runtime then (table.get? k).getD default = count
      else table.get? key = some count ∧ key ≠ k := by
  have written : (table.put (k.stringOf runtime) ((table.get? k).getD default)).get? key =
      if key = k.stringOf runtime then some ((table.get? k).getD default) else table.get? key :=
    table.get?_put (k.stringOf runtime) key _
  rw [swapKey]
  cases string : k.isString with
  | true =>
    have own := k.stringOf_isString runtime string
    simp only [if_true, written]
    by_cases same : key = k.stringOf runtime
    · simp [same]
    · simp [same, own ▸ same]
  | false =>
    have other : k.stringOf runtime ≠ k := by
      intro same
      have impossible := k.isString_stringOf runtime
      rw [same, string] at impossible
      cases impossible
    simp only [Bool.false_eq_true, if_false, OrderedHash.get?_select_eq_some_iff, written]
    by_cases same : key = k.stringOf runtime
    · simp [same, other]
    · simp [same]

variable (runtime) in
/-- The table while the keys that are left have not been swapped yet. -/
structure Swapped (map : OrderedHash Name Nat) (left : List Name) (table : OrderedHash Name Nat) :
    Prop where
  /-- An entry is that of a key, under its string or, if it is left, under the key itself. -/
  origin : ∀ key count, table.get? key = some count → ∃ k, map.get? k = some count ∧
    (key = k.stringOf runtime ∨ key = k ∧ key ∈ left)
  /-- A key that is left has an entry. -/
  waiting : ∀ k ∈ left, ∃ count, table.get? k = some count
  /-- The string of any other key has an entry. -/
  done : ∀ k ∈ map.keys, k ∈ left ∨ ∃ count, table.get? (k.stringOf runtime) = some count

/-- A swap takes one key from those that are left. -/
theorem swapped_swapKey {map table : OrderedHash Name Nat} {k : Name} {left : List Name}
    (swapped : Swapped runtime map (k :: left) table) (once : k ∉ left) :
    Swapped runtime map left (swapKey runtime table k) := by
  obtain ⟨own, present⟩ := swapped.waiting k List.mem_cons_self
  constructor
  · intro key count found
    rw [get?_swapKey] at found
    by_cases same : key = k.stringOf runtime
    · rw [if_pos same, present, Option.getD_some] at found
      subst found
      obtain ⟨source, counted, string | ⟨rfl, -⟩⟩ := swapped.origin k own present
      · -- The key is itself a string, which an earlier key has overwritten.
        refine ⟨source, counted, .inl ?_⟩
        have isString : k.isString = true := by rw [string]; rfl
        rw [same, k.stringOf_isString runtime isString, string]
      · exact ⟨k, counted, .inl same⟩
    · rw [if_neg same] at found
      obtain ⟨source, counted, string | ⟨rfl, inside⟩⟩ := swapped.origin key count found.1
      · exact ⟨source, counted, .inl string⟩
      · rcases List.mem_cons.mp inside with rfl | later
        · exact absurd rfl found.2
        · exact ⟨key, counted, .inr ⟨rfl, later⟩⟩
  · intro other inside
    obtain ⟨count, found⟩ := swapped.waiting other (List.mem_cons_of_mem k inside)
    have differs : other ≠ k := by
      rintro rfl
      exact once inside
    by_cases same : other = k.stringOf runtime
    · exact ⟨_, (get?_swapKey runtime table k other _).mpr (by rw [if_pos same])⟩
    · have kept := (get?_swapKey runtime table k other count).mpr
      rw [if_neg same] at kept
      exact ⟨count, kept ⟨found, differs⟩⟩
  · intro other inside
    have written : ∃ count, (swapKey runtime table k).get? (k.stringOf runtime) = some count :=
      ⟨_, (get?_swapKey runtime table k _ _).mpr (by rw [if_pos rfl])⟩
    rcases swapped.done other inside with waits | ⟨count, found⟩
    · rcases List.mem_cons.mp waits with rfl | later
      · exact .inr written
      · exact .inl later
    · by_cases same : other.stringOf runtime = k.stringOf runtime
      · exact .inr (same ▸ written)
      · have differs : other.stringOf runtime ≠ k := by
          intro equal
          have isString : k.isString = true := by rw [← equal]; rfl
          exact same (equal.trans (k.stringOf_isString runtime isString).symm)
        have kept := (get?_swapKey runtime table k (other.stringOf runtime) count).mpr
        rw [if_neg same] at kept
        exact .inr ⟨count, kept ⟨found, differs⟩⟩

variable (runtime) in
/-- All keys are swapped in the end. -/
theorem swapped_swapKeys (map : OrderedHash Name Nat) :
    Swapped runtime map [] (swapKeys runtime map) := by
  have swaps : ∀ left table, left.Nodup → Swapped runtime map left table →
      Swapped runtime map [] (left.foldl (swapKey runtime) table) := by
    intro left
    induction left with
    | nil => exact fun _ _ swapped => swapped
    | cons k rest ih =>
      intro table distinct swapped
      rw [List.nodup_cons] at distinct
      exact ih _ distinct.2 (swapped_swapKey swapped distinct.1)
  apply swaps map.keys map map.distinct
  constructor
  · intro key count found
    exact ⟨key, found, .inr ⟨rfl, (map.has_eq_true_iff key).mp (by simp [OrderedHash.has, found])⟩⟩
  · intro k inside
    exact Option.isSome_iff_exists.mp ((map.has_eq_true_iff k).mpr inside)
  · exact fun k inside => .inl inside

variable (runtime) in
/-- An argument is found with the count of a name whose string it is. -/
theorem get?_swapKeys {map : OrderedHash Name Nat} {val : Json} {count : Nat}
    (found : (swapKeys runtime map).get? (.value val) = some count) :
    ∃ k, map.get? k = some count ∧ val = .str (k.toS runtime) := by
  obtain ⟨k, counted, string | ⟨-, impossible⟩⟩ :=
    (swapped_swapKeys runtime map).origin (.value val) count found
  · exact ⟨k, counted, Name.value.inj string⟩
  · cases impossible

variable (runtime) in
/-- An argument is found exactly when it is the string of a name. -/
theorem has_swapKeys_iff (map : OrderedHash Name Nat) (val : Json) :
    ((swapKeys runtime map).get? (.value val)).isSome = true ↔
      ∃ k ∈ map.keys, val = .str (k.toS runtime) := by
  constructor
  · intro found
    obtain ⟨count, present⟩ := Option.isSome_iff_exists.mp found
    obtain ⟨k, counted, same⟩ := get?_swapKeys runtime present
    exact ⟨k, (map.has_eq_true_iff k).mp (by simp [OrderedHash.has, counted]), same⟩
  · rintro ⟨k, inside, rfl⟩
    rcases (swapped_swapKeys runtime map).done k inside with impossible | ⟨count, present⟩
    · cases impossible
    · rw [Name.stringOf] at present
      simp [present]

end Keys

end Arguments

end Rjr
