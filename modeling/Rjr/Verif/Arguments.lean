import Mathlib.Data.List.GetD
import Rjr.Lib.Groups
import Rjr.Util.Args
import Rjr.Util.JsonText

/-!
# Validated arguments

The two loops over the arguments read one grammar: an argument that is the string of a name opens
a group with the arguments that follow it. `extract` returns the groups and passes over what opens
none; `validate!` stops there. The loops are shown to read the list as `Groups.parse` does, so
they visit the same indexes for every list and every map.

The list form of `validate!` compares an argument by its `to_s`, the hash form as it is. They
agree on strings, and they differ as soon as other values are acceptable by their `to_s` only.
-/

namespace Rjr.Verif.Arguments

open Rjr.Arguments

/-! ## The loops read groups -/

/-- The number of arguments that follow an argument in a table. -/
def countIn (table : OrderedHash Name Nat) (val : Json) : Option Nat := table.get? (.value val)

/-- The arguments from an index on, read in groups. -/
def parsedFrom (table : OrderedHash Name Nat) (args : List Json) (i : Nat) :
    Groups.Parsed Json := Groups.parse (countIn table) .null i (args.drop i)

section Loops

variable (table : OrderedHash Name Nat) (args : List Json)

/-- Below the end, the arguments from an index on start with the one at the index. -/
theorem drop_argAt {i : Nat} (inside : i < args.length) :
    args.drop i = argAt args i :: args.drop (i + 1) := by
  rw [List.drop_eq_getElem_cons inside, argAt, List.getD_eq_getElem args .null inside]

/-- The end of the list is read as nothing. -/
theorem parsedFrom_end {i : Nat} (past : ¬ i < args.length) :
    parsedFrom table args i = ⟨[], []⟩ := by
  rw [parsedFrom, List.drop_of_length_le (by omega), Groups.parse]

/-- An argument that opens no group is skipped. -/
theorem parsedFrom_skip {i : Nat} (inside : i < args.length)
    (other : countIn table (argAt args i) = none) :
    parsedFrom table args i =
      { parsedFrom table args (i + 1) with
        skipped := i :: (parsedFrom table args (i + 1)).skipped } := by
  rw [parsedFrom, drop_argAt args inside, Groups.parse_skip _ _ other]
  rfl

/-- An argument that opens a group is read with the arguments that follow. -/
theorem parsedFrom_open {i num : Nat} (inside : i < args.length)
    (opens : countIn table (argAt args i) = some num) :
    parsedFrom table args i =
      { parsedFrom table args (i + 1 + num) with
        groups := (argAt args i :: Groups.following .null num (args.drop (i + 1))) ::
          (parsedFrom table args (i + 1 + num)).groups } := by
  rw [parsedFrom, drop_argAt args inside, Groups.parse_open _ _ opens, List.drop_drop]
  rfl

/-- The loop of `validate!` stops at the first argument that is skipped. -/
theorem rejectedFrom_eq (i : Nat) :
    rejectedFrom table args i = (parsedFrom table args i).skipped.head? := by
  fun_induction rejectedFrom table args i with
  | case1 i inside other => rw [parsedFrom_skip table args inside other, List.head?_cons]
  | case2 i inside skip opens ih =>
    have next : i + 1 + skip = i + (skip + 1) := by omega
    rw [ih, parsedFrom_open table args inside opens, next]
  | case3 i past => rw [parsedFrom_end table args past, List.head?_nil]

/-- The next argument of a group is the one at the index, or the filling. -/
theorem following_succ (num i : Nat) :
    Groups.following .null (num + 1) (args.drop i) =
      argAt args i :: Groups.following .null num (args.drop (i + 1)) := by
  by_cases inside : i < args.length
  · rw [drop_argAt args inside]
    simp [Groups.following]
  · have ended : args.drop i = [] := List.drop_of_length_le (by omega)
    have after : args.drop (i + 1) = [] := List.drop_of_length_le (by omega)
    have missing : argAt args i = .null := List.getD_eq_default args .null (by omega)
    simp [Groups.following, ended, after, missing, List.replicate_succ]

/-- The inner loop of `extract` collects the arguments that follow. -/
theorem upto_eq (num : Nat) : ∀ group i,
    (upto args num group i).1 = group ++ Groups.following .null num (args.drop i) := by
  induction num with
  | zero => intro group i; simp [upto, Groups.following]
  | succ num ih =>
    intro group i
    rw [upto, ih, following_succ]
    simp

/-- The loop of `extract` collects the groups, and passes over what is skipped. -/
theorem extractFrom_eq (i : Nat) :
    extractFrom table args i =
      ⟨(parsedFrom table args i).groups, (parsedFrom table args i).skipped⟩ := by
  fun_induction extractFrom table args i with
  | case1 i inside val other rest ih =>
    rw [parsedFrom_skip table args inside other]
    simp only [rest, ih]
  | case2 i inside val num opens grouped rest ih =>
    rw [parsedFrom_open table args inside opens]
    have behind : grouped.2 = i + 1 + num := upto_index args num [val] (i + 1)
    have collected : grouped.1 = val :: Groups.following .null num (args.drop (i + 1)) :=
      upto_eq args num [val] (i + 1)
    simp only [rest, ih, behind, collected, val]
  | case3 i past => rw [parsedFrom_end table args past]

end Loops

/-! ## One grammar -/

/-- `validate!` returns when no argument is rejected. -/
theorem raiseAt_ok_iff (runtime : Runtime) (args : List Json) (rejected : Option Nat) :
    raiseAt runtime args rejected = .ok () ↔ rejected = none := by
  cases rejected <;> simp [raiseAt]

/-- **`validate!` and `extract` read one grammar.** For every list of arguments and every map:
`validate!` succeeds if and only if `extract` skips nothing. The groups then put together are the
arguments, followed by no more than the filling of the last group. Every group starts with the
string of a name and has one more argument than the count of that name. And when `validate!` fails,
it raises at the first argument that `extract` skips. -/
theorem validate_extract (runtime : Runtime) (args : List Json) (map : OrderedHash Name Nat) :
    (validate runtime args (.hash map) = .ok () ↔ (extraction runtime args map).skipped = []) ∧
      (validate runtime args (.hash map) = .ok () → ∃ missing,
        (extract runtime args map).flatten = args ++ List.replicate missing .null ∧
          (∀ last, (extract runtime args map).getLast? = some last → missing < last.length) ∧
          (extract runtime args map = [] → missing = 0)) ∧
      (∀ group ∈ extract runtime args map, ∃ name count, map.get? name = some count ∧
        group.head? = some (.str (name.toS runtime)) ∧ group.length = 1 + count) ∧
      ∀ raised, validate runtime args (.hash map) = .error raised →
        ∃ index, (extraction runtime args map).skipped.head? = some index ∧
          raised = notAcceptable runtime (argAt args index) := by
  have loop := extractFrom_eq (swapKeys runtime map) args 0
  have stops := rejectedFrom_eq (swapKeys runtime map) args 0
  have succeeds : validate runtime args (.hash map) = .ok () ↔
      (parsedFrom (swapKeys runtime map) args 0).skipped = [] := by
    rw [validate, raiseAt_ok_iff, stops, List.head?_eq_none_iff]
  simp only [extract, extraction, loop]
  refine ⟨succeeds, ?_, ?_, ?_⟩
  · intro success
    exact Groups.flatten_groups (countIn (swapKeys runtime map)) .null 0 args
      (succeeds.mp success)
  · intro group inside
    obtain ⟨head, count, opens, first, length⟩ :=
      Groups.mem_groups (countIn (swapKeys runtime map)) .null 0 args group inside
    obtain ⟨name, counted, rfl⟩ := get?_swapKeys runtime opens
    exact ⟨name, count, counted, first, length⟩
  · intro raised failure
    rw [validate, stops] at failure
    cases first : (parsedFrom (swapKeys runtime map) args 0).skipped.head? with
    | none =>
      rw [first] at failure
      cases failure
    | some index =>
      rw [first] at failure
      cases failure
      exact ⟨index, rfl, rfl⟩

/-! ## Two forms -/

/-- The names as a map without arguments to skip. -/
def zeroMap (acceptable : List Name) : OrderedHash Name Nat :=
  OrderedHash.ofList (acceptable.map fun name => (name, 0))

/-- Arguments, each replaced by its `to_s`. -/
def stringArgs (runtime : Runtime) (args : List Json) : List Json :=
  args.map fun arg => .str (runtime.toS arg)

/-- Names, each replaced by its `to_s`. -/
def stringNames (runtime : Runtime) (acceptable : List Name) : List Name :=
  acceptable.map (Name.stringOf runtime)

/-- `validate!(*acceptable)` ends with an outcome: it returns, or it raises this exception. -/
def Ends (runtime : Runtime) (numbers : Numbers) (args : List Json) (acceptable : List Name)
    (outcome : Except Exn Unit) : Prop :=
  ∃ fuel, validateWithin runtime numbers args acceptable fuel = some outcome

/-- The forms agree, and the outcome of neither depends on more than the strings of arguments and
names. -/
structure Agree (runtime : Runtime) (numbers : Numbers) (args : List Json)
    (acceptable : List Name) : Prop where
  /-- The list form succeeds when the hash form does. -/
  forms : Ends runtime numbers args acceptable (.ok ()) ↔
    validate runtime args (.hash (zeroMap acceptable)) = .ok ()
  /-- The list form ends on the strings as it ends. -/
  list : ∀ outcome, Ends runtime numbers args acceptable outcome ↔
    Ends runtime numbers (stringArgs runtime args) (stringNames runtime acceptable) outcome
  /-- The hash form ends on the strings as it ends. -/
  hash : validate runtime args (.hash (zeroMap acceptable)) =
    validate runtime (stringArgs runtime args) (.hash (zeroMap (stringNames runtime acceptable)))

/-- The first argument that does not pass is reported. -/
def passing (runtime : Runtime) (passes : Json → Bool) (args : List Json) : Except Exn Unit :=
  match args.find? fun arg => !passes arg with
  | none => .ok ()
  | some arg => .error (notAcceptable runtime arg)

/-- The `to_s` of an argument is that of a name. -/
def listed (runtime : Runtime) (acceptable : List Name) (arg : Json) : Bool :=
  (acceptable.map (Name.toS runtime)).contains (runtime.toS arg)

/-- An argument is a string, and that of a name. -/
def keyed (runtime : Runtime) (acceptable : List Name) (arg : Json) : Bool :=
  (Name.value arg).isString && listed runtime acceptable arg

section Forms

variable (runtime : Runtime) (numbers : Numbers)

/-- The arguments are looked at one after the other. -/
theorem passing_cons (passes : Json → Bool) (arg : Json) (rest : List Json) :
    passing runtime passes (arg :: rest) =
      if passes arg then passing runtime passes rest
      else .error (notAcceptable runtime arg) := by
  cases passed : passes arg <;> simp [passing, passed]

/-- What passes may be told from other arguments with the same strings. -/
theorem passing_map {passes others : Json → Bool} {change : Json → Json}
    (same : ∀ arg, others (change arg) = passes arg)
    (texts : ∀ arg, runtime.toS (change arg) = runtime.toS arg) (args : List Json) :
    passing runtime others (args.map change) = passing runtime passes args := by
  induction args with
  | nil => rfl
  | cons arg rest ih =>
    rw [List.map_cons, passing_cons, passing_cons, ih, same, notAcceptable, texts, notAcceptable]

/-- The list form compares by strings. -/
theorem validate_names (args : List Json) (names : Names) :
    validate runtime args (.names names) = passing runtime (listed runtime names.list) args := by
  have loop : ∀ i, raiseAt runtime args
      (unlistedFrom runtime (names.list.map (Name.toS runtime)) args i) =
        passing runtime (listed runtime names.list) (args.drop i) := by
    intro i
    fun_induction unlistedFrom runtime (names.list.map (Name.toS runtime)) args i with
    | case1 i inside found ih =>
      rw [ih, drop_argAt args inside, passing_cons, listed, if_pos found]
    | case2 i inside missing =>
      rw [drop_argAt args inside, passing_cons, listed, if_neg missing, raiseAt]
    | case3 i past =>
      rw [List.drop_of_length_le (by omega), raiseAt]
      rfl
  rw [validate, loop, List.drop_zero]

/-- The names of the map are the names, and their counts are zero. -/
theorem get?_zeroMap (acceptable : List Name) (name : Name) :
    (zeroMap acceptable).get? name = if name ∈ acceptable then some 0 else none := by
  have looked : ∀ list : List Name,
      (list.map fun name => (name, 0)).lookup name = if name ∈ list then some 0 else none := by
    intro list
    induction list with
    | nil => rfl
    | cons first rest ih =>
      rw [List.map_cons, OrderedHash.lookup_cons_if, ih]
      by_cases same : name = first
      · simp [same]
      · simp [same]
  rw [zeroMap, OrderedHash.ofList, OrderedHash.get?_putAll, ← List.map_reverse, looked]
  simp

/-- An argument is the string of a name. -/
theorem keyed_iff (acceptable : List Name) (arg : Json) :
    keyed runtime acceptable arg = true ↔
      ∃ name ∈ acceptable, arg = .str (name.toS runtime) := by
  rw [keyed, Bool.and_eq_true, listed, List.contains_iff_mem, List.mem_map]
  constructor
  · rintro ⟨string, name, inside, same⟩
    refine ⟨name, inside, ?_⟩
    cases arg with
    | str text => rw [same, runtime.toS_str]
    | _ => cases string
  · rintro ⟨name, inside, rfl⟩
    exact ⟨rfl, name, inside, rfl⟩

/-- An argument is found in the table of the map when it is the string of a name, with no argument
to skip. -/
theorem countIn_zeroMap (acceptable : List Name) (arg : Json) :
    countIn (swapKeys runtime (zeroMap acceptable)) arg =
      if keyed runtime acceptable arg then some 0 else none := by
  have found : (countIn (swapKeys runtime (zeroMap acceptable)) arg).isSome = true ↔
      keyed runtime acceptable arg = true := by
    rw [countIn, has_swapKeys_iff, keyed_iff]
    apply exists_congr
    intro name
    rw [← OrderedHash.has_eq_true_iff, OrderedHash.has, get?_zeroMap]
    by_cases inside : name ∈ acceptable <;> simp [inside]
  cases counted : countIn (swapKeys runtime (zeroMap acceptable)) arg with
  | none =>
    rw [counted, Option.isSome_none] at found
    rw [if_neg fun keyed => Bool.false_ne_true (found.mpr keyed)]
  | some count =>
    obtain ⟨name, zero, -⟩ := get?_swapKeys runtime counted
    rw [get?_zeroMap] at zero
    rw [counted] at found
    rw [if_pos (found.mp rfl)]
    split at zero
    · rw [Option.some.inj zero]
    · cases zero

/-- The hash form without arguments to skip lets the strings of names pass, and no other value. -/
theorem validate_zeroMap (args : List Json) (acceptable : List Name) :
    validate runtime args (.hash (zeroMap acceptable)) =
      passing runtime (keyed runtime acceptable) args := by
  have count := countIn_zeroMap runtime acceptable
  have loop : ∀ i, raiseAt runtime args
      (rejectedFrom (swapKeys runtime (zeroMap acceptable)) args i) =
        passing runtime (keyed runtime acceptable) (args.drop i) := by
    intro i
    fun_induction rejectedFrom (swapKeys runtime (zeroMap acceptable)) args i with
    | case1 i inside other =>
      have missing := (count (argAt args i)).symm.trans other
      rw [drop_argAt args inside, passing_cons, raiseAt]
      split at missing
      · cases missing
      · rename_i rejected
        rw [if_neg rejected]
    | case2 i inside skip opens ih =>
      have found := (count (argAt args i)).symm.trans opens
      rw [ih, drop_argAt args inside, passing_cons]
      split at found
      · rename_i passed
        rw [if_pos passed, ← Option.some.inj found]
      · cases found
    | case3 i past =>
      rw [List.drop_of_length_le (by omega), raiseAt]
      rfl
  rw [validate, loop, List.drop_zero]

/-- The string of a name is its own string. -/
theorem map_toS_stringNames (acceptable : List Name) :
    (stringNames runtime acceptable).map (Name.toS runtime) =
      acceptable.map (Name.toS runtime) := by
  rw [stringNames, List.map_map]
  exact List.map_congr_left fun name _ => runtime.toS_str _

/-- The list form ends on the strings as the strings compare. -/
theorem passing_listed_strings (args : List Json) (acceptable : List Name) :
    passing runtime (listed runtime (stringNames runtime acceptable)) (stringArgs runtime args) =
      passing runtime (listed runtime acceptable) args := by
  refine passing_map runtime (fun arg => ?_) (fun arg => runtime.toS_str _) args
  rw [listed, listed, map_toS_stringNames, runtime.toS_str]

/-- The hash form ends on the strings as the strings compare. -/
theorem passing_keyed_strings (args : List Json) (acceptable : List Name) :
    passing runtime (keyed runtime (stringNames runtime acceptable)) (stringArgs runtime args) =
      passing runtime (listed runtime acceptable) args := by
  refine passing_map runtime (fun arg => ?_) (fun arg => runtime.toS_str _) args
  rw [keyed, Name.isString, Bool.true_and, listed, listed, map_toS_stringNames, runtime.toS_str]

/-- Names that do not start with a hash are compared by strings. -/
theorem ends_iff {acceptable : List Name} (first : acceptable.head?.any Name.isHash = false)
    (args : List Json) (outcome : Except Exn Unit) :
    Ends runtime numbers args acceptable outcome ↔
      outcome = passing runtime (listed runtime acceptable) args := by
  have loop : ∀ fuel, validateWithin runtime numbers args acceptable fuel =
      some (passing runtime (listed runtime acceptable) args) := by
    intro fuel
    rw [validateWithin, dif_pos first, validate_names]
  simp only [Ends, loop, Option.some.injEq, exists_const, eq_comm]

/-- Strings do not start with a hash. -/
theorem first_stringNames (acceptable : List Name) :
    (stringNames runtime acceptable).head?.any Name.isHash = false := by
  cases acceptable <;> rfl

/-- The strings end as they compare, whatever the names start with. -/
theorem ends_strings_iff (args : List Json) (acceptable : List Name) (outcome : Except Exn Unit) :
    Ends runtime numbers (stringArgs runtime args) (stringNames runtime acceptable) outcome ↔
      outcome = passing runtime (listed runtime acceptable) args := by
  rw [ends_iff runtime numbers (first_stringNames runtime acceptable), passing_listed_strings]

/-- The error names the argument. -/
theorem notAcceptable_inj {first second : Json}
    (same : notAcceptable runtime first = notAcceptable runtime second) :
    runtime.toS first = runtime.toS second := by
  simp only [notAcceptable, Exn.mk.injEq, true_and] at same
  exact String.append_left_inj _ |>.mp same

/-- An argument that is listed is not the one that is reported. -/
theorem passing_listed_ne {acceptable : List Name} {arg : Json}
    (found : listed runtime acceptable arg = true) (args : List Json) :
    passing runtime (listed runtime acceptable) args ≠ .error (notAcceptable runtime arg) := by
  rw [passing]
  split
  · exact fun same => by cases same
  · rename_i other rejected
    intro same
    have texts := notAcceptable_inj runtime (Except.error.inj same)
    have missing := List.find?_some rejected
    rw [listed, texts, ← listed, found] at missing
    cases missing

/-- The forms report the same when all arguments before the first that is not listed are
strings. -/
theorem passing_keyed_eq_iff (acceptable : List Name) (args : List Json) :
    passing runtime (keyed runtime acceptable) args =
        passing runtime (listed runtime acceptable) args ↔
      ∀ arg ∈ args.takeWhile (listed runtime acceptable), (Name.value arg).isString = true := by
  induction args with
  | nil => exact ⟨fun _ arg inside => absurd inside List.not_mem_nil, fun _ => rfl⟩
  | cons arg rest ih =>
    rw [passing_cons, passing_cons, List.takeWhile_cons, keyed]
    cases found : listed runtime acceptable arg with
    | false => simp
    | true =>
      cases string : (Name.value arg).isString with
      | true => simp [ih, string]
      | false =>
        -- the hash form reports an argument that the list form lets pass
        have other := passing_listed_ne runtime found rest
        simp [string, other.symm]

end Forms

/-- **When the forms of `validate!` agree.** For every list of arguments and every list of names,
the forms agree and their outcomes depend on strings only if and only if all arguments before the
first that is not acceptable by its string are strings, and a hash that stands first among the
names, which selects the hash form, ends as the list of strings would. -/
theorem forms_agree_iff (runtime : Runtime) (numbers : Numbers) (args : List Json)
    (acceptable : List Name) :
    Agree runtime numbers args acceptable ↔
      (∀ arg ∈ args.takeWhile (listed runtime acceptable), ∃ text, arg = .str text) ∧
        (acceptable.head?.any Name.isHash = true → ∀ outcome,
          Ends runtime numbers args acceptable outcome ↔
            outcome = passing runtime (listed runtime acceptable) args) := by
  have strings : ∀ arg, (Name.value arg).isString = true ↔ ∃ text, arg = .str text := by
    intro arg
    cases arg <;> simp [Name.isString]
  simp only [← strings]
  constructor
  · intro agree
    have hash := agree.hash
    rw [validate_zeroMap, validate_zeroMap, passing_keyed_strings] at hash
    refine ⟨(passing_keyed_eq_iff runtime acceptable args).mp hash, fun _ outcome => ?_⟩
    rw [agree.list outcome, ends_strings_iff]
  · rintro ⟨texts, own⟩
    have hash := (passing_keyed_eq_iff runtime acceptable args).mpr texts
    have ends : ∀ outcome, Ends runtime numbers args acceptable outcome ↔
        outcome = passing runtime (listed runtime acceptable) args := by
      cases first : acceptable.head?.any Name.isHash with
      | false => exact ends_iff runtime numbers first args
      | true => exact own first
    refine ⟨?_, fun outcome => ?_, ?_⟩
    · rw [ends, validate_zeroMap, hash, eq_comm]
    · rw [ends, ends_strings_iff]
    · rw [validate_zeroMap, validate_zeroMap, passing_keyed_strings, hash]

/-! ## Names that start with counts -/

section Counts

variable (runtime : Runtime) (numbers : Numbers)

/-- Keys that are strings stay as they are. -/
theorem swapKeys_strings {ν : Type} [Inhabited ν] {map : OrderedHash Name ν}
    (strings : ∀ key ∈ map.keys, key.isString = true) : swapKeys runtime map = map := by
  have kept : ∀ keys : List Name, (∀ key ∈ keys, key ∈ map.keys) →
      keys.foldl (swapKey runtime) map = map := by
    intro keys
    induction keys with
    | nil => exact fun _ => rfl
    | cons key rest ih =>
      intro inside
      have own := inside key List.mem_cons_self
      have string := strings key own
      obtain ⟨value, present⟩ := Option.isSome_iff_exists.mp ((map.has_eq_true_iff key).mpr own)
      have same : swapKey runtime map key = map := by
        rw [swapKey, if_pos string, key.stringOf_isString runtime string, present,
          Option.getD_some, map.put_same key value present]
      rw [List.foldl_cons, same]
      exact ih fun other later => inside other (List.mem_cons_of_mem _ later)
  exact kept map.keys fun key inside => inside

/-- A loop that has ended is not changed by running it further. -/
theorem loopWithin_succ {table : OrderedHash Name Json} {args : List Json}
    {outcome : Except Exn Unit} (fuel : Nat) : ∀ i : Json,
    loopWithin runtime numbers table args fuel i = some outcome →
      loopWithin runtime numbers table args (fuel + 1) i = some outcome := by
  induction fuel with
  | zero => intro i ended; cases ended
  | succ fuel ih =>
    intro i ended
    rw [loopWithin] at ended ⊢
    split at ended
    · exact ended
    · exact ended
    · exact ih _ ended

/-- Two runs that have ended have the same outcome. -/
theorem loopWithin_unique {table : OrderedHash Name Json} {args : List Json} {i : Json}
    {first second : Except Exn Unit} {fuel more : Nat}
    (ended : loopWithin runtime numbers table args fuel i = some first)
    (again : loopWithin runtime numbers table args more i = some second) : first = second := by
  have longer : ∀ {fuel outcome}, loopWithin runtime numbers table args fuel i = some outcome →
      ∀ extra, loopWithin runtime numbers table args (fuel + extra) i = some outcome := by
    intro fuel outcome ended extra
    induction extra with
    | zero => exact ended
    | succ extra ih => exact loopWithin_succ runtime numbers _ i ih
  have both := longer again fuel
  rw [Nat.add_comm, longer ended more] at both
  exact Option.some.inj both

/-- The loop ends as the loop over counts does. -/
theorem loopWithin_counts {table : OrderedHash Name Nat} {values : OrderedHash Name Json}
    (same : ∀ key, values.get? key = (table.get? key).map fun count => .int count)
    (args : List Json) (i : Nat) :
    ∃ fuel, loopWithin runtime numbers values args fuel (.int i) =
      some (raiseAt runtime args (rejectedFrom table args i)) := by
  have less : ∀ i : Nat, numbers.less (.int i) (.int args.length) =
      .ok (decide (i < args.length)) := by
    intro i
    rw [numbers.less_int]
    simp only [Int.ofNat_lt]
  have index : ∀ i : Nat, numbers.index args (.int i) = .ok (argAt args i) :=
    numbers.index_nat args
  fun_induction rejectedFrom table args i with
  | case1 i inside other =>
    refine ⟨1, ?_⟩
    simp only [loopWithin, iterate, less, inside, decide_true, index, same, bind,
      Except.bind, ↓reduceIte, other, Option.map_none, raiseAt]
  | case2 i inside skip opens ih =>
    obtain ⟨fuel, ended⟩ := ih
    refine ⟨fuel + 1, ?_⟩
    have next : ((i + (skip + 1) : Nat) : Int) = i + (skip + 1) := by push_cast; rfl
    rw [next] at ended
    simp only [loopWithin, iterate, less, inside, decide_true, index, same, bind,
      Except.bind, ↓reduceIte, opens, Option.map_some, numbers.plus_int, pure,
      Except.pure, ended]
  | case3 i past =>
    refine ⟨1, ?_⟩
    simp only [loopWithin, iterate, less, past, decide_false, bind, Except.bind,
      Bool.false_eq_true, ↓reduceIte, pure, Except.pure, raiseAt]

/-- Names that start with a hash of counts are validated as the hash form does. -/
theorem ends_counts_iff (args : List Json) (counts : List (String × Nat)) (rest : List Name)
    (outcome : Except Exn Unit) :
    Ends runtime numbers args
        (.value (.obj (counts.map fun entry => (entry.1, .int entry.2))) :: rest) outcome ↔
      validate runtime args
        (.hash (.ofList (counts.map fun entry => (.value (.str entry.1), entry.2)))) =
          outcome := by
  let entries : List (Name × Nat) := counts.map fun entry => (.value (.str entry.1), entry.2)
  let values : List (Name × Json) := entries.map fun entry => (entry.1, .int entry.2)
  have strings : ∀ name ∈ entries.map Prod.fst, name.isString = true := by
    rw [List.map_map, List.forall_mem_map]
    exact fun _ _ => rfl
  have keys : values.map Prod.fst = entries.map Prod.fst := by
    rw [List.map_map]
    rfl
  have swapped : swapKeys runtime (.ofList entries) = .ofList entries :=
    swapKeys_strings runtime fun key inside =>
      strings key ((OrderedHash.mem_keys_ofList entries key).mp inside)
  have swappedValues : swapKeys runtime (.ofList values) = .ofList values :=
    swapKeys_strings runtime fun key inside =>
      strings key (keys ▸ (OrderedHash.mem_keys_ofList values key).mp inside)
  have own : hashOf (some (.value (.obj (counts.map fun entry => (entry.1, .int entry.2))))) =
      .ofList values := by
    simp only [hashOf, values, entries, List.map_map]
    rfl
  obtain ⟨fuel, ended⟩ := loopWithin_counts runtime numbers
    (OrderedHash.get?_ofList_mapValues (fun count : Nat => Json.int count) entries) args 0
  rw [← swappedValues, ← own] at ended
  rw [validate, swapped]
  constructor
  · rintro ⟨more, again⟩
    exact loopWithin_unique runtime numbers ended again
  · rintro rfl
    exact ⟨fuel, ended⟩

end Counts

/-- Arithmetic on integers only. -/
def wholeNumbers : Numbers where
  plus
    | .int a, .int b => .ok (.int (a + b))
    | _, _ => .error ⟨"TypeError", ""⟩
  less
    | .int a, .int b => .ok (decide (a < b))
    | _, _ => .error ⟨"ArgumentError", ""⟩
  index array
    | .int (.ofNat i) => .ok (array.getD i .null)
    | .int (.negSucc i) => .ok (array.reverse.getD i .null)
    | _ => .error ⟨"TypeError", ""⟩
  plus_int _ _ := rfl
  less_int _ _ := rfl
  index_nat _ _ := rfl

/-- The number 1 passes as one of the names, but not as the key of a hash. -/
theorem hash_form_rejects_number :
    Ends JsonText.terse wholeNumbers [.int 1] [.value (.int 1)] (.ok ()) ∧
      validate JsonText.terse [.int 1] (.hash (zeroMap [.value (.int 1)])) =
        .error ⟨"ArgumentError", "1 not an acceptable arg"⟩ ∧
      ¬ Agree JsonText.terse wholeNumbers [.int 1] [.value (.int 1)] := by
  have list : Ends JsonText.terse wholeNumbers [.int 1] [.value (.int 1)] (.ok ()) :=
    ⟨0, by decide +kernel⟩
  have hash : validate JsonText.terse [.int 1] (.hash (zeroMap [.value (.int 1)])) =
      .error ⟨"ArgumentError", "1 not an acceptable arg"⟩ := by decide +kernel
  refine ⟨list, hash, fun agree => ?_⟩
  have passed := agree.forms.mp list
  rw [hash] at passed
  cases passed

end Rjr.Verif.Arguments
