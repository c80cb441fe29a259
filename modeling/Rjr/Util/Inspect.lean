import Rjr.StoredRequest

/-!
# Selecting stored requests

`select_stats` of `lib/rjr/util/inspect.rb`. A filter is a list of words, some of which are
followed by an argument. The words are consumed one after the other and turned into closures, and
the closures are called when all words have been consumed. The arguments are kept in the variables
`n` and `m` of the method: the body of a `while` loop has no variables of its own, so every
closure sees the arguments that were assigned last. A word that is not known makes no closure, and
`nil` is called in its place.
-/

namespace Rjr.Inspect

/-- The variables of `select_stats` that its closures share. -/
structure Shared where
  /-- The last argument of `on_node`. -/
  n : Json := .null
  /-- The last argument of `for_method`. -/
  m : Json := .null

/-- A closure over these variables, by its body. -/
inductive Closure where
  /-- `req.rjr_node_type.to_s == n`. -/
  | onNode
  /-- `req.rjr_method == m`. -/
  | forMethod
  /-- `req.result.success`. -/
  | successful
  /-- `req.result.failed`. -/
  | failed
  deriving DecidableEq, Repr

/-- `filter.shift`: the first word, or `nil`, and the rest. -/
def shift (filter : List Json) : Json × List Json := (filter.headD .null, filter.tail)

/-- The loop over the filter: the closures, `nil` for a word that is not known, and the variables
as they are after the loop. -/
def gather (shared : Shared) : List Json → List (Option Closure) × Shared
  | [] => ([], shared)
  | q :: rest =>
    if q.truthy = false then ([], shared)
    else if q = .str "on_node" then
      let gathered := gather { shared with n := (shift rest).1 } (shift rest).2
      (some .onNode :: gathered.1, gathered.2)
    else if q = .str "for_method" then
      let gathered := gather { shared with m := (shift rest).1 } (shift rest).2
      (some .forMethod :: gathered.1, gathered.2)
    else
      let closure := if q = .str "successful" then some .successful
        else if q = .str "failed" then some .failed else none
      let gathered := gather shared rest
      (closure :: gathered.1, gathered.2)
termination_by filter => filter.length
decreasing_by
  all_goals simp only [shift, List.length_tail, List.length_cons]; omega

section Calls

variable (runtime : Runtime) (equal : Json → Json → Bool) (shared : Shared)

/-- A closure is called with a stored request; `equal` is `==`. -/
def Closure.call (stored : StoredRequest) : Closure → Except Exn Bool
  | .onNode => .ok (.str (runtime.toS stored.rjrNodeType) = shared.n)
  | .forMethod => .ok (equal stored.rjrMethod shared.m)
  | .successful =>
    match stored.result with
    | some result => .ok result.success
    | none => .error (runtime.noMethodError "success" "nil")
  | .failed =>
    match stored.result with
    | some result => .ok result.failed
    | none => .error (runtime.noMethodError "failed" "nil")

/-- `lf.all? { |lfi| lfi.call(ds) }`. -/
def callAll (stored : StoredRequest) : List (Option Closure) → Except Exn Bool
  | [] => .ok true
  | none :: _ => .error (runtime.noMethodError "call" "nil")
  | some closure :: rest => do
    if ← closure.call runtime equal shared stored then callAll stored rest else return false

/-- `requests.select { |ds| lf.all? { |lfi| lfi.call(ds) } }`. -/
def selectFrom (closures : List (Option Closure)) :
    List StoredRequest → Except Exn (List StoredRequest)
  | [] => .ok []
  | stored :: rest => do
    let passes ← callAll runtime equal shared stored closures
    let selected ← selectFrom closures rest
    return if passes then stored :: selected else selected

end Calls

/-- `select_stats`, on what `dispatcher.requests` returns. -/
def selectStats (runtime : Runtime) (equal : Json → Json → Bool) (requests : List StoredRequest)
    (filter : List Json) : Except Exn (List StoredRequest) :=
  let gathered := gather {} filter
  selectFrom runtime equal gathered.2 gathered.1 requests

end Rjr.Inspect
