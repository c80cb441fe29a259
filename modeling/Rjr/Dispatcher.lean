import Rjr.Result

/-!
# Dispatcher

`lib/rjr/dispatcher.rb` and the request object of `lib/rjr/request.rb`. Handlers and environments
are kept under signatures, a method name or a regular expression, in tables that remember the
order of registration. The method and the arguments of a request are unchecked JSON. Looking a
method up happens before the `begin` block of `dispatch`, so an exception there leaves it; what
the handler and the argument list do wrong happens inside, and becomes an error result.

A handler runs in the request object. The `@rjr_headers` it finds there are the hash that the
message was read into, and what it writes into them stays, whether it returns or raises.
-/

namespace Rjr

/-- What a handler or an environment is registered under. -/
inductive Signature where
  /-- A method name. -/
  | name (text : String)
  /-- A `Regexp`, by its source. -/
  | pattern (source : String)
  deriving DecidableEq, Repr

namespace Signature

/-- `signature == rjr_method`: only a string equals a string. -/
def is : Signature → Json → Bool
  | .name text, .str method => text == method
  | _, _ => false

/-- Whether a signature is a `Regexp`. -/
def isPattern : Signature → Bool
  | .pattern _ => true
  | .name _ => false

end Signature

/-- The `signature` argument of `Dispatcher#handle`: a signature, or an array of such arguments. -/
inductive SignatureArg where
  /-- A signature. -/
  | one (signature : Signature)
  /-- An array. -/
  | many (elements : List SignatureArg)

/-- The transports, as `RJR_NODE_TYPE` names them. -/
inductive NodeType where
  /-- `:local`. -/
  | localNode
  /-- `:tcp`. -/
  | tcp
  /-- `:unix`. -/
  | unix
  /-- `:ws`. -/
  | ws
  /-- `:web`. -/
  | web
  /-- `:amqp`. -/
  | amqp
  deriving DecidableEq, Repr

/-- The arguments a node gives to `Dispatcher#dispatch`. -/
structure DispatchArgs where
  /-- Method which the request is for. -/
  rjrMethod : Json
  /-- Arguments to be passed to the method. -/
  rjrMethodArgs : Json
  /-- Headers which came with the request, as they are when it is dispatched. -/
  rjrHeaders : OrderedHash String Json
  /-- Client address, for direct nodes. -/
  rjrClientIp : Option String
  /-- Client port, for direct nodes. -/
  rjrClientPort : Option Nat
  /-- Id of the node which the request came in on. -/
  rjrNodeId : Option String
  /-- Type of the node which the request came in on. -/
  rjrNodeType : Option NodeType
  deriving DecidableEq

/-- The object a handler runs in. -/
structure Request extends DispatchArgs where
  /-- Environment the handler is run in, by the name of its module. -/
  rjrEnv : Option String
  deriving DecidableEq

namespace Request

/-- `Request#initialize`; `||` replaces a method `false` by `nil` and missing arguments by the
empty list. -/
def new (args : DispatchArgs) : Request :=
  { args with
    rjrMethod := args.rjrMethod.orElse .null
    rjrMethodArgs := args.rjrMethodArgs.orElse (.arr [])
    rjrEnv := none }

/-- `Request#set_env`. -/
def setEnv (request : Request) (environment : String) : Request :=
  { request with rjrEnv := some environment }

/-- `request.set_env(environment) unless environment.nil?`. -/
def withEnv (request : Request) : Option String → Request
  | some environment => request.setEnv environment
  | none => request

end Request

/-- A registered handler, run in a request on its arguments: `@rjr_headers` as it leaves them, and
what it returns or raises. -/
abbrev Handler := Request → List Json → OrderedHash String Json × Except Exn Json

/-- A handler that does not write into the headers. -/
def Handler.ofBody (body : Request → List Json → Except Exn Json) : Handler :=
  fun request args => (request.rjrHeaders, body request args)

/-- `Request#handle`. Only an array can be joined for the log line before the handler is called. -/
def Request.handle (runtime : Runtime) (request : Request) (rjrHandler : Handler) :
    OrderedHash String Json × Except Exn Json :=
  match request.rjrMethodArgs with
  | .arr args => rjrHandler request args
  | other =>
    (request.rjrHeaders, .error (runtime.noMethodError "join" (runtime.inspect other)))

/-- `RJR::Dispatcher`. -/
structure Dispatcher where
  /-- Handlers by signature. -/
  handlers : OrderedHash Signature Handler
  /-- Environments by signature. -/
  environments : OrderedHash Signature String
  /-- Whether dispatched requests are kept. -/
  keepRequests : Bool
  /-- Requests which have been dispatched, with their results. -/
  requests : List (Request × Result)

/-- What a dispatch that returns leaves. -/
structure Performed where
  /-- The result. -/
  result : Result
  /-- The headers it was given, as they are afterwards. -/
  headers : OrderedHash String Json
  /-- The dispatcher afterwards. -/
  dispatcher : Dispatcher

namespace Dispatcher

variable {α : Type} (runtime : Runtime)

/-- A dispatcher without handlers. -/
def new (keepRequests : Bool) : Dispatcher := ⟨.empty, .empty, keepRequests, []⟩

/-- The end of `Dispatcher#handle`, for one signature: the callback is registered unless it is
`nil`, and then the block is. -/
def register (dispatcher : Dispatcher) (signature : Signature) (callback block : Option Handler) :
    Dispatcher :=
  let called := match callback with
    | some callback => { dispatcher with handlers := dispatcher.handlers.put signature callback }
    | none => dispatcher
  match block with
  | some block => { called with handlers := called.handlers.put signature block }
  | none => called

mutual

/-- `Dispatcher#handle`. -/
def handle (dispatcher : Dispatcher) (callback block : Option Handler) :
    SignatureArg → Dispatcher
  | .one signature => dispatcher.register signature callback block
  | .many elements => dispatcher.handleEach callback block elements

/-- `signature.each { |s| handle(s, callback, &bl) }`. -/
def handleEach (dispatcher : Dispatcher) (callback block : Option Handler) :
    List SignatureArg → Dispatcher
  | [] => dispatcher
  | element :: rest =>
    (dispatcher.handle callback block element).handleEach callback block rest

end

/-- The first registered pattern that matches. `Regexp#=~` answers `nil` on `nil` and raises on
anything that is not a string. -/
def patternFor (method : Json) : List (Signature × α) → Except Exn (Option α)
  | [] => .ok none
  | (.name _, _) :: rest => patternFor method rest
  | (.pattern source, registered) :: rest =>
    match method with
    | .str text =>
      if runtime.regexpMatch source text then .ok (some registered) else patternFor method rest
    | .null => patternFor method rest
    | other => .error (runtime.typeError other)

/-- The search `handler_for` and `env_for` share: an exact match first, then the patterns. -/
def registeredFor (table : OrderedHash Signature α) (method : Json) : Except Exn (Option α) :=
  match table.entries.find? fun entry => entry.1.is method with
  | some entry => .ok (some entry.2)
  | none => patternFor runtime method table.entries

/-- `Dispatcher#handler_for`. -/
def handlerFor (dispatcher : Dispatcher) (method : Json) : Except Exn (Option Handler) :=
  registeredFor runtime dispatcher.handlers method

/-- `Dispatcher#handler_for`, asked with a `Regexp`: only the same `Regexp` equals it, and `=~`
raises on it. -/
def handlerForPattern (dispatcher : Dispatcher) (source : String) :
    Except Exn (Option Handler) :=
  match dispatcher.handlers.get? (.pattern source) with
  | some handler => .ok (some handler)
  | none =>
    if dispatcher.handlers.keys.any Signature.isPattern then
      .error ⟨"TypeError", runtime.noConversion ("/" ++ source ++ "/")⟩
    else .ok none

/-- `Dispatcher#handler_for`, asked with a signature. -/
def resolve (dispatcher : Dispatcher) : Signature → Except Exn (Option Handler)
  | .name text => dispatcher.handlerFor runtime (.str text)
  | .pattern source => dispatcher.handlerForPattern runtime source

/-- `Dispatcher#handles?`. -/
def handles (dispatcher : Dispatcher) (method : Json) : Except Exn Bool :=
  (dispatcher.handlerFor runtime method).map Option.isSome

/-- `Dispatcher#env_for`. -/
def envFor (dispatcher : Dispatcher) (method : Json) : Except Exn (Option String) :=
  registeredFor runtime dispatcher.environments method

/-- `Dispatcher#store_request`. -/
def storeRequest (dispatcher : Dispatcher) (request : Request) (result : Result) : Dispatcher :=
  if dispatcher.keepRequests then
    { dispatcher with requests := dispatcher.requests ++ [(request, result)] }
  else dispatcher

/-- The `begin` block of `dispatch`: whatever the request does, it has a result. -/
def resultOf : Except Exn Json → Result
  | .ok retval => .ofReturn retval
  | .error raised => .ofRaise raised

/-- `Dispatcher#dispatch` after the lookups. The request that is stored has the headers the handler
has left. -/
def perform (dispatcher : Dispatcher) (args : DispatchArgs) (environment : Option String) :
    Option Handler → Performed
  | none => ⟨.methodNotFound runtime args.rjrMethod, args.rjrHeaders, dispatcher⟩
  | some handler =>
    let request := (Request.new args).withEnv environment
    let (headers, returned) := request.handle runtime handler
    let result := resultOf returned
    ⟨result, headers, dispatcher.storeRequest { request with rjrHeaders := headers } result⟩

/-- `Dispatcher#dispatch`. Both lookups are outside of its `begin` block. -/
def dispatch (dispatcher : Dispatcher) (args : DispatchArgs) : Except Exn Performed := do
  let handler ← dispatcher.handlerFor runtime args.rjrMethod
  let environment ← dispatcher.envFor runtime args.rjrMethod
  return dispatcher.perform runtime args environment handler

/-- `fail message`: a string is the message of a `RuntimeError`, anything else cannot be
raised. -/
def failWith : Json → Exn
  | .str message => ⟨"RuntimeError", message⟩
  | _ => ⟨"TypeError", "exception class/object expected"⟩

/-- `Dispatcher#handle_response`. -/
def handleResponse (result : Result) : Except Exn Json :=
  if result.success then .ok result.result else .error (failWith result.errorMsg)

/-! ## Which lookups raise -/

/-- A method the lookup can compare with every signature: a string or `nil`. -/
def Comparable (method : Json) : Prop := method = .null ∨ ∃ text, method = .str text

/-- The pattern search does not raise on a method it can compare. -/
theorem patternFor_comparable (method : Json) (comparable : Comparable method)
    (entries : List (Signature × α)) : ∃ found, patternFor runtime method entries = .ok found := by
  induction entries with
  | nil => exact ⟨none, rfl⟩
  | cons entry rest ih =>
    obtain ⟨signature, registered⟩ := entry
    cases signature with
    | name text => exact ih
    | pattern source =>
      rcases comparable with rfl | ⟨text, rfl⟩
      · exact ih
      · by_cases hit : runtime.regexpMatch source text = true
        · exact ⟨some registered, by simp only [patternFor, hit, ↓reduceIte]⟩
        · simp only [patternFor, hit]
          exact ih

/-- On any other method the pattern search raises exactly when there is a pattern. -/
theorem patternFor_incomparable (method : Json) (incomparable : ¬ Comparable method)
    (entries : List (Signature × α)) :
    patternFor runtime method entries =
      if entries.any fun entry => entry.1.isPattern then .error (runtime.typeError method)
      else .ok none := by
  induction entries with
  | nil => rfl
  | cons entry rest ih =>
    obtain ⟨signature, registered⟩ := entry
    cases signature with
    | name text =>
      rw [patternFor, ih]
      rfl
    | pattern source =>
      cases method with
      | null => exact absurd (.inl rfl) incomparable
      | str text => exact absurd (.inr ⟨text, rfl⟩) incomparable
      | bool flag => rfl
      | int number => rfl
      | float word => rfl
      | arr elements => rfl
      | obj members => rfl
      | object cls identity => rfl

/-- A lookup does not raise on a method it can compare. -/
theorem registeredFor_comparable (table : OrderedHash Signature α) (method : Json)
    (comparable : Comparable method) :
    ∃ found, registeredFor runtime table method = .ok found := by
  unfold registeredFor
  split
  · exact ⟨_, rfl⟩
  · exact patternFor_comparable runtime method comparable table.entries

/-- On any other method a lookup raises exactly when the table has a pattern. -/
theorem registeredFor_incomparable (table : OrderedHash Signature α) (method : Json)
    (incomparable : ¬ Comparable method) :
    registeredFor runtime table method =
      if table.entries.any fun entry => entry.1.isPattern then .error (runtime.typeError method)
      else .ok none := by
  have noString : ∀ signature : Signature, signature.is method = false := by
    intro signature
    cases method with
    | str text => exact absurd (.inr ⟨text, rfl⟩) incomparable
    | _ => cases signature <;> rfl
  have noExact : table.entries.find? (fun entry => entry.1.is method) = none := by
    rw [List.find?_eq_none]
    intro entry _
    rw [noString]
    decide
  rw [registeredFor, noExact]
  exact patternFor_incomparable runtime method incomparable table.entries

/-- A method every lookup of a dispatcher returns on: it can be compared, or there is no pattern
to compare it with. -/
def Searchable (dispatcher : Dispatcher) (method : Json) : Prop :=
  Comparable method ∨ ∀ signature ∈ dispatcher.handlers.keys ++ dispatcher.environments.keys,
    signature.isPattern = false

/-- A table without patterns, by its keys. -/
theorem any_isPattern (table : OrderedHash Signature α) :
    (table.entries.any fun entry => entry.1.isPattern) = true ↔
      ∃ signature ∈ table.keys, signature.isPattern = true := by
  simp only [List.any_eq_true, OrderedHash.keys, List.mem_map]
  constructor
  · rintro ⟨entry, inside, pattern⟩
    exact ⟨entry.1, ⟨entry, inside, rfl⟩, pattern⟩
  · rintro ⟨_, ⟨entry, inside, rfl⟩, pattern⟩
    exact ⟨entry, inside, pattern⟩

/-- **Dispatching returns exactly on searchable methods.** It raises on a method that is neither
a string nor `nil` as soon as a handler or an environment has a pattern as its signature. -/
theorem dispatch_returns_iff (dispatcher : Dispatcher) (args : DispatchArgs) :
    (∃ performed, dispatcher.dispatch runtime args = .ok performed) ↔
      dispatcher.Searchable args.rjrMethod := by
  by_cases comparable : Comparable args.rjrMethod
  · obtain ⟨handler, handlerFound⟩ :=
      registeredFor_comparable runtime dispatcher.handlers args.rjrMethod comparable
    obtain ⟨environment, environmentFound⟩ :=
      registeredFor_comparable runtime dispatcher.environments args.rjrMethod comparable
    refine iff_of_true ⟨dispatcher.perform runtime args environment handler, ?_⟩ (.inl comparable)
    simp only [dispatch, handlerFor, envFor, handlerFound, environmentFound]
    rfl
  · have handlers :=
      registeredFor_incomparable runtime dispatcher.handlers args.rjrMethod comparable
    have environments :=
      registeredFor_incomparable runtime dispatcher.environments args.rjrMethod comparable
    have searchable : dispatcher.Searchable args.rjrMethod ↔
        ¬ ((dispatcher.handlers.entries.any fun entry => entry.1.isPattern) = true) ∧
          ¬ ((dispatcher.environments.entries.any fun entry => entry.1.isPattern) = true) := by
      simp only [Searchable, comparable, false_or, any_isPattern, List.mem_append, or_imp,
        forall_and, not_exists, not_and, Bool.not_eq_true]
    rw [searchable]
    by_cases first : (dispatcher.handlers.entries.any fun entry => entry.1.isPattern) = true
    · refine iff_of_false ?_ fun both => both.1 first
      rintro ⟨performed, returned⟩
      simp only [dispatch, handlerFor, handlers, if_pos first] at returned
      cases returned
    · by_cases second :
          (dispatcher.environments.entries.any fun entry => entry.1.isPattern) = true
      · refine iff_of_false ?_ fun both => both.2 second
        rintro ⟨performed, returned⟩
        simp only [dispatch, handlerFor, envFor, handlers, environments, if_neg first,
          if_pos second] at returned
        cases returned
      · refine iff_of_true ⟨dispatcher.perform runtime args none none, ?_⟩ ⟨first, second⟩
        simp only [dispatch, handlerFor, envFor, handlers, environments, if_neg first,
          if_neg second]
        rfl

/-! ## What a lookup finds -/

/-- A registered pattern that is found is an entry of the table. -/
theorem patternFor_mem (method : Json)
    (entries : List (Signature × α)) {registered : α}
    (found : patternFor runtime method entries = .ok (some registered)) :
    ∃ entry ∈ entries, entry.2 = registered := by
  induction entries with
  | nil => cases found
  | cons entry rest ih =>
    have later : patternFor runtime method rest = .ok (some registered) →
        ∃ other ∈ entry :: rest, other.2 = registered := by
      intro again
      obtain ⟨other, inside, same⟩ := ih again
      exact ⟨other, List.mem_cons_of_mem _ inside, same⟩
    obtain ⟨signature, here⟩ := entry
    cases signature with
    | name text => exact later found
    | pattern source =>
      cases method with
      | null => exact later found
      | str text =>
        simp only [patternFor] at found
        split at found
        · cases found
          exact ⟨_, List.mem_cons_self, rfl⟩
        · exact later found
      | bool flag => cases found
      | int number => cases found
      | float word => cases found
      | arr elements => cases found
      | obj members => cases found
      | object cls identity => cases found

/-- What a lookup finds is an entry of the table. -/
theorem registeredFor_mem (method : Json)
    (table : OrderedHash Signature α) {registered : α}
    (found : registeredFor runtime table method = .ok (some registered)) :
    ∃ entry ∈ table.entries, entry.2 = registered := by
  unfold registeredFor at found
  split at found
  · rename_i entry exactly
    cases found
    exact ⟨entry, List.mem_of_find?_eq_some exactly, rfl⟩
  · exact patternFor_mem runtime method table.entries found

/-- A dispatch is a lookup of the handler, one of the environment, and the call. -/
theorem dispatch_eq {dispatcher : Dispatcher} {args : DispatchArgs}
    {handler : Option Handler} {environment : Option String}
    (handlerFound : dispatcher.handlerFor runtime args.rjrMethod = .ok handler)
    (environmentFound : dispatcher.envFor runtime args.rjrMethod = .ok environment) :
    dispatcher.dispatch runtime args =
      .ok (dispatcher.perform runtime args environment handler) := by
  simp only [dispatch, handlerFound, environmentFound]
  rfl

/-- A dispatch that returns has looked up a handler and an environment, and performed the
request. -/
theorem dispatch_cases {dispatcher : Dispatcher} {args : DispatchArgs} {performed : Performed}
    (returned : dispatcher.dispatch runtime args = .ok performed) :
    ∃ handler environment, dispatcher.handlerFor runtime args.rjrMethod = .ok handler ∧
      dispatcher.envFor runtime args.rjrMethod = .ok environment ∧
      performed = dispatcher.perform runtime args environment handler := by
  unfold dispatch at returned
  cases handlerFound : dispatcher.handlerFor runtime args.rjrMethod with
  | error raised =>
    rw [handlerFound] at returned
    cases returned
  | ok handler =>
    cases environmentFound : dispatcher.envFor runtime args.rjrMethod with
    | error raised =>
      rw [handlerFound, environmentFound] at returned
      cases returned
    | ok environment =>
      rw [handlerFound, environmentFound] at returned
      cases returned
      exact ⟨handler, environment, rfl, rfl, rfl⟩

/-! ## What a dispatch leaves -/

/-- Dispatching changes neither table of signatures. -/
theorem dispatch_tables {dispatcher : Dispatcher} {args : DispatchArgs} {performed : Performed}
    (returned : dispatcher.dispatch runtime args = .ok performed) :
    performed.dispatcher.handlers = dispatcher.handlers ∧
      performed.dispatcher.environments = dispatcher.environments := by
  have stored : ∀ request result,
      (dispatcher.storeRequest request result).handlers = dispatcher.handlers ∧
        (dispatcher.storeRequest request result).environments = dispatcher.environments := by
    intro request result
    unfold storeRequest
    split
    · exact ⟨rfl, rfl⟩
    · exact ⟨rfl, rfl⟩
  obtain ⟨handler, environment, -, -, rfl⟩ := dispatch_cases runtime returned
  cases handler with
  | none => exact ⟨rfl, rfl⟩
  | some handler => exact stored _ _

end Dispatcher

end Rjr
