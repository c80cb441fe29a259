import Mathlib.Data.List.Find
import Rjr.Util.HandlesMethods
import Rjr.Util.JsonText
import Rjr.Verif.Registrations

/-!
# What a class declares

A declaration is a list of signatures with the id of a handler method or without one.
`dispatch_to` sees only one list and has to guess, so what it reads may be another handler method
and other signatures than were meant. The dispatcher ends up with what was declared exactly when,
for every signature, the last declaration that is read to register it is read with the handler
method that the last declaration naming it means. The procs of the class are counted along its
runs: the class keeps each under its id, at the position of its number, so a method has one proc
however often `dispatch_to` is called, unless it is named by a string and by a symbol.
-/

namespace Rjr.Verif.Declarations

open HandlesMethods Registrations

/-- What an argument of `jr_method` stands for, as a signature. -/
def MethodArg.signature : MethodArg → Signature
  | .string text => .name text
  | .symbol text => .name text
  | .regexp source _ _ => .pattern source

/-- A call of `jr_method`, as it is meant. -/
structure Declaration where
  /-- The json-rpc signatures. -/
  signatures : List MethodArg
  /-- There is a signature. -/
  nonempty : signatures ≠ []
  /-- The id of a local handler method, if one follows. -/
  handlerId : Option MethodArg

namespace Declaration

/-- The arguments of the call. -/
def args (declaration : Declaration) : List MethodArg :=
  declaration.signatures ++ declaration.handlerId.toList

/-- There is an argument. -/
theorem args_ne_nil (declaration : Declaration) : declaration.args ≠ [] :=
  List.append_ne_nil_of_left_ne_nil declaration.nonempty _

/-- The handler method. -/
def method (declaration : Declaration) : MethodArg :=
  declaration.handlerId.getD (.symbol "handle")

/-- Whether a declaration names a signature. -/
def names (declaration : Declaration) (signature : Signature) : Bool :=
  declaration.signatures.any fun arg => MethodArg.signature arg = signature

/-- The last argument, a signature or the id of a handler method. -/
def last (declaration : Declaration) : MethodArg :=
  declaration.args.getLast declaration.args_ne_nil

section Guess

variable (methods : String → Bool)

/-- The handler method that a declaration is read with. -/
def handlerMethod (declaration : Declaration) : MethodArg :=
  if methods declaration.last.toS then declaration.last else .symbol "handle"

/-- The json-rpc methods that a declaration is read to have. -/
def jrMethods (declaration : Declaration) : List MethodArg :=
  if methods declaration.last.toS then declaration.args.dropLast else declaration.args

/-- The signatures as they are registered. -/
def registered (declaration : Declaration) : List Signature :=
  (declaration.jrMethods methods).map fun arg => .name arg.toS

/-- Whether a declaration is read to register a signature. -/
def registers (declaration : Declaration) (signature : Signature) : Bool :=
  (declaration.registered methods).contains signature

end Guess

end Declaration

/-- What a lookup finds is the proc that a class keeps for a handler method. -/
def Finds (proc : Nat → MethodArg → Handler) (cls : HandlerClass) (method : MethodArg)
    (found : Except Exn (Option Handler)) : Prop :=
  ∃ number kept, kept.toS = method.toS ∧ cls.jrHandlers.get? kept = some (proc number kept) ∧
    found = .ok (some (proc number kept))

/-- The declarations are registered. -/
structure Registered (runtime : Runtime) (proc : Nat → MethodArg → Handler)
    (declarations : List Declaration) (dispatched : Dispatched) : Prop where
  /-- `dispatch_to` returns. -/
  returned : dispatched.outcome = .ok ()
  /-- The first argument of each declaration is handled. -/
  handled : ∀ declaration ∈ declarations, ∀ first, declaration.args.head? = some first →
    (dispatched.dispatcher.resolve runtime (MethodArg.signature first)).map Option.isSome =
      .ok true
  /-- A signature resolves to the proc for the handler method of the last declaration that names
  it. -/
  resolves : ∀ signature declaration,
    declarations.reverse.find? (fun declaration => declaration.names signature) =
        some declaration →
      Finds proc dispatched.handlerClass declaration.method
        (dispatched.dispatcher.resolve runtime signature)
  /-- Two handler methods have one proc if and only if they are the same. -/
  single : ∀ one ∈ dispatched.handlerClass.jrHandlers.keys,
    ∀ other ∈ dispatched.handlerClass.jrHandlers.keys,
      dispatched.handlerClass.jrHandlers.get? one = dispatched.handlerClass.jrHandlers.get? other ↔
        one.toS = other.toS

/-- What `dispatch_to` guesses right, or well enough. -/
structure Unambiguous (runtime : Runtime) (proc : Nat → MethodArg → Handler)
    (methods : String → Bool) (cls : HandlerClass) (dispatcher : Dispatcher)
    (declarations : List Declaration) : Prop where
  /-- Something is declared. -/
  declared : declarations ≠ []
  /-- The last argument of each declaration is a string or a symbol. -/
  last : ∀ declaration ∈ declarations, declaration.last.isName = true
  /-- The last declaration that is read to register a signature has the handler method of the last
  one that names it. -/
  agrees : ∀ signature declaration,
    declarations.reverse.find? (fun declaration => declaration.names signature) =
        some declaration →
      ∀ other, declarations.reverse.find?
          (fun declaration => declaration.registers methods signature) = some other →
        (other.handlerMethod methods).toS = declaration.method.toS
  /-- A signature that none is read to register had the proc in the dispatcher before. -/
  before : ∀ signature declaration,
    declarations.reverse.find? (fun declaration => declaration.names signature) =
        some declaration →
      declarations.reverse.find? (fun declaration => declaration.registers methods signature) =
          none →
        Finds proc (dispatchTo proc runtime methods cls dispatcher).handlerClass
          declaration.method (dispatcher.resolve runtime signature)
  /-- A handler method is named by a string or by a symbol, not by both. -/
  spelled : ∀ one other,
    (one ∈ cls.jrHandlers.keys ∨
      ∃ declaration ∈ declarations, declaration.handlerMethod methods = one) →
    (other ∈ cls.jrHandlers.keys ∨
      ∃ declaration ∈ declarations, declaration.handlerMethod methods = other) →
    one.toS = other.toS → one = other

/-! ## The guess -/

section Guess

variable {methods : String → Bool} {declaration : Declaration}

/-- A declaration that ends in a string or a symbol is read in one of two ways. -/
theorem extractHandlerMethod_args (name : declaration.last.isName = true) :
    extractHandlerMethod methods declaration.args =
      .ok (declaration.handlerMethod methods, declaration.jrMethods methods) := by
  have defined : methodDefined methods declaration.last = .ok (methods declaration.last.toS) := by
    cases last : declaration.last with
    | regexp source text printed =>
      rw [last] at name
      cases name
    | _ => rfl
  rw [extractHandlerMethod, List.getLast?_eq_getLast_of_ne_nil declaration.args_ne_nil,
    Declaration.handlerMethod, Declaration.jrMethods]
  change (methodDefined methods declaration.last >>= _) = _
  rw [defined]
  cases methods declaration.last.toS <;> rfl

/-- A declaration that ends in a `Regexp` cannot be read. -/
theorem isName_of_extractHandlerMethod {read : MethodArg × List MethodArg}
    (readable : extractHandlerMethod methods declaration.args = .ok read) :
    declaration.last.isName = true := by
  rw [extractHandlerMethod, List.getLast?_eq_getLast_of_ne_nil declaration.args_ne_nil]
    at readable
  change (methodDefined methods declaration.last >>= _) = _ at readable
  cases last : declaration.last with
  | regexp source text printed =>
    rw [last] at readable
    cases readable
  | _ => rfl

/-- Only names are registered. -/
theorem isPattern_registered {signature : Signature}
    (inside : signature ∈ declaration.registered methods) : signature.isPattern = false := by
  obtain ⟨arg, _, rfl⟩ := List.mem_map.mp inside
  rfl

end Guess

/-! ## The procs of a class -/

section Procs

variable (proc : Nat → MethodArg → Handler)

/-- Each handler method has one proc, whose number is the position of the method. -/
structure Made (cls : HandlerClass) : Prop where
  /-- As many procs were created as there are handler methods. -/
  count : cls.created = cls.jrHandlers.keys.length
  /-- The procs are kept under their methods, in the order of creation. -/
  procs : ∀ method ∈ cls.jrHandlers.keys,
    cls.jrHandlers.get? method = some (proc (cls.jrHandlers.keys.idxOf method) method)
  /-- A list of declarations is not empty. -/
  declared : cls.jrMethodArgs ≠ some []

/-- What obtaining a handler does to the class. -/
structure Obtained (cls : HandlerClass) (method : MethodArg)
    (obtained : Option Handler × HandlerClass) : Prop where
  /-- The procs are still as they should be. -/
  made : Made proc obtained.2
  /-- The handler is the one that is now kept. -/
  kept : obtained.1 = obtained.2.jrHandlers.get? method
  /-- The method now has a handler, besides those that had one. -/
  keys : ∀ other, other ∈ obtained.2.jrHandlers.keys ↔
    other ∈ cls.jrHandlers.keys ∨ other = method
  /-- Other methods keep the handlers they have. -/
  others : ∀ other ∈ cls.jrHandlers.keys,
    obtained.2.jrHandlers.get? other = cls.jrHandlers.get? other

/-- A handler is obtained without changing those that are there. -/
theorem obtainHandler_obtained {cls : HandlerClass} (made : Made proc cls) (method : MethodArg) :
    Obtained proc cls method (obtainHandler proc cls method) := by
  by_cases present : method ∈ cls.jrHandlers.keys
  · have has : hasHandlerFor cls method = true :=
      (cls.jrHandlers.has_eq_true_iff method).mpr present
    rw [obtainHandler, if_pos has]
    refine ⟨made, rfl, fun other => ⟨.inl, ?_⟩, fun other inside => rfl⟩
    rintro (inside | rfl)
    · exact inside
    · exact present
  · have has : ¬ hasHandlerFor cls method = true := by
      rw [hasHandlerFor, cls.jrHandlers.has_eq_true_iff]
      exact present
    have keys : (cls.jrHandlers.put method (proc cls.created method)).keys =
        cls.jrHandlers.keys ++ [method] := by
      simp [OrderedHash.keys, cls.jrHandlers.put_absent method _ present]
    rw [obtainHandler, if_neg has]
    constructor
    · constructor
      · rw [createHandlerFor, keys, List.length_append, made.count, List.length_singleton]
      · intro other inside
        simp only [createHandlerFor, keys, List.mem_append, List.mem_singleton] at inside ⊢
        rw [OrderedHash.get?_put]
        by_cases same : other = method
        · rw [if_pos same, same, List.idxOf_append_of_notMem present, made.count]
          simp
        · have old : other ∈ cls.jrHandlers.keys := by simpa [same] using inside
          rw [if_neg same, List.idxOf_append_of_mem old, made.procs other old]
      · exact made.declared
    · simp [createHandlerFor, OrderedHash.get?_put]
    · intro other
      rw [createHandlerFor, keys, List.mem_append, List.mem_singleton]
    · intro other inside
      have differs : other ≠ method := by
        intro same
        exact present (same ▸ inside)
      simp [createHandlerFor, OrderedHash.get?_put, differs]

/-- `dispatch_to` creates procs as it should, whether or not it raises. -/
theorem made_dispatchEach (methods : String → Bool) (declared : List (List MethodArg)) :
    ∀ (cls : HandlerClass) (dispatcher : Dispatcher), Made proc cls →
      Made proc (dispatchEach proc methods declared cls dispatcher).handlerClass := by
  induction declared with
  | nil => exact fun _ _ made => made
  | cons args rest ih =>
    intro cls dispatcher made
    rw [dispatchEach]
    cases extractHandlerMethod methods args with
    | error raised => exact made
    | ok read => exact ih _ _ (obtainHandler_obtained proc made read.1).made

/-- The procs are as they should be in every run of a class. -/
theorem made_run (runtime : Runtime) (events : List ClassEvent) (cls : HandlerClass)
    (reached : (machine proc runtime).run loaded events = some cls) : Made proc cls := by
  have keeps : ∀ cls event next, Made proc cls →
      (machine proc runtime).step cls event = some next → Made proc next := by
    intro cls event next made stepped
    cases stepped
    cases event with
    | jrMethod args =>
      refine ⟨made.count, made.procs, fun empty => ?_⟩
      exact List.append_ne_nil_of_right_ne_nil _ (List.cons_ne_nil _ _) (Option.some.inj empty)
    | dispatchTo methods dispatcher =>
      rw [step, dispatchTo]
      cases cls.jrMethodArgs with
      | none => exact made
      | some declared => exact made_dispatchEach proc methods declared cls dispatcher made
  have start : Made proc loaded :=
    ⟨rfl, fun _ inside => absurd inside List.not_mem_nil, fun some => by cases some⟩
  exact (machine proc runtime).run_invariant (Made proc) keeps events loaded cls start reached

section Distinct

variable {proc} {cls : HandlerClass} (made : Made proc cls)
  (distinct : ∀ first second one other, proc first one = proc second other → first = second)
include made distinct

/-- Two handler methods that have one proc are the same. -/
theorem get?_inj {one other : MethodArg} (first : one ∈ cls.jrHandlers.keys)
    (second : other ∈ cls.jrHandlers.keys)
    (same : cls.jrHandlers.get? one = cls.jrHandlers.get? other) : one = other := by
  rw [made.procs one first, made.procs other second] at same
  exact (List.idxOf_inj first).mp (distinct _ _ _ _ (Option.some.inj same))

/-- A kept proc is that of a handler method if it is kept for a method of that name. -/
theorem finds_kept_iff {kept : MethodArg} (known : kept ∈ cls.jrHandlers.keys)
    (method : MethodArg) :
    Finds proc cls method (.ok (cls.jrHandlers.get? kept)) ↔ kept.toS = method.toS := by
  constructor
  · rintro ⟨number, other, name, has, found⟩
    have inside : other ∈ cls.jrHandlers.keys :=
      (cls.jrHandlers.has_eq_true_iff other).mp (by rw [OrderedHash.has, has]; rfl)
    rw [get?_inj made distinct known inside ((Except.ok.inj found).trans has.symm), name]
  · intro name
    exact ⟨_, kept, name, made.procs kept known, by rw [made.procs kept known]⟩

end Distinct

/-! ## The registrations of a class -/

/-- The registrations of declarations, with the handlers that a class keeps. -/
def declaredEntries (methods : String → Bool) (cls : HandlerClass)
    (declarations : List Declaration) : List (Signature × Handler) :=
  declarations.flatMap fun declaration =>
    effective (cls.jrHandlers.get? (declaration.handlerMethod methods)) none
      (declaration.registered methods)

/-- An array of signatures has them as its leaves. -/
theorem leaves_names (methods : String → Bool) (declaration : Declaration) :
    leaves (.many ((declaration.jrMethods methods).map fun m => .one (.name m.toS))) =
      declaration.registered methods := by
  rw [leaves, Declaration.registered]
  induction declaration.jrMethods methods with
  | nil => rfl
  | cons first rest ih =>
    rw [List.map_cons, leavesEach, ih]
    rfl

/-- What `dispatch_to` leaves behind when it can read the declarations. -/
structure Done (methods : String → Bool) (cls : HandlerClass) (dispatcher : Dispatcher)
    (declarations : List Declaration) (dispatched : Dispatched) : Prop where
  /-- It returns. -/
  returned : dispatched.outcome = .ok ()
  /-- The procs are as they should be. -/
  made : Made proc dispatched.handlerClass
  /-- Handler methods keep the handlers they have. -/
  others : ∀ other ∈ cls.jrHandlers.keys,
    dispatched.handlerClass.jrHandlers.get? other = cls.jrHandlers.get? other
  /-- Every handler method of a declaration has a handler, besides those that had one. -/
  keys : ∀ method, method ∈ dispatched.handlerClass.jrHandlers.keys ↔
    method ∈ cls.jrHandlers.keys ∨
      ∃ declaration ∈ declarations, declaration.handlerMethod methods = method
  /-- The dispatcher has the declarations, one after the other. -/
  written : dispatched.dispatcher.handlers =
    dispatcher.handlers.putAll (declaredEntries methods dispatched.handlerClass declarations)

/-- The loop registers the declarations that it reads. -/
theorem dispatchEach_done (methods : String → Bool) (declarations : List Declaration)
    (read : ∀ declaration ∈ declarations, declaration.last.isName = true) :
    ∀ (cls : HandlerClass) (dispatcher : Dispatcher), Made proc cls →
      Done proc methods cls dispatcher declarations
        (dispatchEach proc methods (declarations.map Declaration.args) cls dispatcher) := by
  induction declarations with
  | nil =>
    intro cls dispatcher made
    exact ⟨rfl, made, fun _ _ => rfl, fun _ => by simp [dispatchEach], rfl⟩
  | cons declaration rest ih =>
    intro cls dispatcher made
    rw [List.forall_mem_cons] at read
    let method := declaration.handlerMethod methods
    obtain ⟨made', kept, keys, others⟩ := obtainHandler_obtained proc made method
    have handled : (dispatcher.handle (obtainHandler proc cls method).1 none
        (.many ((declaration.jrMethods methods).map fun m => .one (.name m.toS)))).handlers =
          dispatcher.handlers.putAll (effective ((obtainHandler proc cls
            method).2.jrHandlers.get? method) none (declaration.registered methods)) := by
      rw [handle_handlers, leaves_names, kept]
    simp only [List.map_cons, dispatchEach, extractHandlerMethod_args read.1]
    have done := ih read.2 _ (dispatcher.handle (obtainHandler proc cls method).1 none
      (.many ((declaration.jrMethods methods).map fun m => .one (.name m.toS)))) made'
    have own := done.others method ((keys method).mpr (.inr rfl))
    refine ⟨done.returned, done.made, ?_, ?_, ?_⟩
    · intro other inside
      exact (done.others other ((keys other).mpr (.inl inside))).trans (others other inside)
    · intro other
      rw [done.keys, keys, or_assoc, List.exists_mem_cons_iff, eq_comm]
    · rw [done.written, handled, ← own, ← OrderedHash.putAll_append]
      rfl

/-- The loop returns only if it can read all declarations. -/
theorem isName_of_returned (methods : String → Bool) (declarations : List Declaration) :
    ∀ (cls : HandlerClass) (dispatcher : Dispatcher),
      (dispatchEach proc methods (declarations.map Declaration.args) cls dispatcher).outcome =
        .ok () →
      ∀ declaration ∈ declarations, declaration.last.isName = true := by
  induction declarations with
  | nil => exact fun _ _ _ _ inside => absurd inside List.not_mem_nil
  | cons declaration rest ih =>
    intro cls dispatcher returned
    rw [List.map_cons, dispatchEach] at returned
    cases read : extractHandlerMethod methods declaration.args with
    | error raised =>
      rw [read] at returned
      cases returned
    | ok reading =>
      rw [read] at returned
      rw [List.forall_mem_cons]
      exact ⟨isName_of_extractHandlerMethod read, ih _ _ returned⟩

/-- The last declaration that is read to register a signature decides about its entry. -/
theorem lookup_declaredEntries {methods : String → Bool} {cls : HandlerClass}
    {declarations : List Declaration}
    (known : ∀ declaration ∈ declarations,
      declaration.handlerMethod methods ∈ cls.jrHandlers.keys) (signature : Signature) :
    (declaredEntries methods cls declarations).reverse.lookup signature =
      (declarations.reverse.find? fun declaration =>
        declaration.registers methods signature).bind fun declaration =>
          cls.jrHandlers.get? (declaration.handlerMethod methods) := by
  have entries : ∀ (signatures : List Signature) (handler : Handler),
      (signatures.map fun signature => (signature, handler)).lookup signature =
        if signatures.contains signature then some handler else none := by
    intro signatures handler
    induction signatures with
    | nil => rfl
    | cons first rest ih =>
      rw [List.map_cons, OrderedHash.lookup_cons_if, ih, List.contains_cons]
      by_cases same : signature = first <;> simp [same]
  have latest : ∀ newest : List Declaration,
      (∀ declaration ∈ newest, declaration.handlerMethod methods ∈ cls.jrHandlers.keys) →
      (newest.flatMap fun declaration =>
          (effective (cls.jrHandlers.get? (declaration.handlerMethod methods)) none
            (declaration.registered methods)).reverse).lookup signature =
        (newest.find? fun declaration => declaration.registers methods signature).bind
          fun declaration => cls.jrHandlers.get? (declaration.handlerMethod methods) := by
    intro newest
    induction newest with
    | nil => exact fun _ => rfl
    | cons first rest ih =>
      intro within
      rw [List.forall_mem_cons] at within
      obtain ⟨handler, kept⟩ := Option.isSome_iff_exists.mp
        ((cls.jrHandlers.has_eq_true_iff (first.handlerMethod methods)).mpr within.1)
      have own : (effective (cls.jrHandlers.get? (first.handlerMethod methods)) none
          (first.registered methods)).reverse.lookup signature =
            if first.registers methods signature then some handler else none := by
        rw [kept, effective, Option.none_or]
        simp only [← List.map_reverse]
        rw [entries, List.contains_reverse, Declaration.registers]
      rw [List.flatMap_cons, List.lookup_append, own, ih within.2]
      rw [List.find?_cons]
      cases first.registers methods signature with
      | true => rw [if_pos rfl, Option.some_or, Option.bind_some, kept]
      | false => rw [if_neg Bool.false_ne_true, Option.none_or]
  rw [declaredEntries, List.reverse_flatMap]
  exact latest declarations.reverse fun declaration inside =>
    known declaration (List.mem_reverse.mp inside)

/-- What a signature resolves to in the end: the proc of the last declaration that is read to
register it, or what it resolved to before. -/
theorem resolve_done (runtime : Runtime) {methods : String → Bool} {cls : HandlerClass}
    {dispatcher : Dispatcher} {declarations : List Declaration} {dispatched : Dispatched}
    (done : Done proc methods cls dispatcher declarations dispatched) (signature : Signature) :
    dispatched.dispatcher.resolve runtime signature =
      match declarations.reverse.find? fun declaration =>
        declaration.registers methods signature with
      | some declaration =>
        .ok (dispatched.handlerClass.jrHandlers.get? (declaration.handlerMethod methods))
      | none => dispatcher.resolve runtime signature := by
  have known : ∀ declaration ∈ declarations,
      declaration.handlerMethod methods ∈ dispatched.handlerClass.jrHandlers.keys :=
    fun declaration inside => (done.keys _).mpr (.inr ⟨declaration, inside, rfl⟩)
  have names : ∀ entry ∈ declaredEntries methods dispatched.handlerClass declarations,
      entry.1.isPattern = false := by
    intro entry inside
    obtain ⟨declaration, _, own⟩ := List.mem_flatMap.mp inside
    rw [effective] at own
    split at own
    · obtain ⟨signature, registered, rfl⟩ := List.mem_map.mp own
      exact isPattern_registered registered
    · exact absurd own List.not_mem_nil
  rw [resolve_putAll runtime names done.written, lookup_declaredEntries known]
  cases last : declarations.reverse.find? fun declaration =>
    declaration.registers methods signature with
  | none => rfl
  | some declaration =>
    have inside := List.mem_reverse.mp (List.mem_of_find?_eq_some last)
    simp only [Option.bind_some, done.made.procs _ (known declaration inside)]

end Procs

/-! ## What is declared and what is registered -/

section Registering

variable {runtime : Runtime} {proc : Nat → MethodArg → Handler} {methods : String → Bool}
  {cls : HandlerClass} {dispatcher : Dispatcher} {declarations : List Declaration}
  {dispatched : Dispatched}

/-- A first argument is handled where every signature resolves to a proc. -/
theorem handled_of_resolves
    (resolves : ∀ signature declaration,
      declarations.reverse.find? (fun declaration => declaration.names signature) =
          some declaration →
        Finds proc dispatched.handlerClass declaration.method
          (dispatched.dispatcher.resolve runtime signature)) :
    ∀ declaration ∈ declarations, ∀ first, declaration.args.head? = some first →
      (dispatched.dispatcher.resolve runtime (MethodArg.signature first)).map Option.isSome =
        .ok true := by
  intro declaration inside first head
  have named : declaration.names (MethodArg.signature first) = true := by
    rw [Declaration.names, List.any_eq_true]
    have own : declaration.signatures.head? = some first := by
      rw [← head, Declaration.args, List.head?_append_of_ne_nil _ declaration.nonempty]
    exact ⟨first, List.mem_of_head? own, decide_eq_true rfl⟩
  have some : (declarations.reverse.find? fun declaration =>
      declaration.names (MethodArg.signature first)).isSome = true := by
    rw [List.find?_isSome]
    exact ⟨declaration, List.mem_reverse.mpr inside, named⟩
  obtain ⟨latest, last⟩ := Option.isSome_iff_exists.mp some
  obtain ⟨number, kept, _, _, found⟩ := resolves _ latest last
  rw [found]
  rfl

variable (done : Done proc methods cls dispatcher declarations dispatched)
  (distinct : ∀ first second one other, proc first one = proc second other → first = second)
include done distinct

/-- A signature resolves as it is declared if it is registered so, or was before. -/
theorem finds_iff (signature : Signature) (method : MethodArg) :
    Finds proc dispatched.handlerClass method (dispatched.dispatcher.resolve runtime signature) ↔
      (∀ other, declarations.reverse.find?
          (fun declaration => declaration.registers methods signature) = some other →
        (other.handlerMethod methods).toS = method.toS) ∧
      (declarations.reverse.find? (fun declaration => declaration.registers methods signature) =
          none →
        Finds proc dispatched.handlerClass method (dispatcher.resolve runtime signature)) := by
  rw [resolve_done proc runtime done]
  cases last : declarations.reverse.find? fun declaration =>
    declaration.registers methods signature with
  | none => simp
  | some other =>
    have inside := List.mem_reverse.mp (List.mem_of_find?_eq_some last)
    have known := (done.keys _).mpr (.inr ⟨other, inside, rfl⟩)
    simp only [finds_kept_iff done.made distinct known, Option.some.injEq, forall_eq',
      reduceCtorEq, false_implies, and_true]

/-- Handler methods have one proc each if each is named in one way. -/
theorem single_iff :
    (∀ one ∈ dispatched.handlerClass.jrHandlers.keys,
      ∀ other ∈ dispatched.handlerClass.jrHandlers.keys,
        dispatched.handlerClass.jrHandlers.get? one =
            dispatched.handlerClass.jrHandlers.get? other ↔ one.toS = other.toS) ↔
      ∀ one other,
        (one ∈ cls.jrHandlers.keys ∨
          ∃ declaration ∈ declarations, declaration.handlerMethod methods = one) →
        (other ∈ cls.jrHandlers.keys ∨
          ∃ declaration ∈ declarations, declaration.handlerMethod methods = other) →
        one.toS = other.toS → one = other := by
  simp only [← done.keys]
  constructor
  · intro single one other first second name
    exact get?_inj done.made distinct first second ((single one first other second).mpr name)
  · intro spelled one first other second
    refine ⟨fun same => ?_, fun name => ?_⟩
    · rw [get?_inj done.made distinct first second same]
    · rw [spelled one other first second name]

end Registering

/-- **When what is declared is registered.** For every class in any state that it can reach, every
list of declarations it has made, every method table and every dispatcher: `dispatch_to` returns,
the first argument of each declaration is handled, every signature resolves to the proc for the
handler method of the last declaration that names it, and there is one proc for each handler
method, if and only if the method table leaves no doubt about the declarations that matters. -/
theorem declarations_registered_iff (runtime : Runtime) (proc : Nat → MethodArg → Handler)
    (distinct : ∀ first second one other, proc first one = proc second other → first = second)
    (events : List ClassEvent) (cls : HandlerClass)
    (reached : (machine proc runtime).run loaded events = some cls)
    (declarations : List Declaration)
    (declared : cls.jrMethodArgs.getD [] = declarations.map Declaration.args)
    (methods : String → Bool) (dispatcher : Dispatcher) :
    Registered runtime proc declarations (dispatchTo proc runtime methods cls dispatcher) ↔
      Unambiguous runtime proc methods cls dispatcher declarations := by
  have made := made_run proc runtime events cls reached
  cases listed : cls.jrMethodArgs with
  | none =>
    -- without a declaration `dispatch_to` raises
    rw [listed, Option.getD_none] at declared
    have empty : declarations = [] := List.map_eq_nil_iff.mp declared.symm
    constructor
    · intro registered
      have returned := registered.returned
      rw [dispatchTo, listed] at returned
      cases returned
    · exact fun unambiguous => absurd empty unambiguous.declared
  | some list =>
    rw [listed, Option.getD_some] at declared
    have some : declarations ≠ [] := by
      rintro rfl
      exact made.declared (by rw [listed, declared]; rfl)
    have loop : dispatchTo proc runtime methods cls dispatcher =
        dispatchEach proc methods (declarations.map Declaration.args) cls dispatcher := by
      rw [dispatchTo, listed, declared]
    constructor
    · intro registered
      have last := isName_of_returned proc methods declarations cls dispatcher
        (loop ▸ registered.returned)
      have done := dispatchEach_done proc methods declarations last cls dispatcher made
      rw [← loop] at done
      refine ⟨some, last, ?_, ?_, (single_iff done distinct).mp registered.single⟩
      · intro signature declaration named
        exact ((finds_iff done distinct signature declaration.method).mp
          (registered.resolves signature declaration named)).1
      · intro signature declaration named
        exact ((finds_iff done distinct signature declaration.method).mp
          (registered.resolves signature declaration named)).2
    · intro unambiguous
      have done := dispatchEach_done proc methods declarations unambiguous.last cls dispatcher made
      rw [← loop] at done
      have resolves : ∀ signature declaration,
          declarations.reverse.find? (fun declaration => declaration.names signature) =
              Option.some declaration →
            Finds proc (dispatchTo proc runtime methods cls dispatcher).handlerClass
              declaration.method ((dispatchTo proc runtime methods cls
                dispatcher).dispatcher.resolve runtime signature) := by
        intro signature declaration named
        exact (finds_iff done distinct signature declaration.method).mpr
          ⟨unambiguous.agrees signature declaration named,
            unambiguous.before signature declaration named⟩
      exact ⟨done.returned, handled_of_resolves resolves, resolves,
        (single_iff done distinct).mpr unambiguous.spelled⟩

/-- A declaration of names that is read as it is meant registers what it names. -/
theorem registers_of_read {methods : String → Bool} {declaration : Declaration}
    (names : ∀ arg ∈ declaration.signatures, arg.isName = true)
    (read : declaration.jrMethods methods = declaration.signatures) (signature : Signature) :
    declaration.registers methods signature = declaration.names signature := by
  rw [Declaration.registers, Declaration.registered, read, Declaration.names, Bool.eq_iff_iff,
    List.contains_iff_mem, List.mem_map, List.any_eq_true]
  refine exists_congr fun arg => and_congr_right fun inside => ?_
  rw [decide_eq_true_iff]
  cases arg with
  | regexp source text printed => cases names _ inside
  | _ => rfl

/-- Declarations of names that are all read as they are meant leave no doubt. -/
theorem unambiguous_of_read {runtime : Runtime} {proc : Nat → MethodArg → Handler}
    {methods : String → Bool} {cls : HandlerClass} {dispatcher : Dispatcher}
    {declarations : List Declaration} (declared : declarations ≠ [])
    (names : ∀ declaration ∈ declarations,
      declaration.last.isName = true ∧ ∀ arg ∈ declaration.signatures, arg.isName = true)
    (read : ∀ declaration ∈ declarations,
      declaration.handlerMethod methods = declaration.method ∧
        declaration.jrMethods methods = declaration.signatures)
    (spelled : ∀ one other,
      (one ∈ cls.jrHandlers.keys ∨
        ∃ declaration ∈ declarations, declaration.handlerMethod methods = one) →
      (other ∈ cls.jrHandlers.keys ∨
        ∃ declaration ∈ declarations, declaration.handlerMethod methods = other) →
      one.toS = other.toS → one = other) :
    Unambiguous runtime proc methods cls dispatcher declarations := by
  have same : ∀ signature, declarations.reverse.find? (fun declaration =>
      declaration.registers methods signature) = declarations.reverse.find? (fun declaration =>
        declaration.names signature) := by
    intro signature
    refine List.find?_congr fun declaration inside => ?_
    have own := List.mem_reverse.mp inside
    exact registers_of_read (names declaration own).2 (read declaration own).2 signature
  refine ⟨declared, fun declaration inside => (names declaration inside).1, ?_, ?_, spelled⟩
  · intro signature declaration named other found
    rw [same, named] at found
    obtain rfl := Option.some.inj found
    rw [(read declaration (List.mem_reverse.mp (List.mem_of_find?_eq_some named))).1]
  · intro signature declaration named found
    rw [same, named] at found
    cases found

/-- Procs that answer with their number and their method. -/
def numberedProc (number : Nat) (method : MethodArg) : Handler :=
  Handler.ofBody fun _ _ => .ok (.arr [.int number, .str method.toS])

/-- Procs can be told apart by their numbers. -/
theorem numberedProc_distinct (first second : Nat) (one other : MethodArg)
    (same : numberedProc first one = numberedProc second other) : first = second := by
  have answers := congrFun (congrFun same
    (Request.new ⟨.null, .null, .empty, none, none, none, none⟩)) []
  simp only [numberedProc, Handler.ofBody, Prod.mk.injEq, Except.ok.injEq, Json.arr.injEq,
    List.cons.injEq, Json.int.injEq, Int.ofNat_inj] at answers
  exact answers.2.1

/-- A class that declares a method without a handler method, and one with the method `custom`. -/
def customDeclarations : List Declaration :=
  [⟨[.symbol "method1"], by decide, none⟩,
    ⟨[.symbol "method4"], by decide, some (.symbol "custom")⟩]

/-- The declarations of a class with a handler method are registered. -/
theorem declarations_registered_custom :
    Registered JsonText.terse numberedProc customDeclarations
      (dispatchTo numberedProc JsonText.terse (fun name => name = "handle" || name = "custom")
        ⟨some [[.symbol "method1"], [.symbol "method4", .symbol "custom"]], .empty, 0⟩
        (.new false)) := by
  refine (declarations_registered_iff JsonText.terse numberedProc numberedProc_distinct
    [.jrMethod [.symbol "method1"], .jrMethod [.symbol "method4", .symbol "custom"]] _ rfl
    customDeclarations rfl _ (.new false)).mpr (unambiguous_of_read ?_ ?_ ?_ ?_)
  · decide
  · decide
  · decide
  · have spelled : ∀ first ∈ customDeclarations, ∀ second ∈ customDeclarations,
        (first.handlerMethod fun name => name = "handle" || name = "custom").toS =
            (second.handlerMethod fun name => name = "handle" || name = "custom").toS →
          (first.handlerMethod fun name => name = "handle" || name = "custom") =
            second.handlerMethod fun name => name = "handle" || name = "custom" := by decide
    rintro one other (kept | ⟨first, inFirst, rfl⟩) (kept | ⟨second, inSecond, rfl⟩)
    · cases kept
    · cases kept
    · cases kept
    · exact spelled first inFirst second inSecond

/-- A class declares the method `hash`. Every object has a method of that name, so the signature
is taken for a handler method and nothing is registered. -/
theorem hash_not_registered :
    ∃ cls, (machine numberedProc JsonText.terse).run loaded
        [.jrMethod [.string "hash"]] = some cls ∧
      let dispatched := dispatchTo numberedProc JsonText.terse
        (fun name => name = "handle" || name = "hash") cls (.new false)
      dispatched.outcome = .ok () ∧
        dispatched.dispatcher.handles JsonText.terse (.str "hash") = .ok false ∧
        ¬ Registered JsonText.terse numberedProc [⟨[.string "hash"], by decide, none⟩]
          dispatched := by
  refine ⟨⟨some [[.string "hash"]], .empty, 0⟩, rfl, rfl, rfl, ?_⟩
  intro registered
  have handled := registered.handled _ List.mem_cons_self (.string "hash") rfl
  cases handled

end Rjr.Verif.Declarations
