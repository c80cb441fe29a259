import Rjr.Dispatcher

/-!
# Which handler a method gets

`handle` writes into one table that remembers the order of first registration, with nested arrays
of signatures, and a block that overwrites a callback. `handler_for` searches the table twice, for
the method itself and then for a pattern. The result depends on the whole history of calls; here
it is stated in terms of that history alone, and the table is shown to give the same answer.
-/

namespace Rjr.Verif.Registrations

open Dispatcher

/-! ## The history -/

/-- A call of `Dispatcher#handle`. -/
structure Call where
  /-- The signature, or nested arrays of signatures. -/
  signature : SignatureArg
  /-- The callback, if one is given. -/
  callback : Option Handler
  /-- The block, if one is given. -/
  block : Option Handler

mutual

/-- The signatures of an argument, in their order. -/
def leaves : SignatureArg → List Signature
  | .one signature => [signature]
  | .many elements => leavesEach elements

/-- The signatures of the elements of an array, in their order. -/
def leavesEach : List SignatureArg → List Signature
  | [] => []
  | element :: rest => leaves element ++ leavesEach rest

end

/-- The registrations of signatures with a handler, the block before the callback. A call with
neither has none. -/
def effective (callback block : Option Handler) (signatures : List Signature) :
    List (Signature × Handler) :=
  match block.or callback with
  | some handler => signatures.map fun signature => (signature, handler)
  | none => []

/-- The effective registrations of a history, oldest first. -/
def registrations (calls : List Call) : List (Signature × Handler) :=
  calls.flatMap fun call => effective call.callback call.block (leaves call.signature)

/-- The dispatcher after a history of calls. -/
def after (keepRequests : Bool) (calls : List Call) : Dispatcher :=
  calls.foldl (fun dispatcher call => dispatcher.handle call.callback call.block call.signature)
    (Dispatcher.new keepRequests)

/-- Whether a signature is a pattern that matches a method name. -/
def patternMatches (runtime : Runtime) (method : String) : Signature → Bool
  | .name _ => false
  | .pattern source => runtime.regexpMatch source method

/-- The handler of a method name by the history alone: that of the last registration of the name
itself; without one, the latest of the matching pattern that was registered first. -/
def resolved (runtime : Runtime) (history : List (Signature × Handler)) (method : String) :
    Option Handler :=
  match history.reverse.lookup (.name method) with
  | some handler => some handler
  | none =>
    (history.find? fun entry => patternMatches runtime method entry.1).bind fun first =>
      history.reverse.lookup first.1

/-! ## The table -/

/-- Registrations of several lists of signatures. -/
theorem effective_append (callback block : Option Handler) (first second : List Signature) :
    effective callback block (first ++ second) =
      effective callback block first ++ effective callback block second := by
  unfold effective
  cases block.or callback with
  | none => rfl
  | some handler => exact List.map_append

/-- One signature is written once, whether or not a callback is overwritten by a block. -/
theorem register_handlers (dispatcher : Dispatcher) (signature : Signature)
    (callback block : Option Handler) :
    (dispatcher.register signature callback block).handlers =
      dispatcher.handlers.putAll (effective callback block [signature]) := by
  cases callback with
  | none =>
    cases block with
    | none => rfl
    | some block => rfl
  | some callback =>
    cases block with
    | none => rfl
    | some block =>
      change (dispatcher.handlers.put signature callback).put signature block =
        dispatcher.handlers.put signature block
      rw [OrderedHash.put_put]

mutual

/-- A call of `handle` writes its effective registrations, one after the other. -/
theorem handle_handlers (callback block : Option Handler) : ∀ (signature : SignatureArg)
    (dispatcher : Dispatcher), (dispatcher.handle callback block signature).handlers =
      dispatcher.handlers.putAll (effective callback block (leaves signature))
  | .one signature, dispatcher => by
    rw [handle, leaves]
    exact register_handlers dispatcher signature callback block
  | .many elements, dispatcher => by
    rw [handle, leaves]
    exact handleEach_handlers callback block elements dispatcher

/-- An array writes the registrations of its elements, one after the other. -/
theorem handleEach_handlers (callback block : Option Handler) : ∀ (elements : List SignatureArg)
    (dispatcher : Dispatcher), (dispatcher.handleEach callback block elements).handlers =
      dispatcher.handlers.putAll (effective callback block (leavesEach elements))
  | [], dispatcher => by
    rw [handleEach, leavesEach, effective]
    cases block.or callback <;> rfl
  | element :: rest, dispatcher => by
    rw [handleEach, leavesEach, handleEach_handlers callback block rest,
      handle_handlers callback block element, effective_append, OrderedHash.putAll_append]

end

/-- The table after a history holds its effective registrations. -/
theorem after_handlers (keepRequests : Bool) (calls : List Call) :
    (after keepRequests calls).handlers = OrderedHash.empty.putAll (registrations calls) := by
  have written : ∀ dispatcher : Dispatcher,
      (calls.foldl (fun dispatcher call =>
          dispatcher.handle call.callback call.block call.signature) dispatcher).handlers =
        dispatcher.handlers.putAll (registrations calls) := by
    induction calls with
    | nil => exact fun _ => rfl
    | cons call rest ih =>
      intro dispatcher
      rw [List.foldl_cons, ih, handle_handlers, ← OrderedHash.putAll_append]
      rfl
  exact written (Dispatcher.new keepRequests)

/-! ## The search -/

variable (runtime : Runtime)

/-- The pattern search finds the first entry whose signature matches. -/
theorem patternFor_string {α : Type} (method : String) (entries : List (Signature × α)) :
    patternFor runtime (.str method) entries =
      .ok ((entries.find? fun entry => patternMatches runtime method entry.1).map Prod.snd) := by
  induction entries with
  | nil => rfl
  | cons entry rest ih =>
    obtain ⟨signature, registered⟩ := entry
    cases signature with
    | name text => simp only [patternFor, ih, List.find?_cons, patternMatches]
    | pattern source =>
      by_cases hit : runtime.regexpMatch source method = true
      · simp [patternFor, patternMatches, hit]
      · simp [patternFor, patternMatches, hit, ih]

/-- A search by method name: the entry of the name, or else the first entry that matches. -/
theorem registeredFor_string {α : Type} (table : OrderedHash Signature α) (method : String) :
    registeredFor runtime table (.str method) =
      .ok (match table.get? (.name method) with
        | some registered => some registered
        | none => (table.entries.find? fun entry =>
            patternMatches runtime method entry.1).map Prod.snd) := by
  have isName : ∀ signature : Signature,
      signature.is (.str method) = decide (signature = .name method) := by
    intro signature
    cases signature with
    | name text =>
      by_cases same : text = method <;> simp [Signature.is, same]
    | pattern source => simp [Signature.is]
  have named : table.entries.find? (fun entry => entry.1.is (.str method)) =
      (table.get? (.name method)).map fun registered => (.name method, registered) := by
    cases found : table.entries.find? fun entry => entry.1.is (.str method) with
    | some entry =>
      have own : entry.1 = .name method := by
        have hit := List.find?_some found
        rw [isName] at hit
        exact of_decide_eq_true hit
      have value := (table.get?_eq_some_iff entry.1 entry.2).mpr
        (List.mem_of_find?_eq_some found)
      rw [own] at value
      rw [value, Option.map_some, ← own]
    | none =>
      cases value : table.get? (.name method) with
      | none => rfl
      | some registered =>
        have inside := (table.get?_eq_some_iff (.name method) registered).mp value
        have missed := List.find?_eq_none.mp found _ inside
        simp [isName] at missed
  rw [registeredFor, named]
  cases table.get? (.name method) with
  | some registered => rfl
  | none => exact patternFor_string runtime method table.entries

/-- The table after a list of registrations resolves a method name as the list does. -/
theorem registeredFor_putAll (history : List (Signature × Handler)) (method : String) :
    registeredFor runtime (OrderedHash.empty.putAll history) (.str method) =
      .ok (resolved runtime history method) := by
  have value : ∀ key, (OrderedHash.empty.putAll history).get? key =
      history.reverse.lookup key := by
    intro key
    rw [OrderedHash.get?_putAll, OrderedHash.get?_empty, Option.or_none]
  have first : ((OrderedHash.empty.putAll history).entries.find? fun entry =>
      patternMatches runtime method entry.1).map Prod.snd =
        (history.find? fun entry => patternMatches runtime method entry.1).bind fun first =>
          history.reverse.lookup first.1 := by
    have keys : (OrderedHash.empty.putAll history).keys.find? (patternMatches runtime method) =
        (history.find? fun entry => patternMatches runtime method entry.1).map Prod.fst := by
      rw [OrderedHash.find?_keys_putAll]
      change (history.map Prod.fst).find? (patternMatches runtime method) = _
      rw [List.find?_map]
      rfl
    rw [OrderedHash.find?_entries _ (patternMatches runtime method), keys]
    cases history.find? fun entry => patternMatches runtime method entry.1 with
    | none => rfl
    | some entry =>
      simp only [Option.map_some, Option.bind_some, value]
      cases history.reverse.lookup entry.1 <;> rfl
  rw [registeredFor_string, value, first, resolved]
  cases history.reverse.lookup (.name method) <;> rfl

/-- Registrations of names change what these names resolve to, and nothing else. -/
theorem resolve_putAll {dispatcher after : Dispatcher} {history : List (Signature × Handler)}
    (names : ∀ entry ∈ history, entry.1.isPattern = false)
    (written : after.handlers = dispatcher.handlers.putAll history) (signature : Signature) :
    after.resolve runtime signature = match history.reverse.lookup signature with
      | some handler => .ok (some handler)
      | none => dispatcher.resolve runtime signature := by
  have value : ∀ key, after.handlers.get? key =
      (history.reverse.lookup key).or (dispatcher.handlers.get? key) := by
    intro key
    rw [written, OrderedHash.get?_putAll]
  have pattern : ∀ key : Signature, key.isPattern = true → history.reverse.lookup key = none := by
    intro key isPattern
    rw [List.lookup_eq_none_iff]
    intro entry inside
    rw [bne_iff_ne]
    rintro rfl
    rw [names entry (List.mem_reverse.mp inside)] at isPattern
    cases isPattern
  -- no name has a property of patterns, so the first pattern with it is the one there was
  have first : ∀ holds : Signature → Bool,
      (∀ signature, holds signature = true → signature.isPattern = true) →
        after.handlers.keys.find? holds = dispatcher.handlers.keys.find? holds := by
    intro holds only
    have none : (history.map Prod.fst).find? holds = none := by
      rw [List.find?_eq_none, List.forall_mem_map]
      intro entry inside holding
      have isPattern := only entry.1 holding
      rw [names entry inside] at isPattern
      cases isPattern
    rw [written, OrderedHash.find?_keys_putAll, List.find?_append, none, Option.or_none]
  cases signature with
  | name text =>
    rw [resolve, resolve, handlerFor, handlerFor, registeredFor_string, registeredFor_string,
      value]
    cases history.reverse.lookup (.name text) with
    | some handler => rfl
    | none =>
      rw [Option.none_or]
      cases dispatcher.handlers.get? (.name text) with
      | some handler => rfl
      | none =>
        have only : ∀ signature, patternMatches runtime text signature = true →
            signature.isPattern = true := by
          intro signature hit
          cases signature with
          | name _ => cases hit
          | pattern _ => rfl
        simp only [OrderedHash.find?_entries _ (patternMatches runtime text), first _ only]
        cases found : dispatcher.handlers.keys.find? (patternMatches runtime text) with
        | none => rfl
        | some key =>
          simp only [Option.bind_some, value, pattern key (only key (List.find?_some found)),
            Option.none_or]
  | pattern source =>
    have any : after.handlers.keys.any Signature.isPattern =
        dispatcher.handlers.keys.any Signature.isPattern := by
      rw [Bool.eq_iff_iff, List.any_eq_true, List.any_eq_true, ← List.find?_isSome,
        ← List.find?_isSome, first _ fun _ isPattern => isPattern]
    rw [resolve, resolve, handlerForPattern, handlerForPattern, value, any, pattern _ rfl,
      Option.none_or]

/-- The history gives no handler exactly when no registered signature equals or matches. -/
theorem resolved_eq_none_iff (history : List (Signature × Handler)) (method : String) :
    resolved runtime history method = none ↔
      ∀ entry ∈ history, entry.1 ≠ .name method ∧
        patternMatches runtime method entry.1 = false := by
  have listed : ∀ key, history.reverse.lookup key = none ↔ ∀ entry ∈ history, entry.1 ≠ key := by
    intro key
    rw [List.lookup_eq_none_iff]
    simp only [List.mem_reverse, bne_iff_ne]
    exact forall₂_congr fun entry _ => ne_comm
  unfold resolved
  cases named : history.reverse.lookup (.name method) with
  | some handler =>
    refine iff_of_false nofun ?_
    intro none
    have absent := (listed (.name method)).mpr fun entry inside => (none entry inside).1
    rw [named] at absent
    cases absent
  | none =>
    have other := (listed (.name method)).mp named
    cases found : history.find? fun entry => patternMatches runtime method entry.1 with
    | none =>
      refine iff_of_true rfl fun entry inside => ⟨other entry inside, ?_⟩
      simpa using List.find?_eq_none.mp found entry inside
    | some first =>
      have inside := List.mem_of_find?_eq_some found
      have hit := List.find?_some found
      refine iff_of_false ?_ ?_
      · intro absent
        exact (listed first.1).mp absent first inside rfl
      · intro none
        rw [(none first inside).2] at hit
        cases hit

/-- **A method name gets the handler its registration history gives it.** For every sequence of
calls of `handle`, with nested arrays of signatures, callbacks and blocks: the handler of the last
registration of the name itself, or else the latest of the matching pattern that was registered
first, and none exactly when no registered signature equals or matches the name. -/
theorem handlerFor_after (keepRequests : Bool) (calls : List Call) (method : String) :
    (after keepRequests calls).handlerFor runtime (.str method) =
        .ok (resolved runtime (registrations calls) method) ∧
      ((after keepRequests calls).handlerFor runtime (.str method) = .ok none ↔
        ∀ entry ∈ registrations calls, entry.1 ≠ .name method ∧
          patternMatches runtime method entry.1 = false) := by
  have found : (after keepRequests calls).handlerFor runtime (.str method) =
      .ok (resolved runtime (registrations calls) method) := by
    rw [handlerFor, after_handlers]
    exact registeredFor_putAll runtime (registrations calls) method
  refine ⟨found, ?_⟩
  rw [found, Except.ok.injEq]
  exact resolved_eq_none_iff runtime (registrations calls) method

end Rjr.Verif.Registrations
