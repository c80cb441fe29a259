import Rjr.Dispatcher
import Rjr.Lib.Machine

/-!
# Declared methods

`lib/rjr/util/handles_methods.rb`. A class declares its json-rpc methods with `jr_method`, each
time with a list of signatures that may end in the id of a local handler method; `dispatch_to`
registers them. Whether a list ends in an id is guessed only then, with `method_defined?`. The
class keeps the procs it creates under the ids as they were given. The procs are counted, so that
two procs for one method can be told apart.
-/

namespace Rjr

/-- An argument of `jr_method`. -/
inductive MethodArg where
  /-- A string. -/
  | string (text : String)
  /-- A symbol. -/
  | symbol (text : String)
  /-- A `Regexp`, by its source, its `to_s` and its `inspect`. -/
  | regexp (source text printed : String)
  deriving DecidableEq

namespace MethodArg

/-- `to_s`. -/
def toS : MethodArg → String
  | .string text => text
  | .symbol text => text
  | .regexp _ text _ => text

/-- Whether an argument can be the name of a method. -/
def isName : MethodArg → Bool
  | .regexp _ _ _ => false
  | _ => true

end MethodArg

/-- The state of a class that includes `HandlesMethods`. -/
structure HandlerClass where
  /-- `@jr_method_args`, `nil` before the first declaration. -/
  jrMethodArgs : Option (List (List MethodArg))
  /-- `@jr_handlers`, where `nil` reads as no entries. -/
  jrHandlers : OrderedHash MethodArg Handler
  /-- How many procs have been created. -/
  created : Nat

/-- What `dispatch_to` leaves behind. -/
structure Dispatched where
  /-- How it ended. -/
  outcome : Except Exn Unit
  /-- The class. -/
  handlerClass : HandlerClass
  /-- The dispatcher. -/
  dispatcher : Dispatcher

namespace HandlesMethods

/-- A class that was just defined. -/
def loaded : HandlerClass := ⟨none, .empty, 0⟩

/-- The `TypeError` of `method_defined?`, from the printed argument. -/
def notAName (printed : String) : Exn := ⟨"TypeError", printed ++ " is not a symbol nor a string"⟩

/-- `method_defined?`, from the names of the public and protected methods of the class and its
ancestors. -/
def methodDefined (methods : String → Bool) : MethodArg → Except Exn Bool
  | .regexp _ _ printed => .error (notAName printed)
  | arg => .ok (methods arg.toS)

/-- `extract_handler_method`: the id of the handler method and the signatures. -/
def extractHandlerMethod (methods : String → Bool) (args : List MethodArg) :
    Except Exn (MethodArg × List MethodArg) :=
  match args.getLast? with
  | none => .error (notAName "nil")
  | some last => do
    if ← methodDefined methods last then return (last, args.dropLast)
    else return (.symbol "handle", args)

/-- `has_handler_for?`. -/
def hasHandlerFor (cls : HandlerClass) (handlerMethod : MethodArg) : Bool :=
  cls.jrHandlers.has handlerMethod

/-- `handler_for`. -/
def handlerFor (cls : HandlerClass) (handlerMethod : MethodArg) : Option Handler :=
  cls.jrHandlers.get? handlerMethod

/-- `jr_method`. -/
def jrMethod (cls : HandlerClass) (args : List MethodArg) : HandlerClass :=
  { cls with jrMethodArgs := some (cls.jrMethodArgs.getD [] ++ [args]) }

section Procs

-- The proc that is created as the given one in number, which calls the given method of a new
-- instance.
variable (proc : Nat → MethodArg → Handler)

/-- `create_handler_for`. -/
def createHandlerFor (cls : HandlerClass) (handlerMethod : MethodArg) :
    Handler × HandlerClass :=
  let handler := proc cls.created handlerMethod
  (handler, { cls with
    jrHandlers := cls.jrHandlers.put handlerMethod handler
    created := cls.created + 1 })

/-- The handler that a declaration is registered with: the one there is, or a new one. -/
def obtainHandler (cls : HandlerClass) (handlerMethod : MethodArg) :
    Option Handler × HandlerClass :=
  if hasHandlerFor cls handlerMethod then (handlerFor cls handlerMethod, cls)
  else
    let made := createHandlerFor proc cls handlerMethod
    (some made.1, made.2)

/-- The loop of `dispatch_to`. -/
def dispatchEach (methods : String → Bool) :
    List (List MethodArg) → HandlerClass → Dispatcher → Dispatched
  | [], cls, dispatcher => ⟨.ok (), cls, dispatcher⟩
  | args :: rest, cls, dispatcher =>
    match extractHandlerMethod methods args with
    | .error raised => ⟨.error raised, cls, dispatcher⟩
    | .ok (handlerMethod, jrMethods) =>
      let handler := obtainHandler proc cls handlerMethod
      dispatchEach methods rest handler.2
        (dispatcher.handle handler.1 none (.many (jrMethods.map fun m => .one (.name m.toS))))

/-- `dispatch_to`. -/
def dispatchTo (runtime : Runtime) (methods : String → Bool) (cls : HandlerClass)
    (dispatcher : Dispatcher) : Dispatched :=
  match cls.jrMethodArgs with
  | none => ⟨.error (runtime.noMethodError "each" (runtime.inspect .null)), cls, dispatcher⟩
  | some declared => dispatchEach proc methods declared cls dispatcher

/-- What happens to a class. -/
inductive ClassEvent where
  /-- `jr_method` is called. -/
  | jrMethod (args : List MethodArg)
  /-- `dispatch_to` is called, when the class has the given methods. -/
  | dispatchTo (methods : String → Bool) (dispatcher : Dispatcher)

/-- One event. -/
def step (runtime : Runtime) (cls : HandlerClass) : ClassEvent → HandlerClass
  | .jrMethod args => jrMethod cls args
  | .dispatchTo methods dispatcher =>
    (dispatchTo proc runtime methods cls dispatcher).handlerClass

/-- The runs of a class. -/
def machine (runtime : Runtime) : Machine HandlerClass ClassEvent :=
  ⟨fun cls event => some (step proc runtime cls event)⟩

end Procs

end HandlesMethods

end Rjr
