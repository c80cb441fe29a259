import Rjr.Json

/-!
# The Ruby runtime

What the library takes from the language. Exceptions are a class name and a message. The texts
that depend on the Ruby release (how a container or a float is printed, how the runtime words its
own errors) and the regular expression engine are fields of `Runtime`, so that every result holds
for all of them.
-/

namespace Rjr

/-- A raised exception. -/
structure Exn where
  /-- Name of the exception's class. -/
  cls : String
  /-- `to_s` of the exception. -/
  message : String
  deriving DecidableEq, Repr

/-- What depends on the Ruby release, and the regular expression engine. -/
structure Runtime where
  /-- `inspect` of a value. -/
  inspect : Json → String
  /-- Message of a `NoMethodError`, from the method and the printed receiver. -/
  noMethod : String → String → String
  /-- Message of a `TypeError` on an implicit conversion, from the printed operand. -/
  noConversion : String → String
  /-- Whether a regular expression, given by its source, matches a string. -/
  regexpMatch : String → String → Bool

namespace Runtime

variable (runtime : Runtime)

/-- `to_s`, as string interpolation uses it. -/
def toS : Json → String
  | .null => ""
  | .bool true => "true"
  | .bool false => "false"
  | .int number => toString number
  | .str text => text
  | value => runtime.inspect value

/-- A string is its own `to_s`. -/
theorem toS_str (text : String) : runtime.toS (.str text) = text := rfl

/-- The `NoMethodError` of calling a method on a receiver that lacks it. -/
def noMethodError (method receiver : String) : Exn :=
  ⟨"NoMethodError", runtime.noMethod method receiver⟩

/-- The `TypeError` of an operand that cannot be converted implicitly. -/
def typeError (operand : Json) : Exn :=
  ⟨"TypeError", runtime.noConversion (runtime.inspect operand)⟩

end Runtime

end Rjr
