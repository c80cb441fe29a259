import Rjr.Ruby

/-!
# Results

`lib/rjr/result.rb`. A result is built from named arguments that may come under symbols, as the
library's own calls pass them, or under strings, as parsed JSON has them; `||` takes the second
where the first is `nil` or `false`. Whether the call succeeded is read off the error code.
-/

namespace Rjr

/-- The arguments of `Result.new` under one kind of key; an absent one is `nil`. -/
structure ResultArgs where
  /-- Return value of the handler. -/
  result : Json := .null
  /-- JSON-RPC error code. -/
  errorCode : Json := .null
  /-- Error message. -/
  errorMsg : Json := .null
  /-- Class of the exception, by its name. -/
  errorClass : Json := .null

/-- The outcome of a JSON-RPC call. -/
structure Result where
  /-- Whether the call was successfully invoked. -/
  success : Bool
  /-- Whether the call failed. -/
  failed : Bool
  /-- Return value, if successful. -/
  result : Json
  /-- JSON-RPC error code, if not. -/
  errorCode : Json
  /-- Error message, if not. -/
  errorMsg : Json
  /-- Class of the exception raised, if any. -/
  errorClass : Json
  deriving DecidableEq

namespace Result

/-- `Result#initialize`, from the arguments under symbols and those under strings. -/
def new (symbols : ResultArgs) (strings : ResultArgs := {}) : Result :=
  let errorCode := symbols.errorCode.orElse strings.errorCode
  { success := errorCode.isNil
    failed := !errorCode.isNil
    result := symbols.result.orElse strings.result
    errorCode := errorCode
    errorMsg := symbols.errorMsg.orElse strings.errorMsg
    errorClass := symbols.errorClass.orElse strings.errorClass }

/-- `Result.method_not_found`. -/
def methodNotFound (runtime : Runtime) (name : Json) : Result :=
  new { errorCode := .int (-32602)
        errorMsg := .str ("Method '" ++ runtime.toS name ++ "' not found") }

/-- The result of a handler that returned. `false` is lost: `false || nil` is `nil`. -/
def ofReturn (value : Json) : Result := new { result := value }

/-- The result of a handler that raised. -/
def ofRaise (raised : Exn) : Result :=
  new { errorCode := .int (-32000)
        errorMsg := .str raised.message
        errorClass := .str raised.cls }

/-- A returned value reaches the result unless it is `false`. -/
theorem ofReturn_eq (value : Json) :
    ofReturn value = ⟨true, false, if value = .bool false then .null else value, .null, .null,
      .null⟩ := by
  cases value with
  | bool flag => cases flag <;> rfl
  | _ => rfl

end Result

end Rjr
