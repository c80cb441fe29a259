import Rjr.Lib.OrderedHash

/-!
# JSON values

The Ruby values a JSON document is parsed to: `nil`, booleans, integers, floats, strings, arrays
and hashes with string keys, and the objects that the parser instantiates in place of hashes. A
float is its binary64 word, so that values have decidable equality. A hash is the list of its
members in insertion order; `OrderedHash` is used where a hash is read or written by key, and
`Json.plain` asks for distinct keys at every depth. An object has none of the methods of a hash or
an array; no document has one before its classes are instantiated.
-/

namespace Rjr

/-- A parsed JSON value. -/
inductive Json where
  /-- `nil`. -/
  | null
  /-- `true` or `false`. -/
  | bool (flag : Bool)
  /-- An `Integer`. -/
  | int (number : Int)
  /-- A `Float`, by its binary64 word. -/
  | float (word : UInt64)
  /-- A `String`. -/
  | str (text : String)
  /-- An `Array`. -/
  | arr (elements : List Json)
  /-- A `Hash` with string keys, in insertion order. -/
  | obj (members : List (String × Json))
  /-- An instance of another class, by the name of the class and the identity of the object. -/
  | object (cls : String) (identity : Nat)

namespace Json

/-- Induction over values, with the hypothesis for every element and every member value. -/
@[elab_as_elim]
theorem induct {motive : Json → Prop} (null : motive .null) (bool : ∀ flag, motive (.bool flag))
    (int : ∀ number, motive (.int number)) (float : ∀ word, motive (.float word))
    (str : ∀ text, motive (.str text))
    (arr : ∀ elements, (∀ value ∈ elements, motive value) → motive (.arr elements))
    (obj : ∀ members, (∀ member ∈ members, motive member.2) → motive (.obj members))
    (object : ∀ cls identity, motive (.object cls identity))
    (value : Json) : motive value := by
  match value with
  | .null => exact null
  | .bool flag => exact bool flag
  | .int number => exact int number
  | .float word => exact float word
  | .str text => exact str text
  | .object cls identity => exact object cls identity
  | .arr elements =>
    apply arr
    intro inner member
    have smaller := List.sizeOf_lt_of_mem member
    exact induct null bool int float str arr obj object inner
  | .obj members =>
    apply obj
    intro entry member
    have smaller := List.sizeOf_lt_of_mem member
    have part : sizeOf entry.2 < sizeOf entry := by
      cases entry
      simp only [Prod.mk.sizeOf_spec]
      omega
    exact induct null bool int float str arr obj object entry.2
termination_by sizeOf value
decreasing_by
  · simp only [Json.arr.sizeOf_spec]
    omega
  · simp only [Json.obj.sizeOf_spec]
    omega

mutual

/-- Structural equality of values is decided. -/
def decEq : (left right : Json) → Decidable (left = right)
  | .null, .null => .isTrue rfl
  | .bool left, .bool right => decidable_of_iff (left = right) (by simp)
  | .int left, .int right => decidable_of_iff (left = right) (by simp)
  | .float left, .float right => decidable_of_iff (left = right) (by simp)
  | .str left, .str right => decidable_of_iff (left = right) (by simp)
  | .arr left, .arr right =>
    match decEqElements left right with
    | .isTrue same => .isTrue (by rw [same])
    | .isFalse differ => .isFalse (by simpa using differ)
  | .obj left, .obj right =>
    match decEqMembers left right with
    | .isTrue same => .isTrue (by rw [same])
    | .isFalse differ => .isFalse (by simpa using differ)
  | .object cls identity, .object cls' identity' =>
    decidable_of_iff (cls = cls' ∧ identity = identity') (by simp)
  | .object _ _, .null | .object _ _, .bool _ | .object _ _, .int _ | .object _ _, .float _
  | .object _ _, .str _ | .object _ _, .arr _ | .object _ _, .obj _ | .null, .object _ _
  | .bool _, .object _ _ | .int _, .object _ _ | .float _, .object _ _ | .str _, .object _ _
  | .arr _, .object _ _ | .obj _, .object _ _
  | .null, .bool _ | .null, .int _ | .null, .float _ | .null, .str _ | .null, .arr _
  | .null, .obj _ | .bool _, .null | .bool _, .int _ | .bool _, .float _ | .bool _, .str _
  | .bool _, .arr _ | .bool _, .obj _ | .int _, .null | .int _, .bool _ | .int _, .float _
  | .int _, .str _ | .int _, .arr _ | .int _, .obj _ | .float _, .null | .float _, .bool _
  | .float _, .int _ | .float _, .str _ | .float _, .arr _ | .float _, .obj _ | .str _, .null
  | .str _, .bool _ | .str _, .int _ | .str _, .float _ | .str _, .arr _ | .str _, .obj _
  | .arr _, .null | .arr _, .bool _ | .arr _, .int _ | .arr _, .float _ | .arr _, .str _
  | .arr _, .obj _ | .obj _, .null | .obj _, .bool _ | .obj _, .int _ | .obj _, .float _
  | .obj _, .str _ | .obj _, .arr _ => .isFalse (by simp)

/-- Structural equality of element lists is decided. -/
def decEqElements : (left right : List Json) → Decidable (left = right)
  | [], [] => .isTrue rfl
  | [], _ :: _ => .isFalse (by simp)
  | _ :: _, [] => .isFalse (by simp)
  | head :: tail, head' :: tail' =>
    match decEq head head' with
    | .isFalse differ => .isFalse (by simp [differ])
    | .isTrue same =>
      match decEqElements tail tail' with
      | .isTrue rest => .isTrue (by rw [same, rest])
      | .isFalse differ => .isFalse (by simp [differ])

/-- Structural equality of member lists is decided. -/
def decEqMembers : (left right : List (String × Json)) → Decidable (left = right)
  | [], [] => .isTrue rfl
  | [], _ :: _ => .isFalse (by simp)
  | _ :: _, [] => .isFalse (by simp)
  | (key, value) :: tail, (key', value') :: tail' =>
    if keys : key = key' then
      match decEq value value' with
      | .isFalse differ => .isFalse (by simp [differ])
      | .isTrue same =>
        match decEqMembers tail tail' with
        | .isTrue rest => .isTrue (by rw [keys, same, rest])
        | .isFalse differ => .isFalse (by simp [differ])
    else .isFalse (by simp [keys])

end

instance : DecidableEq Json := decEq

/-! ## Ruby's conditions -/

/-- Only `nil` and `false` fail a Ruby condition. -/
def truthy : Json → Bool
  | .null => false
  | .bool flag => flag
  | _ => true

/-- `left || right`. -/
def orElse (left right : Json) : Json := if left.truthy then left else right

/-- `nil?`. -/
def isNil : Json → Bool
  | .null => true
  | _ => false

/-! ## Plain trees -/

/-- A binary64 word that is not an infinity or a NaN, which JSON cannot write. -/
def finiteWord (word : UInt64) : Bool := (word >>> 52) &&& 0x7ff != 0x7ff

mutual

/-- A tree that is data only: member names are distinct, no member is named `createId`, and
floats are finite, at every depth. -/
def plain (createId : String) : Json → Bool
  | .null | .bool _ | .int _ | .str _ => true
  | .float word => finiteWord word
  | .arr elements => plainElements createId elements
  | .obj members => decide (members.map Prod.fst).Nodup && plainMembers createId members
  | .object _ _ => false

/-- All elements are plain. -/
def plainElements (createId : String) : List Json → Bool
  | [] => true
  | value :: rest => value.plain createId && plainElements createId rest

/-- All members have a plain value and another name than `createId`. -/
def plainMembers (createId : String) : List (String × Json) → Bool
  | [] => true
  | (key, value) :: rest => key != createId && value.plain createId && plainMembers createId rest

end

/-- The elements of a plain array are plain. -/
theorem plainElements_iff (createId : String) (elements : List Json) :
    plainElements createId elements = true ↔ ∀ value ∈ elements, value.plain createId = true := by
  induction elements with
  | nil => simp [plainElements]
  | cons value rest ih => simp [plainElements, ih]

/-- The members of a plain hash are plain and none is named `createId`. -/
theorem plainMembers_iff (createId : String) (members : List (String × Json)) :
    plainMembers createId members = true ↔
      ∀ member ∈ members, member.1 ≠ createId ∧ member.2.plain createId = true := by
  induction members with
  | nil => simp [plainMembers]
  | cons member rest ih =>
    obtain ⟨key, value⟩ := member
    simp [plainMembers, ih]

end Json

end Rjr
