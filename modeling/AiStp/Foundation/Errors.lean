import AiStp.Library.Loops

/-!
# Errors of the service

A refused request raises an error with a category and a message. Handlers are written in the `Except`
monad; `require_eq_ok`, `found_eq_ok` and `bind_eq_ok` read back what a request that was not refused
has passed.
-/

set_option autoImplicit false

namespace AiStp.Foundation

inductive ErrorCategory where
  | validation
  | authRequired
  | deviceRevoked
  | permission
  | notFound
  | conflict
  | precondition
  | internal
deriving DecidableEq

structure ApiError where
  category : ErrorCategory
  message : String
deriving DecidableEq

/-- Goes on only if the condition holds. -/
def require (condition : Bool) (category : ErrorCategory) (message : String) :
    Except ApiError Unit :=
  if condition then .ok () else .error ⟨category, message⟩

/-- Goes on with the row that was found. -/
def found {Row : Type} (row : Option Row) (category : ErrorCategory) (message : String) :
    Except ApiError Row :=
  match row with
  | some row => .ok row
  | none => .error ⟨category, message⟩

/-- An exception that no handler expects. -/
def internalError : ApiError := ⟨.internal, "internal error"⟩

@[simp] theorem require_eq_ok {condition : Bool} {category : ErrorCategory} {message : String}
    {value : Unit} : require condition category message = .ok value ↔ condition = true := by
  unfold require
  split_ifs with h <;> simp [h]

@[simp] theorem found_eq_ok {Row : Type} {row : Option Row} {category : ErrorCategory}
    {message : String} {value : Row} :
    found row category message = .ok value ↔ row = some value := by
  cases row <;> simp [found]

end AiStp.Foundation
