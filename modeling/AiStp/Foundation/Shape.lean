import AiStp.Foundation.Identity

/-!
# Declared document shapes

A wire model declares the fields of an object, what each admits and which may be missing because
they have a default. Unknown fields are admitted. The server validates with the model; the schema
generated from it for the client requires every declared field (`wireRequired`), so a document may
conform to a model and not to its schema exactly by leaving a defaulted field out
(`conforms_wireRequired`).
-/

set_option autoImplicit false

namespace AiStp.Foundation.Shape

open Library

/-- One declared field of an object. -/
structure Field where
  name : String
  admits : Json → Bool
  required : Bool := true

def Field.accepts (field : Field) (document : Json) : Bool :=
  match document.get? field.name with
  | some value => field.admits value
  | none => !field.required

/-- An object whose declared fields are all admitted. -/
def conforms (fields : List Field) (document : Json) : Bool :=
  document.asObject?.isSome && fields.all fun field ↦ field.accepts document

/-- The generated schema of a model: every declared field must be present. -/
def wireRequired (fields : List Field) : List Field :=
  fields.map fun field ↦ { field with required := true }

/-! ### What a field admits -/

/-- The constant one, however it is written. -/
def constOne : Json → Bool
  | .number (.integer value) => value == 1
  | .number (.float text) => text == "1"
  | _ => false

def oneOf (literals : List String) : Json → Bool
  | .string text => text ∈ literals
  | _ => false

/-- A text of a bounded number of characters. -/
def text (minimum maximum : Nat) : Json → Bool
  | .string value => minimum ≤ value.length && value.length ≤ maximum
  | _ => false

def matching (pattern : String → Bool) : Json → Bool
  | .string value => pattern value
  | _ => false

def nullable (admits : Json → Bool) : Json → Bool
  | .null => true
  | value => admits value

/-- A list of a bounded number of admitted items. -/
def listOf (maximum : Nat) (admits : Json → Bool) : Json → Bool
  | .array items => items.length ≤ maximum && items.all admits
  | _ => false

/-- An object of a bounded number of fields. -/
def objectOf (maximum : Nat) : Json → Bool
  | .object fields => fields.length ≤ maximum
  | _ => false

/-- An object every value of which is admitted. -/
def valuesOf (admits : Json → Bool) : Json → Bool
  | .object fields => fields.all fun field ↦ admits field.2
  | _ => false

end AiStp.Foundation.Shape
