import Reckon.Catalogue
import Reckon.Operation.Basic

/-!
# Operation/Named — operations called by name
-/

namespace Reckon

/-- An operation that is called by its name. -/
structure NamedFunction (α : Type) where
  name : String
  operation : Operation α

/-- The number of operands of a named function. -/
def NamedFunction.arity {α : Type} (f : NamedFunction α) : Nat := f.operation.arity

/-- Functions by their name. -/
abbrev FunctionTable (α : Type) := Catalogue (NamedFunction.name (α := α))

/-- Values of variables by their name. -/
abbrev Bindings (α : Type) := Std.TreeMap String α

end Reckon
