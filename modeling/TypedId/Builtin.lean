import TypedId.Builtin.Base
import TypedId.Builtin.Converters
import TypedId.Builtin.Implementations
import TypedId.Catalog

/-!
# The built-in catalog
-/

namespace TypedId.Builtin

/-- The authored fragment of a key. -/
def fragment : Key → Option Fragment
  | .base b => some (base b)
  | .converter b k => some (converter b k)
  | .implementation b k => implementation b k

/-- The catalog that hosts use unless they bring their own. -/
def catalog : Catalog := Catalog.ofFunction fragment

end TypedId.Builtin
