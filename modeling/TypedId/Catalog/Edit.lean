import TypedId.Builtin
import TypedId.Catalog

/-!
# Edits of a catalog

A catalog is built by a sequence of edits; of the edits that touch a key the last decides.
-/

namespace TypedId.Catalog

inductive Edit where
  /-- Assign a fragment to a key. -/
  | put (key : Key) (fragment : Fragment)
  /-- Take the fragment of a key away. -/
  | drop (key : Key)
  /-- Copy every fragment of another catalog. -/
  | extend (other : Catalog)

def Edit.apply (c : Catalog) : Edit → Catalog
  | put key fragment => c.insert key fragment
  | drop key => c.erase key
  | extend other => c.extend other

/-- The catalog that edits make of the empty one. -/
def build (edits : List Edit) : Catalog := edits.foldl Edit.apply empty

/-- The edit that copies the built-in catalog. -/
def Edit.builtin : Edit := extend Builtin.catalog

end TypedId.Catalog
