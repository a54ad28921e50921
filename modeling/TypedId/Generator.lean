import TypedId.Composition

/-!
# Generation

From a request to its source unit: resolve, select, compose. Requests of a batch do not affect each
other.
-/

namespace TypedId

/-- The source unit of a request under given defaults and a catalog. -/
def Request.generate (r : Request) (d : Defaults) (c : Catalog) : Except Failure SourceUnit := do
  let spec ← r.resolve d
  let sel ← spec.select c
  spec.compose sel c

/-- One answer per request. -/
def generateAll (d : Defaults) (c : Catalog) (requests : List Request) :
    List (Except Failure SourceUnit) :=
  requests.map fun r => r.generate d c

end TypedId
