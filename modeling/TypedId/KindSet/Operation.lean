import TypedId.KindSet

/-!
# Operations on sets of kinds

The ways in which a set comes about, as data, so that statements can be made about all sequences of
them.
-/

namespace TypedId.KindSet

inductive Operation (K : Type) where
  /-- Go back to no kind. -/
  | clear
  /-- Go on to every kind. -/
  | fill
  /-- Start over with a list of kinds. -/
  | collect (kinds : List K)
  | insert (kind : K)
  /-- Unite with the set of a list of kinds. -/
  | unite (kinds : List K)
  /-- Take the set of a raw field. A field that defers or is refused changes nothing. -/
  | decode (raw : Word)

variable {K : Type} [Family K]

def Operation.apply (s : KindSet K) : Operation K → KindSet K
  | clear => empty
  | fill => full
  | collect kinds => ofList kinds
  | insert kind => s.insert kind
  | unite kinds => s.union (ofList kinds)
  | decode raw =>
    match KindSet.decode raw with
    | .ok (.explicit t) => t
    | _ => s

/-- The set that operations make of the empty one. -/
def build (operations : List (Operation K)) : KindSet K := operations.foldl Operation.apply empty

end TypedId.KindSet
