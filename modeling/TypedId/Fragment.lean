import TypedId.Text.Search

/-!
# Fragments

A fragment is one parameterised piece of declaration text. Its sections go to different places of
the emitted file.
-/

namespace TypedId

@[ext] structure Fragment where
  /-- Stands above the struct header. -/
  attributeLine : Option Text := none
  /-- The struct header; only that of a base is used. -/
  header : Option Text := none
  /-- Stands inside the struct body. -/
  members : Option Text := none
  /-- Stands inside the validation hook. -/
  hook : Option Text := none
  /-- A declaration of its own after the struct. -/
  sibling : Option Text := none
deriving DecidableEq, Inhabited

namespace Fragment

/-- The sections that are present. -/
def sections (f : Fragment) : List Text :=
  [f.attributeLine, f.header, f.members, f.hook, f.sibling].filterMap id

end Fragment
end TypedId
