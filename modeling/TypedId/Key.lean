import TypedId.Backing
import TypedId.Capability

/-!
# Fragment keys

A key says what a fragment of the catalog is for: the struct body of a backing, or one capability
on one backing. Keys are ordered by family, then by backing, then by kind.
-/

namespace TypedId

inductive Key where
  | base (backing : Backing)
  | converter (backing : Backing) (kind : Converter)
  | implementation (backing : Backing) (kind : Implementation)
deriving DecidableEq, Repr

namespace Key

/-- The key of a capability on a backing. -/
def ofCapability (b : Backing) : Capability → Key
  | .converter k => converter b k
  | .implementation k => implementation b k

/-- The capability that a key is for; a base is for none. -/
def capability? : Key → Option Capability
  | base _ => none
  | converter _ k => some (.converter k)
  | implementation _ k => some (.implementation k)

def backing : Key → Backing
  | base b => b
  | converter b _ => b
  | implementation b _ => b

/-- The place in the order of keys. -/
def rank : Key → Nat
  | base b => b.code
  | converter b k => 64 * b.code + k.position
  | implementation b k => 1024 + 64 * b.code + k.position

/-- The parts of a key's path. -/
def parts : Key → List String
  | base b => ["base", b.name]
  | converter b k => ["converter", b.name, k.name]
  | implementation b k => ["implementation", b.name, k.name]

/-- The key as it stands in reports. -/
def path (k : Key) : Text := ['/'].intercalate (k.parts.map String.toList)

/-- Every key once, in order. -/
def all : List Key :=
  Backing.all.map base
    ++ Backing.all.flatMap (fun b => (Family.all : List Converter).map (converter b))
    ++ Backing.all.flatMap (fun b => (Family.all : List Implementation).map (implementation b))

theorem mem_all (k : Key) : k ∈ all := by
  cases k <;>
    simp [all, Backing.mem_all, Family.mem_all]

theorem all_ascending : all.Pairwise fun a b => a.rank < b.rank := by decide

theorem rank_injective {a b : Key} (h : a.rank = b.rank) : a = b :=
  eq_of_ascending all_ascending (mem_all a) (mem_all b) h

/-- The key that has a given path. -/
def ofPath? (s : Text) : Option Key := all.find? (·.path = s)

end Key
end TypedId
