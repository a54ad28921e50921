import TypedId.Request

/-!
# Defaults

The process-wide values of the fields that requests defer.
-/

namespace TypedId

@[ext] structure Defaults where
  backing : Backing
  converters : ConverterSet
  implementations : ImplementationSet
deriving DecidableEq

namespace Defaults

/-- What holds where no settings say otherwise. -/
def builtIn : Defaults where
  backing := .guid
  converters := .ofList [.newtonsoftJson, .typeConverter]
  implementations := .ofList [.equatable, .comparable]

end Defaults
end TypedId
