import SchemaScalar.Config

/-!
# Registries

A registry holds scalars under keys, in the order in which they were registered. No key is
registered twice: an attempt fails and names the key. A registry is built by adding to the empty
one, or at once from a configuration.
-/

namespace SchemaScalar

inductive RegistryError where
  | duplicateScalar (key : String)
  | unknownScalar (key : String)
  | flawedDefinition (flaw : Definition.Flaw)
  | invalidConfig (cause : Json.Cause) (place : Json.Place)
  deriving DecidableEq

def RegistryError.message : RegistryError → String
  | duplicateScalar key => "scalar `" ++ key ++ "` is already registered"
  | unknownScalar key => "scalar `" ++ key ++ "` is not registered"
  | flawedDefinition flaw => flaw.message
  | invalidConfig cause place => "invalid scalar configuration: " ++ place.locate cause.message

/-- `ScalarRegistry`, and its builder too: scalars under keys, in the order of registration. -/
structure Registry where
  entries : List (String × Scalar)

namespace Registry

def empty : Registry := ⟨[]⟩

/-! ### Looking up -/

def keys (registry : Registry) : List String := registry.entries.map Prod.fst

def size (registry : Registry) : Nat := registry.entries.length

def isEmpty (registry : Registry) : Bool := registry.entries.isEmpty

def get? (registry : Registry) (key : String) : Option Scalar := registry.entries.lookup key

def contains (registry : Registry) (key : String) : Bool := (registry.get? key).isSome

/-- The scalar registered under a key, which must be there. -/
def require (registry : Registry) (key : String) : Except RegistryError Scalar :=
  match registry.get? key with
  | some scalar => .ok scalar
  | none => .error (.unknownScalar key)

/-- Validates an input by the scalar registered under a key. -/
def validate (registry : Registry) (key inputKey : String) (input : Json) :
    Except RegistryError (Outcome Json) :=
  (fun scalar => scalar.validate inputKey input) <$> registry.require key

/-! ### Building -/

/-- `register` and `register_shared`: registers a scalar after all others. -/
def register (registry : Registry) (key : String) (scalar : Scalar) :
    Except RegistryError Registry :=
  if registry.contains key then .error (.duplicateScalar key)
  else .ok ⟨registry.entries ++ [(key, scalar)]⟩

/-- Registers scalars one after another. -/
def registerAll (registry : Registry) (entries : List (String × Scalar)) :
    Except RegistryError Registry :=
  entries.foldlM (fun registry (key, scalar) => registry.register key scalar) registry

def withBuiltins (registry : Registry) : Except RegistryError Registry :=
  registry.registerAll Scalar.builtins

/-- Registers the scalar that a definition describes. A flaw of the definition is told before a key
that is taken. -/
def define (registry : Registry) (definition : Definition) : Except RegistryError Registry :=
  match definition.build with
  | .ok scalar => registry.register definition.key scalar
  | .error flaw => .error (.flawedDefinition flaw)

/-- `from_config`: first the built-in scalars, if they are wanted, then the definitions. -/
def ofConfig (config : Config) : Except RegistryError Registry := do
  let start ← if config.includeBuiltins then withBuiltins empty else .ok empty
  config.scalars.foldlM define start

def builtin : Registry := ⟨Scalar.builtins⟩

end Registry

/-- `from_json_str`: reads a configuration, and tells where a fault was noticed. -/
def Config.parse (text : String) : Except RegistryError Config :=
  match Config.read text.toList with
  | .ok config => .ok config
  | .error fault => .error (.invalidConfig fault.cause (fault.place text.toList))

end SchemaScalar
