import Cosmwasgo.Types.Data

namespace Cosmwasgo.Types

/-- The SDK's address codec with its configured address verifier. -/
structure Bech32 where
  string : AccAddress → String
  fromBech32 : String → Except Err AccAddress
  valid : AccAddress → Bool
  string_nil : string [] = ""
  fromBech32_empty : ∃ e, fromBech32 "" = .error e
  fromBech32_valid : ∀ {s a}, fromBech32 s = .ok a → valid a = true
  fromBech32_string : ∀ {a}, valid a = true → fromBech32 (string a) = .ok a
  valid_length : ∀ {a}, valid a = true → a ≠ [] ∧ a.length ≤ 255
  valid_contract : ∀ {a : AccAddress}, a.length = 32 → valid a = true

/-- Panics on a permission that is none of the three, as the code does. -/
def AccessConfig.allowed (b : Bech32) (a : AccessConfig) (actor : AccAddress) : Except Panic Bool :=
  match a.permission with
  | .nobody => .ok false
  | .everybody => .ok true
  | .anyOfAddresses => .ok (a.addresses.any fun v ↦ v == b.string actor)
  | _ => .error (.other "unknown type")

inductive AuthorizationPolicyAction
  | instantiate
  | migrateContract
  deriving DecidableEq, Repr

/-- The policies of the module. `partialGov` decorates the default policy. -/
inductive AuthorizationPolicy
  | default
  | gov (propagate : List AuthorizationPolicyAction)
  | partialGov (action : AuthorizationPolicyAction)
  deriving DecidableEq, Repr

namespace AuthorizationPolicy

def defaultCanCreateCode (b : Bech32) (chainConfigs : ChainAccessConfigs) (actor : AccAddress)
    (contractConfig : AccessConfig) : Except Panic Bool := do
  let allowed ← chainConfigs.upload.allowed b actor
  return allowed && contractConfig.isSubset chainConfigs.instantiate

def canCreateCode (b : Bech32) (p : AuthorizationPolicy) (chainConfigs : ChainAccessConfigs) (actor : AccAddress)
    (contractConfig : AccessConfig) : Except Panic Bool :=
  match p with
  | .gov _ => .ok true
  | _ => defaultCanCreateCode b chainConfigs actor contractConfig

def canInstantiateContract (b : Bech32) (p : AuthorizationPolicy) (config : AccessConfig)
    (actor : AccAddress) : Except Panic Bool :=
  match p with
  | .gov _ | .partialGov .instantiate => .ok true
  | _ => config.allowed b actor

/-- The nil address is the empty one. -/
def canModifyContract (p : AuthorizationPolicy) (admin actor : AccAddress) : Bool :=
  match p with
  | .gov _ | .partialGov .migrateContract => true
  | _ => admin != [] && admin == actor

def canModifyCodeAccessConfig (p : AuthorizationPolicy) (creator actor : AccAddress) (isSubset : Bool) : Bool :=
  match p with
  | .gov _ => true
  | _ => creator != [] && creator == actor && isSubset

def subMessageAuthorizationPolicy (p : AuthorizationPolicy) (action : AuthorizationPolicyAction) :
    AuthorizationPolicy :=
  match p with
  | .default => .default
  | .gov propagate => if action ∈ propagate then .partialGov action else .default
  | .partialGov a => .partialGov a

end AuthorizationPolicy

end Cosmwasgo.Types
