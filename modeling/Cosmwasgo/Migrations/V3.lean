import Cosmwasgo.Keeper.Registry

namespace Cosmwasgo.Migrations.V3

open Cosmwasgo.Lib Cosmwasgo.Types Cosmwasgo.State Cosmwasgo.Keeper

/-- The permissions of version 3, with the one that named a single address. -/
inductive AccessType
  | unspecified
  | nobody
  | onlyAddress
  | everybody
  | anyOfAddresses
  | other (n : Nat)
  deriving DecidableEq, Repr

structure AccessConfig where
  permission : AccessType
  address : String := ""
  addresses : List String := []
  deriving DecidableEq, Repr

structure Params where
  codeUploadAccess : AccessConfig
  instantiateDefaultPermission : AccessType
  deriving DecidableEq, Repr

structure CodeInfo where
  codeHash : Bytes
  creator : String
  instantiateConfig : AccessConfig
  deriving DecidableEq, Repr

/-- What a store holds on the way from version 3 to version 4. -/
inductive Value
  | params (p : Params)
  | codeInfo (c : CodeInfo)
  | current (v : Types.Value)
  deriving DecidableEq, Repr

abbrev Store := OrderedStore Bytes Value

abbrev MigrationM := Program Store Err Panic

/-- `types.AccessType(a)`: the number is kept, and two is not a type any more. -/
def AccessType.cast : AccessType → Types.AccessType
  | .unspecified => .unspecified
  | .nobody => .nobody
  | .onlyAddress => .other 2
  | .everybody => .everybody
  | .anyOfAddresses => .anyOfAddresses
  | .other n => .other n

def updateAccessConfig (legacyAccessConfig : AccessConfig) : Types.AccessConfig :=
  match legacyAccessConfig.permission with
  | .onlyAddress => ⟨.anyOfAddresses, [legacyAccessConfig.address]⟩
  | a => ⟨a.cast, legacyAccessConfig.addresses⟩

def updateParams (legacyParams : Params) : Types.Params where
  codeUploadAccess := updateAccessConfig legacyParams.codeUploadAccess
  instantiateDefaultPermission :=
    if legacyParams.instantiateDefaultPermission = .onlyAddress then .anyOfAddresses
    else legacyParams.instantiateDefaultPermission.cast

def updateCodeInfo (legacyCodeInfo : CodeInfo) : Types.CodeInfo where
  codeHash := legacyCodeInfo.codeHash
  creator := legacyCodeInfo.creator
  instantiateConfig := updateAccessConfig legacyCodeInfo.instantiateConfig

def unmarshalParams : Value → MigrationM Params
  | .params p => pure p
  | _ => Program.raise unmarshalPanic

def unmarshalCodeInfo : Value → MigrationM CodeInfo
  | .codeInfo c => pure c
  | _ => Program.raise unmarshalPanic

def setValue (key : Bytes) (v : Types.Value) : MigrationM Unit := Program.update fun s ↦ s.set key (.current v)

/-- `binary.BigEndian.Uint64`. -/
def readCodeID (key : Bytes) : MigrationM UInt64 :=
  if key.length < 8 then Program.raise (.other "index out of range") else pure (bigEndianToUint64 key)

/-- The loop of `Migrate3to4` over the codes. -/
def migrateCodeInfos : List (Bytes × Value) → MigrationM Unit
  | [] => pure ()
  | e :: es => do
    let legacyCodeInfo ← unmarshalCodeInfo e.2
    let codeID ← readCodeID e.1
    setValue (getCodeKey codeID) (.codeInfo (updateCodeInfo legacyCodeInfo))
    migrateCodeInfos es

def migrateParams : Option Value → MigrationM Unit
  | none => pure ()
  | some bz => do
    let legacyParams ← unmarshalParams bz
    setValue paramsKey (.params (updateParams legacyParams))

def migrate3to4 : MigrationM Unit := do
  let bz ← Program.read fun s ↦ s.get paramsKey
  migrateParams bz
  let es ← Program.read fun s ↦ s.scan codeKeyPrefix
  migrateCodeInfos es

end Cosmwasgo.Migrations.V3
