import Cosmwasgo.Keeper.Modify

namespace Cosmwasgo.Keeper.MsgServer

open Cosmwasgo.Lib Cosmwasgo.Types Cosmwasgo.State

variable {X α : Type}

def selectAuthorizationPolicy (k : Keeper X) (c : Ctx) (actor : String) : AuthorizationPolicy :=
  if actor = k.authority then .gov k.propagateGovAuthorization else c.subMsgAuthzPolicy.getD .default

def decode (k : Keeper X) (addr field : String) : M X AccAddress :=
  Program.lift (wrap (k.bech32.fromBech32 addr) field)

def decodeAdmin (k : Keeper X) (admin : String) : M X AccAddress :=
  if admin = "" then pure [] else decode k admin "admin"

def requireAuthority (k : Keeper X) (authority : String) : M X Unit :=
  Program.require (k.authority = authority)
    (.wrap errInvalid ("invalid authority; expected " ++ k.authority ++ ", got " ++ authority))

section Handlers

variable (k : Keeper X) (h : ResponseHandler X) (c : Ctx)

def storeCode (msg : MsgStoreCode) : M X MsgServiceResponse := do
  Program.lift (Msg.validateBasic k (.storeCode msg))
  let senderAddr ← decode k msg.sender "sender"
  let policy := selectAuthorizationPolicy k c msg.sender
  let (codeID, checksum) ← create k c senderAddr msg.wasmByteCode msg.instantiatePermission policy
  return .storeCode codeID checksum

def instantiateContract (msg : MsgInstantiateContract) : M X MsgServiceResponse := do
  Program.lift (Msg.validateBasic k (.instantiateContract msg))
  let senderAddr ← decode k msg.sender "sender"
  let adminAddr ← decodeAdmin k msg.admin
  let policy := selectAuthorizationPolicy k c msg.sender
  let (contractAddr, data) ← instantiate k h c msg.codeID senderAddr adminAddr msg.msg msg.label msg.funds
    (classicAddressGenerator k) policy
  return .instantiate (k.bech32.string contractAddr) data

def instantiateContract2 (msg : MsgInstantiateContract2) : M X MsgServiceResponse := do
  Program.lift (Msg.validateBasic k (.instantiateContract2 msg))
  let senderAddr ← decode k msg.sender "sender"
  let adminAddr ← decodeAdmin k msg.admin
  let policy := selectAuthorizationPolicy k c msg.sender
  let (contractAddr, data) ← instantiate k h c msg.codeID senderAddr adminAddr msg.msg msg.label msg.funds
    (predictableAddressGenerator k senderAddr msg.salt msg.msg msg.fixMsg) policy
  return .instantiate (k.bech32.string contractAddr) data

def executeContract (msg : MsgExecuteContract) : M X MsgServiceResponse := do
  Program.lift (Msg.validateBasic k (.executeContract msg))
  let senderAddr ← decode k msg.sender "sender"
  let contractAddr ← decode k msg.contract "contract"
  let data ← execute k h c contractAddr senderAddr msg.msg msg.funds
  return .data data

def migrateContract (msg : MsgMigrateContract) : M X MsgServiceResponse := do
  Program.lift (Msg.validateBasic k (.migrateContract msg))
  let senderAddr ← decode k msg.sender "sender"
  let contractAddr ← decode k msg.contract "contract"
  let policy := selectAuthorizationPolicy k c msg.sender
  let data ← migrate k h c contractAddr senderAddr msg.codeID msg.msg policy
  return .data data

def updateAdmin (msg : MsgUpdateAdmin) : M X MsgServiceResponse := do
  Program.lift (Msg.validateBasic k (.updateAdmin msg))
  let senderAddr ← decode k msg.sender "sender"
  let contractAddr ← decode k msg.contract "contract"
  let newAdminAddr ← decode k msg.newAdmin "new admin"
  let policy := selectAuthorizationPolicy k c msg.sender
  setContractAdmin k c contractAddr senderAddr newAdminAddr policy
  return .empty

def clearAdmin (msg : MsgClearAdmin) : M X MsgServiceResponse := do
  Program.lift (Msg.validateBasic k (.clearAdmin msg))
  let senderAddr ← decode k msg.sender "sender"
  let contractAddr ← decode k msg.contract "contract"
  let policy := selectAuthorizationPolicy k c msg.sender
  setContractAdmin k c contractAddr senderAddr [] policy
  return .empty

def updateContractLabel (msg : MsgUpdateContractLabel) : M X MsgServiceResponse := do
  Program.lift (Msg.validateBasic k (.updateContractLabel msg))
  let senderAddr ← decode k msg.sender "sender"
  let contractAddr ← decode k msg.contract "contract"
  let policy := selectAuthorizationPolicy k c msg.sender
  setContractLabel k c contractAddr senderAddr msg.newLabel policy
  return .empty

def updateInstantiateConfig (msg : MsgUpdateInstantiateConfig) : M X MsgServiceResponse := do
  Program.lift (Msg.validateBasic k (.updateInstantiateConfig msg))
  let senderAddr ← decode k msg.sender "sender"
  let policy := selectAuthorizationPolicy k c msg.sender
  let newConfig ← deref msg.newInstantiatePermission
  setAccessConfig k c msg.codeID senderAddr newConfig policy
  return .empty

def updateParams (req : MsgUpdateParams) : M X MsgServiceResponse := do
  Program.lift (Msg.validateBasic k (.updateParams req))
  requireAuthority k req.authority
  setParams k req.params
  return .empty

def eachCode (f : UInt64 → M X Unit) : List UInt64 → M X Unit
  | [] => pure ()
  | codeID :: rest => do
    f codeID
    eachCode f rest

def pinCodes (req : MsgCodes) : M X MsgServiceResponse := do
  Program.lift (Msg.validateBasic k (.pinCodes req))
  requireAuthority k req.authority
  eachCode (pinCode k) req.codeIDs
  return .empty

def unpinCodes (req : MsgCodes) : M X MsgServiceResponse := do
  Program.lift (Msg.validateBasic k (.unpinCodes req))
  requireAuthority k req.authority
  eachCode (unpinCode k) req.codeIDs
  return .empty

def sudoContract (req : MsgSudoContract) : M X MsgServiceResponse := do
  Program.lift (Msg.validateBasic k (.sudoContract req))
  requireAuthority k req.authority
  let contractAddr ← decode k req.contract "contract"
  let data ← Keeper.sudoContract k h c contractAddr req.msg
  return .data data

def storeAndInstantiateContract (req : MsgStoreAndInstantiateContract) : M X MsgServiceResponse := do
  Program.lift (Msg.validateBasic k (.storeAndInstantiateContract req))
  let authorityAddr ← decode k req.authority "authority"
  let adminAddr ← decodeAdmin k req.admin
  let policy := selectAuthorizationPolicy k c req.authority
  let (codeID, _) ← create k c authorityAddr req.wasmByteCode req.instantiatePermission policy
  let (contractAddr, data) ← instantiate k h c codeID authorityAddr adminAddr req.msg req.label req.funds
    (classicAddressGenerator k) policy
  return .instantiate (k.bech32.string contractAddr) data

/-- `CodeUploadAccess` is rewritten only when it is a list of addresses. -/
def updateUploadAddresses (update : List String → List String) : M X MsgServiceResponse := do
  let params ← getParams k
  Program.require (params.codeUploadAccess.permission = .anyOfAddresses) (.wrap errInvalid "permission")
  let addresses := update params.codeUploadAccess.addresses
  setParams k { params with codeUploadAccess := { params.codeUploadAccess with addresses } }
  return .empty

def addCodeUploadParamsAddresses (req : MsgUploadAddresses) : M X MsgServiceResponse := do
  Program.lift (Msg.validateBasic k (.addCodeUploadParamsAddresses req))
  requireAuthority k req.authority
  updateUploadAddresses k fun addresses ↦
    req.addresses.foldl (fun as newAddr ↦ if as.contains newAddr then as else as ++ [newAddr]) addresses

def removeCodeUploadParamsAddresses (req : MsgUploadAddresses) : M X MsgServiceResponse := do
  Program.lift (Msg.validateBasic k (.removeCodeUploadParamsAddresses req))
  requireAuthority k req.authority
  updateUploadAddresses k fun addresses ↦ addresses.filter fun addr ↦ !req.addresses.contains addr

def storeAndMigrateContract (req : MsgStoreAndMigrateContract) : M X MsgServiceResponse := do
  let authorityAddr ← decode k req.authority "authority"
  Program.lift (Msg.validateBasic k (.storeAndMigrateContract req))
  let policy := selectAuthorizationPolicy k c req.authority
  let (codeID, checksum) ← create k c authorityAddr req.wasmByteCode req.instantiatePermission policy
  let contractAddr ← decode k req.contract "contract"
  let data ← migrate k h c contractAddr authorityAddr codeID req.msg policy
  return .storeAndMigrate codeID checksum data

end Handlers

def serve (k : Keeper X) (h : ResponseHandler X) (c : Ctx) : Msg → M X MsgServiceResponse
  | .storeCode m => storeCode k c m
  | .instantiateContract m => instantiateContract k h c m
  | .instantiateContract2 m => instantiateContract2 k h c m
  | .executeContract m => executeContract k h c m
  | .migrateContract m => migrateContract k h c m
  | .updateAdmin m => updateAdmin k c m
  | .clearAdmin m => clearAdmin k c m
  | .updateInstantiateConfig m => updateInstantiateConfig k c m
  | .updateParams m => updateParams k m
  | .sudoContract m => sudoContract k h c m
  | .pinCodes m => pinCodes k m
  | .unpinCodes m => unpinCodes k m
  | .storeAndInstantiateContract m => storeAndInstantiateContract k h c m
  | .addCodeUploadParamsAddresses m => addCodeUploadParamsAddresses k m
  | .removeCodeUploadParamsAddresses m => removeCodeUploadParamsAddresses k m
  | .storeAndMigrateContract m => storeAndMigrateContract k h c m
  | .updateContractLabel m => updateContractLabel k c m

/-- Marks the changes on record from position `n` on as made by a message that failed. -/
def markFailed (n : Nat) (changes : List ContractChange) : List ContractChange :=
  changes.take n ++ (changes.drop n).map fun ch ↦ { ch with failed := true }

def settle (m : M X α) : M X α := fun w ↦
  match m w with
  | (.error e, w') =>
    (.error e, { w' with store := { w'.store with changes := markFailed w.store.changes.length w'.store.changes } })
  | r => r

/-- A message in the message server, one level below the context it arrives in. -/
def handleMsg (k : Keeper X) (h : ResponseHandler X) (c : Ctx) (m : Msg) : M X MsgServiceResponse :=
  settle (serve k h (c.push (.message m)) m)

end Cosmwasgo.Keeper.MsgServer
