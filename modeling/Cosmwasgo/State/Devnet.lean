import Cosmwasgo.Lib.Bech32Text
import Cosmwasgo.Lib.Sha256
import Cosmwasgo.State.Oracle

namespace Cosmwasgo.State

open Cosmwasgo.Lib Cosmwasgo.Types

theorem decode_cosmos_empty : Bech32Text.decode "cosmos" "" = none := by decide +kernel

/-- The address codec of a chain with the SDK's own prefix and address verifier. -/
def cosmosBech32 : Bech32 where
  string a := if a = [] then "" else Bech32Text.encode "cosmos" a
  fromBech32 s :=
    match Bech32Text.decode "cosmos" s with
    | some a => if a ≠ [] ∧ a.length ≤ 255 then .ok a else .error (.wrap errUnknownRequest "address length")
    | none => .error (.text "decoding bech32 failed")
  valid a := a ≠ [] ∧ a.length ≤ 255
  string_nil := rfl
  fromBech32_empty := by
    rw [decode_cosmos_empty]
    exact ⟨_, rfl⟩
  fromBech32_valid {s a} h := by
    split at h
    · split at h
      · cases h
        simpa using ‹_ ∧ _›
      · cases h
    · cases h
  fromBech32_string {a} h := by
    have ha : a ≠ [] ∧ a.length ≤ 255 := by simpa using h
    simp only [if_neg ha.1, Bech32Text.decode_encode, if_pos ha]
  valid_length h := by simpa using h
  valid_contract {a} h := by
    have hne : a ≠ [] := by
      rintro rfl
      simp at h
    simp [hne, h]

/-- The codec reads what it writes and nothing else. -/
theorem string_of_fromBech32 {s : String} {a : AccAddress} (h : cosmosBech32.fromBech32 s = .ok a) :
    cosmosBech32.string a = s := by
  obtain ⟨hne, -⟩ := cosmosBech32.valid_length (cosmosBech32.fromBech32_valid h)
  change (match Bech32Text.decode "cosmos" s with | some _ => _ | none => _) = _ at h
  split at h
  · next hdec =>
    split at h
    · cases h
      exact (if_neg hne).trans (Bech32Text.encode_of_decode hdec)
    · cases h
  · cases h

/-- `address.Module("wasm", key)`. -/
def wasmModuleAddress (key : Bytes) : Bytes :=
  sha256 (sha256 (stringToBytes "module") ++ stringToBytes "wasm" ++ 0 :: key)

def wasmIdent : Bytes := [0x00, 0x61, 0x73, 0x6D]

/-- A step of another module that does nothing. -/
def ExtStep.idle {X α : Type} (a : α) (x : X) : ExtStep X α := { state := x, result := .ok a }

def unsupported (s : String) : Err := .wrap errUnknownRequest s

/-- A chain without accounts, coins or channels of its own. -/
def emptyHost {X : Type} : Host X where
  getAccount _ _ := none
  newAccount _ := .idle ()
  cleanupExistingAccount _ _ := .idle true
  isSendEnabledCoins _ _ := .ok ()
  blockedAddr _ _ := false
  sendCoins _ _ _ := .idle ()
  getBalance _ denom := .idle ⟨denom, 0⟩
  sendCoinsFromAccountToModule _ _ := .idle ()
  burnCoins _ := .idle ()
  getCapability _ _ := false
  bindIbcPort _ := .idle ()
  authenticateCapability _ _ _ := false
  claimCapability _ _ := .idle ()
  sendPacket _ _ _ := .idle 1
  writeAcknowledgement _ _ _ := .idle ()
  validateBasic _ := .ok ()
  signers _ := .ok []
  plainHandler _ _ := none
  channelHandler _ _ := none
  nestedHandler _ _ := none
  msgSend _ _ _ := ⟨"/cosmos.bank.v1beta1.MsgSend", []⟩
  msgChannelCloseInit _ _ _ := ⟨"/ibc.core.channel.v1.MsgChannelCloseInit", []⟩
  encodeDistributionMsg _ _ := .error (unsupported "distribution")
  encodeStakingMsg _ _ := .error (unsupported "staking")
  encodeGovMsg _ _ := .error (unsupported "gov")
  encodeIBCOther _ _ _ := .error (unsupported "ibc")
  unpackAny _ := .error (unsupported "any")
  marshalResponse _ := ⟨"", []⟩
  handleQuery _ _ _ := .done fun x ↦ { state := x, result := .error (unsupported "query") }
  getAllChannelsWithPortPrefix _ := .idle []
  getChannel _ _ := .idle none

def freeGas : GasRegister where
  uncompressCosts _ := .ok 0
  setupContractCost _ _ := .ok 0
  replyCosts _ _ := .ok 0
  eventCosts _ _ := .ok 0
  toWasmVMGas g := .ok g
  fromWasmVMGas g := .ok g

/-- A decimal number. -/
def readDigits (ds : List Char) : Option Nat :=
  if ds ≠ [] ∧ ds.all Char.isDigit then some (ds.foldl (fun n c ↦ 10 * n + (c.toNat - 48)) 0) else none

def readInt (s : String) : Option Int :=
  match s.toList with
  | '-' :: ds => (readDigits ds).map fun n ↦ -(n : Int)
  | ds => (readDigits ds).map Int.ofNat

/-- Enough of Go's library for plain ASCII input without coins. -/
def asciiLib : GoLib where
  jsonValid b := b == stringToBytes "\x7b\x7d"
  trimSpace s := s
  isPrint c := 32 ≤ c.toNat && c.toNat < 127
  toUpper s := String.ofList (s.toList.map Char.toUpper)
  equalFold s t := s.toList.map Char.toLower == t.toList.map Char.toLower
  coinsValidate coins := if coins = [] then .ok () else .error (.text "coins")
  extensionValidate _ := .ok ()
  convertWasmCoins coins := if coins = [] then .ok [] else .error (.text "coins")
  setString := readInt
  validateDenom denom :=
    if 3 ≤ denom.length ∧ denom.toList.all Char.isAlphanum then .ok () else .error (.text ("invalid denom: " ++ denom))
  parseRequestURI _ := .error "empty url"
  parseDockerRef _ := .error "invalid reference format"
  splitCapabilities s := if s = "" then [] else [s]
  gzipIt _ := .error (.text "gzip")
  uncompress _ _ := .error (.text "EOF")
  hexEncode b := String.ofList (b.flatMap fun x ↦ [Nat.digitChar (x.val / 16), Nat.digitChar (x.val % 16)])
  parseChannelSequence s := if s = "channel-0" then .ok 0 else .error (.text "invalid channel identifier")
  marshalContractInfo _ _ := []
  marshalCodeInfo _ _ := []
  marshalIBCResponse _ := []

/-- A chain of its own that runs the given contracts free of charge. The real hash and the real address
encoding are used, so that addresses come out as they do on a live chain. -/
def devnet (call : Bytes → ContractCall → VMScript Response) : Keeper Unit where
  authority := cosmosBech32.string (List.replicate 20 9)
  propagateGovAuthorization := [.instantiate]
  maxQueryStackSize := 10
  maxCallDepth := 500
  acceptedAccountTypes := [0]
  bech32 := cosmosBech32
  addressModule := wasmModuleAddress
  addressModule_length _ := length_sha256 _
  gasRegister := freeGas
  kvGas _ := 0
  wasmVM := {
    checksum := sha256
    storeCodeCost _ := 0
    check code := if wasmIdent.isPrefixOf code then .ok () else .error "bad magic"
    checkUnchecked code := if wasmIdent.isPrefixOf code then .ok () else .error "bad magic"
    analyze _ := {}
    call code _ c _ := call code c
    query _ _ _ _ := .done 0 (.ok (some { ok := some [] }))
    ibcChannelOpen _ _ _ _ := .done 0 (.ok (some { ok := some "" })) }
  host := emptyHost
  lib := asciiLib

/-- An address codec that is quick to evaluate: one character for each byte. -/
def plainBech32 : Bech32 where
  string a := String.ofList (a.map fun b ↦ Char.ofNat (b.val + 48))
  fromBech32 s :=
    let a : AccAddress := s.toList.map fun c ↦ Fin.ofNat 256 (c.toNat - 48)
    if a ≠ [] ∧ a.length ≤ 255 then .ok a else .error (.text "decoding bech32 failed")
  valid a := a ≠ [] ∧ a.length ≤ 255
  string_nil := rfl
  fromBech32_empty := ⟨_, if_neg (by decide)⟩
  fromBech32_valid {s a} h := by
    dsimp only at h
    split at h
    · next ha =>
      cases h
      exact decide_eq_true ha
    · cases h
  fromBech32_string {a} h := by
    have hback : ∀ b : Byte, Fin.ofNat 256 ((Char.ofNat (b.val + 48)).toNat - 48) = b := by decide +kernel
    have ha : a ≠ [] ∧ a.length ≤ 255 := by simpa using h
    have hmap : (a.map fun b ↦ Char.ofNat (b.val + 48)).map (fun c ↦ Fin.ofNat 256 (c.toNat - 48)) = a := by
      rw [List.map_map]
      exact (List.map_congr_left fun b _ ↦ hback b).trans (List.map_id a)
    simp only [String.toList_ofList, hmap, if_pos ha]
  valid_length h := by simpa using h
  valid_contract {a} h := by
    have hne : a ≠ [] := by
      rintro rfl
      simp at h
    simp [hne, h]

/-- A hash that is quick to evaluate. -/
def padHash (b : Bytes) : Bytes := (b ++ List.replicate 32 0).take 32

theorem length_padHash (b : Bytes) : (padHash b).length = 32 := by
  rw [padHash, List.length_take, List.length_append, List.length_replicate]
  omega

/-- A devnet with these two, for longer runs. -/
def plainnet (call : Bytes → ContractCall → VMScript Response) : Keeper Unit :=
  let k := devnet call
  { k with
    authority := plainBech32.string [9]
    bech32 := plainBech32
    addressModule := padHash
    addressModule_length := length_padHash
    wasmVM := { k.wasmVM with checksum := padHash } }

/-- A contract that accepts every call and does nothing. -/
def idleContract (_ : Bytes) (_ : ContractCall) : VMScript Response := .done 0 (.ok (some { ok := some {} }))

def genesisCtx : Ctx := { blockHeight := 1, blockTime := 1, chainID := "devnet", blockGas := some 0 }

def emptyWorld : World Unit := { store := { kv := .empty, ext := () }, meter := ⟨0, 0, true⟩ }

/-- A chain on which everybody may upload and instantiate. -/
def openWorld : World Unit :=
  { emptyWorld with
    store := { kv := OrderedStore.empty.set paramsKey (.params ⟨allowEverybody, .everybody⟩), ext := () } }

def alice : String := cosmosBech32.string (List.replicate 20 1)
def bob : String := cosmosBech32.string (List.replicate 20 2)

def storeCodeMsg (sender : String) : Msg :=
  .storeCode { sender, wasmByteCode := wasmIdent, instantiatePermission := none }

def instantiateMsg (sender : String) : Msg :=
  .instantiateContract {
    sender, admin := sender, codeID := 1, label := "contract", msg := stringToBytes "\x7b\x7d", funds := [] }

def executeMsg (sender contract : String) : Msg :=
  .executeContract { sender, contract, msg := stringToBytes "\x7b\x7d", funds := [] }

def aliceStores : Msg := storeCodeMsg alice

def aliceInstantiates : Msg := instantiateMsg alice

/-- Somebody on a plain devnet, where the text of an address is short. -/
def carol : String := plainBech32.string [1]

/-- The contract that is the first of its chain. -/
def contractOne : AccAddress := padHash (uint64ToBigEndian 1 ++ uint64ToBigEndian 1)

end Cosmwasgo.State
