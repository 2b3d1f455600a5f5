import Cosmwasgo.Keeper.Handlers

namespace Cosmwasgo.Keeper

open Cosmwasgo.Lib Cosmwasgo.Types Cosmwasgo.State

variable {X α : Type}

abbrev Encoded := Except Err (List SdkMsg)

/-- The encoders of all variants. Each is a function pointer in Go and may be nil. -/
structure MessageEncoders where
  bank : Option (AccAddress → BankMsg → Encoded) := none
  custom : Option (AccAddress → Bytes → Encoded) := none
  distribution : Option (AccAddress → Bytes → Encoded) := none
  ibc : Option (Ctx → AccAddress → String → IBCMsg → Encoded) := none
  staking : Option (AccAddress → Bytes → Encoded) := none
  any : Option (AccAddress → ExtMsg → Encoded) := none
  wasm : Option (AccAddress → WasmMsg → Encoded) := none
  gov : Option (AccAddress → Bytes → Encoded) := none

def encodeGovMsg (k : Keeper X) (sender : AccAddress) (msg : Bytes) : Encoded :=
  encodePlain (k.host.encodeGovMsg sender msg)

def defaultEncoders (k : Keeper X) : MessageEncoders where
  bank := some (encodeBankMsg k)
  custom := some fun _ _ ↦ noCustomMsg
  distribution := some fun sender msg ↦ encodePlain (k.host.encodeDistributionMsg sender msg)
  ibc := some fun _ ↦ encodeIBCMsg k
  staking := some fun sender msg ↦ encodePlain (k.host.encodeStakingMsg sender msg)
  any := some fun _ ↦ encodeAnyMsg k
  wasm := some (encodeWasmMsg k)
  gov := some (encodeGovMsg k)

namespace MessageEncoders

def merge (e : MessageEncoders) : Option MessageEncoders → MessageEncoders
  | none => e
  | some o => {
    bank := o.bank <|> e.bank
    custom := o.custom <|> e.custom
    distribution := o.distribution <|> e.distribution
    ibc := o.ibc <|> e.ibc
    staking := o.staking <|> e.staking
    any := o.any <|> e.any
    wasm := o.wasm <|> e.wasm
    gov := o.gov <|> e.gov }

/-- Calls an encoder through its pointer. -/
def call (f : Option α) (args : α → Encoded) : Except Panic Encoded :=
  match f with
  | some f => .ok (args f)
  | none => .error nilPointer

/-- The first variant that is set decides. Gov messages go to the function of the package, whatever the encoders hold. -/
def encode (e : MessageEncoders) (k : Keeper X) (c : Ctx) (contractAddr : AccAddress) (contractIBCPortID : String)
    (msg : CosmosMsg) : Except Panic Encoded :=
  match msg with
  | { bank := some m, .. } => call e.bank fun f ↦ f contractAddr m
  | { custom := some m, .. } => call e.custom fun f ↦ f contractAddr m
  | { distribution := some m, .. } => call e.distribution fun f ↦ f contractAddr m
  | { ibc := some m, .. } => call e.ibc fun f ↦ f c contractAddr contractIBCPortID m
  | { staking := some m, .. } => call e.staking fun f ↦ f contractAddr m
  | { any := some m, .. } => call e.any fun f ↦ f contractAddr m
  | { wasm := some m, .. } => call e.wasm fun f ↦ f contractAddr m
  | { gov := some m, .. } => .ok (encodeGovMsg k contractAddr m)
  | _ => .ok (.error (.wrap errUnknownMsg "unknown variant of Wasm"))

end MessageEncoders

/-- The encoders `NewDefaultMessageHandler` builds. -/
def newEncoders (k : Keeper X) (customEncoders : List (Option MessageEncoders)) : MessageEncoders :=
  customEncoders.foldl MessageEncoders.merge (defaultEncoders k)

/-- Without custom encoders these are the encoders of the default message handler. -/
theorem encode_defaultEncoders (k : Keeper X) (c : Ctx) (contractAddr : AccAddress) (contractIBCPortID : String)
    (msg : CosmosMsg) :
    (newEncoders k []).encode k c contractAddr contractIBCPortID msg = .ok (encode k contractAddr contractIBCPortID msg) := by
  obtain ⟨_ | m, _ | m, _ | m, _ | m, _ | m, _ | m, _ | m, _ | m⟩ := msg <;> rfl

end Cosmwasgo.Keeper
