import Cosmwasgo.Keeper.Encoders
import Cosmwasgo.State.Devnet

namespace Cosmwasgo.Properties

open Cosmwasgo.Lib Cosmwasgo.Types Cosmwasgo.State Cosmwasgo.Keeper

variable {X α : Type} {k : Keeper X} {customs : List (Option MessageEncoders)}

/-- The last encoder that is set for a variant. -/
def lastSet (variant : MessageEncoders → Option α) (customs : List (Option MessageEncoders)) : Option α :=
  customs.reverse.findSome? fun o ↦ o.bind variant

/-- Merged encoders hold for each variant the last one that is set. -/
theorem foldl_merge {variant : MessageEncoders → Option α}
    (hmerge : ∀ e o, variant (e.merge (some o)) = (variant o <|> variant e)) (e : MessageEncoders)
    (customs : List (Option MessageEncoders)) :
    variant (customs.foldl MessageEncoders.merge e) = (lastSet variant customs <|> variant e) := by
  induction customs using List.reverseRecOn with
  | nil => rfl
  | append_singleton customs o ih =>
    rw [List.foldl_append, lastSet, List.reverse_append, List.reverse_singleton, List.singleton_append]
    cases o with
    | none => exact ih
    | some o =>
      change variant (MessageEncoders.merge _ (some o)) = _
      rw [hmerge, ih, List.findSome?_cons]
      cases ho : variant o with
      | none => simp [ho, lastSet]
      | some f => simp [ho]

/-- The encoder that is set last for a variant, or the default. -/
def chosen (variant : MessageEncoders → Option α) (default : α) (customs : List (Option MessageEncoders)) : α :=
  (lastSet variant customs).getD default

theorem newEncoders_eq {variant : MessageEncoders → Option α} {default : α}
    (hmerge : ∀ e o, variant (e.merge (some o)) = (variant o <|> variant e))
    (hdefault : variant (defaultEncoders k) = some default) :
    variant (newEncoders k customs) = some (chosen variant default customs) := by
  rw [newEncoders, foldl_merge hmerge, hdefault, chosen]
  cases lastSet variant customs <;> rfl

/-- A message with one variant set is encoded by the encoder that is set last for this variant. -/
structure Overrides (k : Keeper X) (customs : List (Option MessageEncoders)) : Prop where
  bank : ∀ c addr port m, (newEncoders k customs).encode k c addr port { bank := some m } =
    .ok (chosen (·.bank) (encodeBankMsg k) customs addr m)
  custom : ∀ c addr port m, (newEncoders k customs).encode k c addr port { custom := some m } =
    .ok (chosen (·.custom) (fun _ _ ↦ noCustomMsg) customs addr m)
  distribution : ∀ c addr port m, (newEncoders k customs).encode k c addr port { distribution := some m } =
    .ok (chosen (·.distribution) (fun sender msg ↦ encodePlain (k.host.encodeDistributionMsg sender msg)) customs addr m)
  ibc : ∀ c addr port m, (newEncoders k customs).encode k c addr port { ibc := some m } =
    .ok (chosen (·.ibc) (fun _ ↦ encodeIBCMsg k) customs c addr port m)
  staking : ∀ c addr port m, (newEncoders k customs).encode k c addr port { staking := some m } =
    .ok (chosen (·.staking) (fun sender msg ↦ encodePlain (k.host.encodeStakingMsg sender msg)) customs addr m)
  any : ∀ c addr port m, (newEncoders k customs).encode k c addr port { any := some m } =
    .ok (chosen (·.any) (fun _ ↦ encodeAnyMsg k) customs addr m)
  wasm : ∀ c addr port m, (newEncoders k customs).encode k c addr port { wasm := some m } =
    .ok (chosen (·.wasm) (encodeWasmMsg k) customs addr m)
  gov : ∀ c addr port m, (newEncoders k customs).encode k c addr port { gov := some m } =
    .ok (chosen (·.gov) (encodeGovMsg k) customs addr m)

/-- Custom encoders override the defaults of every variant exactly if the last one for gov messages, should there be
any, encodes as the default does. -/
theorem overrides_iff (k : Keeper X) (customs : List (Option MessageEncoders)) :
    Overrides k customs ↔ ∀ f, lastSet (·.gov) customs = some f → f = encodeGovMsg k := by
  constructor
  · intro h f hf
    funext addr m
    have hgov := h.gov { blockHeight := 0, blockTime := 0, chainID := "", blockGas := none } addr "" m
    rw [chosen, hf] at hgov
    exact (Except.ok.inj hgov).symm
  · intro h
    have hcall : ∀ {β : Type} {p : Option β} {f : β} (args : β → Encoded), p = some f →
        MessageEncoders.call p args = .ok (args f) := by
      rintro _ _ f args rfl
      rfl
    refine ⟨fun c addr port m ↦ ?_, fun c addr port m ↦ ?_, fun c addr port m ↦ ?_, fun c addr port m ↦ ?_,
      fun c addr port m ↦ ?_, fun c addr port m ↦ ?_, fun c addr port m ↦ ?_, fun c addr port m ↦ ?_⟩
    · exact hcall _ (newEncoders_eq (fun _ _ ↦ rfl) rfl)
    · exact hcall _ (newEncoders_eq (fun _ _ ↦ rfl) rfl)
    · exact hcall _ (newEncoders_eq (fun _ _ ↦ rfl) rfl)
    · exact hcall _ (newEncoders_eq (fun _ _ ↦ rfl) rfl)
    · exact hcall _ (newEncoders_eq (fun _ _ ↦ rfl) rfl)
    · exact hcall _ (newEncoders_eq (fun _ _ ↦ rfl) rfl)
    · exact hcall _ (newEncoders_eq (fun _ _ ↦ rfl) rfl)
    · -- the pointer is not looked at
      change Except.ok (encodeGovMsg k addr m) = _
      rw [chosen]
      cases hlast : lastSet (·.gov) customs with
      | none => rfl
      | some f => rw [h f hlast, Option.getD_some]

/-- An app whose encoders accept every gov message and make nothing of it. -/
def govEncoders : MessageEncoders := { gov := some fun _ _ ↦ .ok [] }

/-- The custom encoder is set last and not called. -/
theorem govEncoder_ignored :
    lastSet (·.gov) [some govEncoders] = some (fun _ _ ↦ .ok []) ∧
    (newEncoders (devnet idleContract) [some govEncoders]).encode (devnet idleContract) genesisCtx [1] ""
      { gov := some [] } =
      .ok (.error (unsupported "gov")) :=
  ⟨rfl, rfl⟩

end Cosmwasgo.Properties
