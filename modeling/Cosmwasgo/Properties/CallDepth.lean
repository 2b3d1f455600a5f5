import Cosmwasgo.Runs.Watch

namespace Cosmwasgo.Properties

open Cosmwasgo.Lib Cosmwasgo.Types Cosmwasgo.State Cosmwasgo.Keeper Cosmwasgo.Runs

variable {X α : Type} {k : Keeper X}

/-- A contract call that changes state. Queries have a limit of their own. -/
def isActivation : Frame → Bool
  | .call entry _ _ => entry ≠ .query
  | .message _ => false

def isReply : Frame → Bool
  | .call entry _ _ => entry = .reply
  | .message _ => false

/-- The calls that count towards the depth: all but replies. -/
def sent (s : List Frame) : Nat := s.countP fun f ↦ isActivation f && !isReply f

theorem sent_cons_le (f : Frame) (s : List Frame) : sent (f :: s) ≤ sent s + 1 := by
  unfold sent
  rw [List.countP_cons]
  split <;> omega

/-- The depth of a context is ahead of the calls on its path: by as many as the contract whose call is on top,
if there is one, has used up for itself. -/
def AtDepth (max : Nat) (s : Site) : Prop :=
  sent s.ctx.stack ≤ s.ctx.callDepth + s.inside.toNat ∧ s.ctx.callDepth ≤ max

theorem AtDepth.enters {permits : Ctx → Operation → AccAddress → AuthorizationPolicy → Prop} {s s' : Site}
    (he : Site.Enters k permits s s') (h : AtDepth k.maxCallDepth s) : AtDepth k.maxCallDepth s' := by
  obtain ⟨hsent, hmax⟩ := h
  cases he with
  | message c m => exact ⟨hsent, hmax⟩
  | call c entry he a => exact ⟨(sent_cons_le _ _).trans (Nat.succ_le_succ hsent), hmax⟩
  | instantiate hp a => exact ⟨(sent_cons_le _ _).trans (Nat.succ_le_succ hsent), hmax⟩
  | migrate hp => exact ⟨(sent_cons_le _ _).trans (Nat.succ_le_succ hsent), hmax⟩
  | reply c a =>
    -- a reply runs at the depth of the call it replies to
    exact ⟨hsent, hmax⟩
  | deeper c h => exact ⟨hsent, h⟩

/-- The paths of the contract calls of a run. -/
def calls (w w' : World X) : List (List Frame) :=
  (w'.trace.drop w.trace.length).filterMap fun
    | .call s => some s
    | _ => none

section Devnet

end Devnet

end Cosmwasgo.Properties
