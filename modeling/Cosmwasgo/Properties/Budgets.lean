import Cosmwasgo.Keeper.Authz
import Cosmwasgo.Runs.Ensures
import Cosmwasgo.State.Devnet
import Mathlib.Data.List.ReduceOption

namespace Cosmwasgo.Properties

open Cosmwasgo.Lib Cosmwasgo.Types Cosmwasgo.State Cosmwasgo.Keeper Cosmwasgo.Runs

variable {X : Type} (k : Keeper X) (decode : Bytes → Except Err (Option (List String)))

/-- The authorization after a message was passed to it, and the message if it was accepted. -/
def ContractAuthorization.left (a : ContractAuthorization) : Outcome Err Panic AcceptResponse → Option ContractAuthorization
  | .ok r => if r.delete then none else some (r.updated.getD a)
  | _ => some a

def ContractAuthorization.taken (a : ContractAuthorization) (msg : Msg) :
    Outcome Err Panic AcceptResponse → List AuthzableWasmMsg
  | .ok r => if r.accept then (a.kind.asAuthzable msg).toList else []
  | _ => []

/-- Messages are passed to an authorization one after the other, each as the one before has left it, until it is
deleted. The list has those that are accepted. -/
inductive AuthzRun (a₀ : ContractAuthorization) : List AuthzableWasmMsg → Option ContractAuthorization → Prop
  | start : AuthzRun a₀ [] (some a₀)
  | pass {accepted : List AuthzableWasmMsg} {a : ContractAuthorization} {msg : Msg} {w w' : World X}
      {r : Outcome Err Panic AcceptResponse} (h : AuthzRun a₀ accepted (some a))
      (hr : acceptGrantedMessage k decode a msg w = (r, w')) :
      AuthzRun a₀ (accepted ++ ContractAuthorization.taken a msg r) (ContractAuthorization.left a r)

def FilterAccepts (f : ContractAuthzFilter) (msg : Bytes) : Prop :=
  ∃ w w' : World X, ContractAuthzFilter.accept k decode msg f w = (.ok true, w')

def ContractAuthzLimit.calls : ContractAuthzLimit → Option UInt64
  | .maxCalls n => some n
  | .combined n _ => some n
  | _ => none

def ContractAuthzLimit.amounts : ContractAuthzLimit → Option Coins
  | .maxFunds amounts => some amounts
  | .combined _ amounts => some amounts
  | _ => none

/-- The messages that are charged to the grant at a position. -/
def chargedTo (ledger : List (AuthzableWasmMsg × Nat)) (i : Nat) : List AuthzableWasmMsg :=
  (ledger.filter (·.2 = i)).map (·.1)

def spent (msgs : List AuthzableWasmMsg) (denom : String) : Int := (msgs.map fun m ↦ Coins.amountOf m.funds denom).sum

/-- Messages are charged to grants that allow them, within the limits of each, and the grants that no message is charged
to stay as they are and in their order. -/
structure WithinBudgets (grants : List ContractGrant) (ledger : List (AuthzableWasmMsg × Nat))
    (left : Option ContractAuthorization) : Prop where
  granted : ∀ e ∈ ledger, ∃ g, grants[e.2]? = some g ∧ e.1.contract = g.contract ∧ FilterAccepts k decode g.filter e.1.msg
  calls : ∀ i g n, grants[i]? = some g → ContractAuthzLimit.calls g.limit = some n →
    (chargedTo ledger i).length ≤ n.toNat
  funds : ∀ i g amounts, grants[i]? = some g → ContractAuthzLimit.amounts g.limit = some amounts →
    ∀ denom, spent (chargedTo ledger i) denom ≤ Coins.amountOf amounts denom
  noFunds : ∀ i g n, grants[i]? = some g → g.limit = .maxCalls n → ∀ m ∈ chargedTo ledger i, m.funds = []
  untouched : ∃ slots : List (Option ContractGrant), slots.length = grants.length ∧
    (left.map (·.grants)).getD [] = slots.reduceOption ∧
    ∀ i g, grants[i]? = some g → chargedTo ledger i = [] → slots[i]? = some (some g)

section Limits

variable {k}

/-- A limit, the messages charged to it, and what is left of it. -/
inductive Within : ContractAuthzLimit → List AuthzableWasmMsg → Option ContractAuthzLimit → Prop
  | maxCalls {n r : UInt64} {msgs : List AuthzableWasmMsg} (hf : ∀ m ∈ msgs, m.funds = [])
      (hc : msgs.length + r.toNat = n.toNat) : Within (.maxCalls n) msgs (some (.maxCalls r))
  | noCalls {n : UInt64} {msgs : List AuthzableWasmMsg} (hf : ∀ m ∈ msgs, m.funds = []) (hc : msgs.length ≤ n.toNat) :
      Within (.maxCalls n) msgs none
  | maxFunds {a b : Coins} {msgs : List AuthzableWasmMsg} (hb : ∀ denom, 0 ≤ Coins.amountOf b denom)
      (hs : ∀ denom, spent msgs denom + Coins.amountOf b denom = Coins.amountOf a denom) :
      Within (.maxFunds a) msgs (some (.maxFunds b))
  | noFunds {a : Coins} {msgs : List AuthzableWasmMsg} (hs : ∀ denom, spent msgs denom ≤ Coins.amountOf a denom) :
      Within (.maxFunds a) msgs none
  | combined {n r : UInt64} {a b : Coins} {msgs : List AuthzableWasmMsg} (hc : msgs.length + r.toNat = n.toNat)
      (hb : ∀ denom, 0 ≤ Coins.amountOf b denom)
      (hs : ∀ denom, spent msgs denom + Coins.amountOf b denom = Coins.amountOf a denom) :
      Within (.combined n a) msgs (some (.combined r b))
  | neither {n : UInt64} {a : Coins} {msgs : List AuthzableWasmMsg} (hc : msgs.length ≤ n.toNat)
      (hs : ∀ denom, spent msgs denom ≤ Coins.amountOf a denom) : Within (.combined n a) msgs none

variable {limit l : ContractAuthzLimit} {msgs : List AuthzableWasmMsg} {left : Option ContractAuthzLimit}

theorem Within.length_le (h : Within limit msgs left) {n : UInt64} (hn : ContractAuthzLimit.calls limit = some n) :
    msgs.length ≤ n.toNat := by
  cases h with
  | maxCalls _ hc => cases hn; omega
  | noCalls _ hc => cases hn; exact hc
  | maxFunds _ _ => cases hn
  | noFunds _ => cases hn
  | combined hc _ _ => cases hn; omega
  | neither hc _ => cases hn; exact hc

theorem Within.spent_le (h : Within limit msgs left) {a : Coins} (ha : ContractAuthzLimit.amounts limit = some a)
    (denom : String) : spent msgs denom ≤ Coins.amountOf a denom := by
  cases h with
  | maxCalls _ _ => cases ha
  | noCalls _ _ => cases ha
  | maxFunds hb hs =>
    cases ha
    have hb := hb denom
    have hs := hs denom
    omega
  | noFunds hs => cases ha; exact hs denom
  | combined _ hb hs =>
    cases ha
    have hb := hb denom
    have hs := hs denom
    omega
  | neither _ hs => cases ha; exact hs denom

theorem Within.funds_eq_nil {n : UInt64} (h : Within (.maxCalls n) msgs left) : ∀ m ∈ msgs, m.funds = [] := by
  cases h with
  | maxCalls hf _ => exact hf
  | noCalls hf _ => exact hf

/-- The validator of coins knows what valid coins are. -/
def ChecksCoins (k : Keeper X) : Prop := ∀ coins, k.lib.coinsValidate coins = .ok () → Coins.Valid coins

/-- A valid limit, with nothing charged to it. -/
theorem Within.start (hk : ChecksCoins k) (h : ContractAuthzLimit.validateBasic k l = .ok ()) :
    Within l [] (some l) := by
  cases l with
  | undefined => cases h
  | maxCalls n => exact .maxCalls nofun (Nat.zero_add _)
  | maxFunds a =>
    obtain ⟨_, ha, -⟩ := except_bind_eq_ok.1 h
    exact .maxFunds (hk a ha).amountOf_nonneg fun _ ↦ zero_add _
  | combined n a =>
    obtain ⟨-, h⟩ := check_bind_eq_ok.1 h
    obtain ⟨-, h⟩ := check_bind_eq_ok.1 h
    exact .combined (Nat.zero_add _) (hk a (wrap_eq_ok.1 h)).amountOf_nonneg fun _ ↦ zero_add _

theorem spent_append (msgs : List AuthzableWasmMsg) (m : AuthzableWasmMsg) (denom : String) :
    spent (msgs ++ [m]) denom = spent msgs denom + Coins.amountOf m.funds denom := by
  simp [spent]

/-- What is left of a limit by the result of its `Accept`. -/
def leftLimit (l : ContractAuthzLimit) (r : ContractAuthzLimitAcceptResult) : Option ContractAuthzLimit :=
  if r.deleteLimit then none else some (r.updateLimit.getD l)

theorem toNat_pred {n : UInt64} (h : n ≠ 0) : (n - 1).toNat + 1 = n.toNat := by
  have hpos : 0 < n.toNat := Nat.pos_of_ne_zero fun hz ↦ h (UInt64.toNat_inj.1 hz)
  have h1 : (1 : UInt64).toNat = 1 := rfl
  rw [UInt64.toNat_sub_of_le n 1 (UInt64.le_iff_toNat_le.2 (by omega)), h1]
  omega

section Charge

variable {m : AuthzableWasmMsg} {r : ContractAuthzLimitAcceptResult} {w w' : World X}

theorem charge_maxCalls {n n₀ : UInt64} (hrun : ContractAuthzLimit.accept k m (.maxCalls n) w = (.ok r, w'))
    (hacc : r.accepted = true) (hf : ∀ m ∈ msgs, m.funds = []) (hc : msgs.length + n.toNat = n₀.toNat) :
    Within (.maxCalls n₀) (msgs ++ [m]) (leftLimit (.maxCalls n) r) := by
  simp only [ContractAuthzLimit.accept] at hrun
  split_ifs at hrun with hfunds hzero hone
  · cases hrun
    cases hacc
  · cases hrun
  all_goals
    have hpred := toNat_pred hzero
    have hf' : ∀ m' ∈ msgs ++ [m], m'.funds = [] := by
      simpa [or_imp, forall_and] using ⟨hf, not_not.1 hfunds⟩
    have hlen : (msgs ++ [m]).length = msgs.length + 1 := by simp
    cases hrun
  · exact .noCalls hf' (by omega)
  · exact .maxCalls hf' (by omega)

variable {a b : Coins} (hb : Coins.Valid b) (hm : Coins.Valid m.funds)
  (hs : ∀ denom, spent msgs denom + Coins.amountOf b denom = Coins.amountOf a denom)
include hb hm hs

theorem spent_le_of_isAllLTE (hle : Coins.isAllLTE m.funds b = true) (denom : String) :
    spent (msgs ++ [m]) denom ≤ Coins.amountOf a denom := by
  have hle := Coins.amountOf_le hm hb hle denom
  have hs := hs denom
  rw [spent_append]
  omega

theorem spent_of_sub {c : Coins} (hsub : Coins.sub b m.funds = .ok c) (denom : String) :
    0 ≤ Coins.amountOf c denom ∧ spent (msgs ++ [m]) denom + Coins.amountOf c denom = Coins.amountOf a denom := by
  have hle := Coins.amountOf_le hm hb (Coins.sub_eq_ok hsub).1 denom
  have hc := Coins.amountOf_sub hb hm hsub denom
  have hs := hs denom
  rw [spent_append]
  omega

theorem charge_maxFunds (hrun : ContractAuthzLimit.accept k m (.maxFunds b) w = (.ok r, w')) (hacc : r.accepted = true) :
    Within (.maxFunds a) (msgs ++ [m]) (leftLimit (.maxFunds b) r) := by
  simp only [ContractAuthzLimit.accept] at hrun
  split_ifs at hrun with hfunds hle
  · cases hrun
    refine .maxFunds hb.amountOf_nonneg fun denom ↦ ?_
    rw [spent_append, hfunds]
    exact (congrArg (· + _) (add_zero _)).trans (hs denom)
  · cases hrun
    cases hacc
  · obtain ⟨c, w₁, hsub, hrun⟩ := Program.bind_eq_ok.1 hrun
    have hsub := ((Writes.liftPanic _).ensures hsub).1
    have hspent := spent_of_sub hb hm hs hsub
    split_ifs at hrun with hzero
    · cases hrun
      exact .noFunds (spent_le_of_isAllLTE hb hm hs (by simpa using hle))
    · cases hrun
      exact .maxFunds (fun denom ↦ (hspent denom).1) fun denom ↦ (hspent denom).2

theorem charge_combined {n n₀ : UInt64} (hrun : ContractAuthzLimit.accept k m (.combined n b) w = (.ok r, w'))
    (hacc : r.accepted = true) (hc : msgs.length + n.toNat = n₀.toNat) :
    Within (.combined n₀ a) (msgs ++ [m]) (leftLimit (.combined n b) r) := by
  have hlen : (msgs ++ [m]).length = msgs.length + 1 := by simp
  simp only [ContractAuthzLimit.accept] at hrun
  split_ifs at hrun with hle hzero hone
  · cases hrun
    cases hacc
  · cases hrun
  · have hpred := toNat_pred hzero
    cases hrun
    exact .neither (by omega) (spent_le_of_isAllLTE hb hm hs (by simpa using hle))
  · have hpred := toNat_pred hzero
    obtain ⟨c, w₁, hsub, hrun⟩ := Program.bind_eq_ok.1 hrun
    have hsub := ((Writes.liftPanic _).ensures hsub).1
    have hspent := spent_of_sub hb hm hs hsub
    split_ifs at hrun with hgone
    · cases hrun
      exact .neither (by omega) (spent_le_of_isAllLTE hb hm hs (by simpa using hle))
    · obtain ⟨c', w₂, hnew, hrun⟩ := Program.bind_eq_ok.1 hrun
      have hnew := ((Writes.liftPanic _).ensures hnew).1
      have hsame : ∀ denom, Coins.amountOf c' denom = Coins.amountOf c denom := by
        intro denom
        unfold newCoins at hnew
        split at hnew
        · cases hnew
          exact Coins.amountOf_sanitize (Coins.sub_distinct hb hsub) denom
        · cases hnew
      cases hrun
      refine .combined (by omega) (fun denom ↦ ?_) fun denom ↦ ?_
      · rw [hsame]
        exact (hspent denom).1
      · rw [hsame]
        exact (hspent denom).2

end Charge

/-- A message that a limit accepts is charged to it. -/
theorem Within.charge (hk : ChecksCoins k) (hl : ContractAuthzLimit.validateBasic k l = .ok ()) {m : AuthzableWasmMsg}
    (hm : Coins.Valid m.funds) {r : ContractAuthzLimitAcceptResult} {w w' : World X}
    (hrun : ContractAuthzLimit.accept k m l w = (.ok r, w')) (hacc : r.accepted = true)
    (h : Within limit msgs (some l)) : Within limit (msgs ++ [m]) (leftLimit l r) := by
  cases h with
  | maxCalls hf hc => exact charge_maxCalls hrun hacc hf hc
  | maxFunds _ hs =>
    obtain ⟨_, hb, -⟩ := except_bind_eq_ok.1 hl
    exact charge_maxFunds (hk _ hb) hm hs hrun hacc
  | combined hc _ hs =>
    obtain ⟨-, hl⟩ := check_bind_eq_ok.1 hl
    obtain ⟨-, hl⟩ := check_bind_eq_ok.1 hl
    exact charge_combined (hk _ (wrap_eq_ok.1 hl)) hm hs hrun hacc hc

end Limits

section Accept

variable {k decode} {kind : ContractAuthzKind} {exec : AuthzableWasmMsg} {r : AcceptResponse} {w w' : World X}

/-- The message passes the limit and the filter of a grant, which is then updated. -/
def TakesGrant (k : Keeper X) (decode : Bytes → Except Err (Option (List String))) (kind : ContractAuthzKind)
    (exec : AuthzableWasmMsg) (r : AcceptResponse) (done grants : List ContractGrant) : Prop :=
  ∃ pre g post result, grants = pre ++ g :: post ∧ exec.contract = g.contract ∧
    (∃ w w', ContractAuthzLimit.accept k exec g.limit w = (.ok result, w')) ∧ result.accepted = true ∧
    FilterAccepts k decode g.filter exec.msg ∧ ∃ w w', updateGrants k kind (done ++ pre) g post result w = (.ok r, w')

theorem acceptGrants_eq_ok {done grants : List ContractGrant}
    (hrun : acceptGrants k decode kind exec done grants w = (.ok r, w')) :
    r = { accept := false } ∨ TakesGrant k decode kind exec r done grants := by
  induction grants generalizing done w with
  | nil =>
    cases hrun
    exact .inl rfl
  | cons g grants ih =>
    have hlater : ∀ {w}, acceptGrants k decode kind exec (done ++ [g]) grants w = (.ok r, w') →
        r = { accept := false } ∨ TakesGrant k decode kind exec r done (g :: grants) := by
      intro w h
      refine (ih h).imp_right ?_
      rintro ⟨pre, g', post, result, rfl, hrest⟩
      exact ⟨g :: pre, g', post, result, rfl, by simpa using hrest⟩
    rw [acceptGrants] at hrun
    split_ifs at hrun with hcontract
    · exact hlater hrun
    obtain ⟨result, w₁, hlimit, hrun⟩ := Program.bind_eq_ok.1 hrun
    have hlimit := wrapErr_eq_ok.1 hlimit
    split_ifs at hrun with haccepted
    · exact hlater hrun
    obtain ⟨ok, w₂, hfilter, hrun⟩ := Program.bind_eq_ok.1 hrun
    have hfilter := wrapErr_eq_ok.1 hfilter
    split_ifs at hrun with hok
    · exact hlater hrun
    obtain rfl : ok = true := by simpa using hok
    exact .inr ⟨[], g, grants, result, rfl, (not_not.1 hcontract).symm, ⟨w, w₁, hlimit⟩, by simpa using haccepted,
      ⟨w₁, w₂, hfilter⟩, w₂, w', by simpa using hrun⟩

/-- What the update leaves of the grants. -/
def leftGrant (g : ContractGrant) (result : ContractAuthzLimitAcceptResult) : Option ContractGrant :=
  (leftLimit g.limit result).map fun limit ↦ { g with limit }

theorem newAuthz_eq_ok {grants : List ContractGrant} (hrun : newAuthz k kind grants w = (.ok r, w')) :
    validateGrants k grants = .ok () ∧ r = { accept := true, updated := some ⟨kind, grants⟩ } := by
  obtain ⟨_, w₁, hlift, hrun⟩ := Program.bind_eq_ok.1 hrun
  have hlift := (Ensures.lift _ hlift).1
  cases hrun
  rcases hg : validateGrants k grants with e | ⟨⟩
  · rw [hg] at hlift
    cases hlift
  · exact ⟨rfl, rfl⟩

/-- The authorization that is left is validated again, and has the other grants as they were. -/
theorem updateGrants_eq_ok {pre post : List ContractGrant} {g : ContractGrant} {result : ContractAuthzLimitAcceptResult}
    (hrun : updateGrants k kind pre g post result w = (.ok r, w'))
    (hvalid : validateGrants k (pre ++ g :: post) = .ok ()) :
    let left := ContractAuthorization.left ⟨kind, pre ++ g :: post⟩ (.ok r)
    r.accept = true ∧ (left.map (·.grants)).getD [] = pre ++ (leftGrant g result).toList ++ post ∧
      ∀ a, left = some a → validateGrants k a.grants = .ok () := by
  unfold updateGrants at hrun
  unfold leftGrant leftLimit
  split_ifs at hrun with hdelete hnil
  · cases hrun
    rw [if_pos hdelete]
    refine ⟨rfl, ?_, nofun⟩
    simpa [ContractAuthorization.left] using hnil
  · obtain ⟨hgrants, rfl⟩ := newAuthz_eq_ok hrun
    rw [if_pos hdelete]
    refine ⟨rfl, by simp [ContractAuthorization.left], fun a ha ↦ ?_⟩
    cases ha
    exact hgrants
  · rw [if_neg hdelete]
    rcases hupdate : result.updateLimit with _ | limit <;> rw [hupdate] at hrun
    · cases hrun
      refine ⟨rfl, by simp [ContractAuthorization.left], fun a ha ↦ ?_⟩
      cases ha
      exact hvalid
    · obtain ⟨hgrants, rfl⟩ := newAuthz_eq_ok hrun
      refine ⟨rfl, by simp [ContractAuthorization.left], fun a ha ↦ ?_⟩
      cases ha
      exact hgrants

end Accept

section Accounts

variable {k decode} {grants : List ContractGrant} {ledger : List (AuthzableWasmMsg × Nat)}

/-- A grant, the messages charged to it, and what is left of it. -/
structure Account (g : ContractGrant) (msgs : List AuthzableWasmMsg) (left : Option ContractGrant) : Prop where
  same : ∀ g', left = some g' → g'.contract = g.contract ∧ g'.filter = g.filter
  within : Within g.limit msgs (left.map (·.limit))
  untouched : msgs = [] → left = some g

structure Accounts (k : Keeper X) (decode : Bytes → Except Err (Option (List String))) (grants : List ContractGrant)
    (ledger : List (AuthzableWasmMsg × Nat)) (slots : List (Option ContractGrant)) : Prop where
  length : slots.length = grants.length
  granted : ∀ e ∈ ledger, ∃ g, grants[e.2]? = some g ∧ e.1.contract = g.contract ∧ FilterAccepts k decode g.filter e.1.msg
  account : ∀ i g left, grants[i]? = some g → slots[i]? = some left → Account g (chargedTo ledger i) left

theorem exists_slot {α : Type} {slots : List (Option α)} {pre post : List α} {g : α}
    (h : slots.reduceOption = pre ++ g :: post) :
    ∃ before after, slots = before ++ some g :: after ∧ before.reduceOption = pre ∧ after.reduceOption = post := by
  induction slots generalizing pre with
  | nil =>
    rw [List.reduceOption_nil] at h
    cases pre <;> cases h
  | cons s slots ih =>
    cases s with
    | none =>
      rw [List.reduceOption_cons_of_none] at h
      obtain ⟨before, after, rfl, hbefore, hafter⟩ := ih h
      exact ⟨none :: before, after, rfl, by rwa [List.reduceOption_cons_of_none], hafter⟩
    | some g' =>
      rw [List.reduceOption_cons_of_some] at h
      cases pre with
      | nil =>
        obtain ⟨rfl, rfl⟩ := List.cons.inj h
        exact ⟨[], slots, rfl, rfl, rfl⟩
      | cons g'' pre =>
        obtain ⟨rfl, hrest⟩ := List.cons.inj h
        obtain ⟨before, after, rfl, hbefore, hafter⟩ := ih hrest
        exact ⟨some g' :: before, after, rfl, by rw [List.reduceOption_cons_of_some, hbefore], hafter⟩

theorem chargedTo_append (ledger : List (AuthzableWasmMsg × Nat)) (m : AuthzableWasmMsg) (i j : Nat) :
    chargedTo (ledger ++ [(m, i)]) j = chargedTo ledger j ++ if i = j then [m] else [] := by
  unfold chargedTo
  by_cases h : i = j
  · simp [h]
  · simp [h]

/-- One more message is charged to the grant in one of the slots. -/
theorem Accounts.charge {before after : List (Option ContractGrant)} {g : ContractGrant} {left : Option ContractGrant}
    {m : AuthzableWasmMsg} (h : Accounts k decode grants ledger (before ++ some g :: after))
    (hcontract : m.contract = g.contract) (hfilter : FilterAccepts k decode g.filter m.msg)
    (hsame : ∀ g', left = some g' → g'.contract = g.contract ∧ g'.filter = g.filter)
    (hwithin : ∀ {limit msgs}, Within limit msgs (some g.limit) → Within limit (msgs ++ [m]) (left.map (·.limit))) :
    Accounts k decode grants (ledger ++ [(m, before.length)]) (before ++ left :: after) := by
  have hlen := h.length
  rw [List.length_append, List.length_cons] at hlen
  obtain ⟨g₀, hg₀⟩ : ∃ g₀, grants[before.length]? = some g₀ := ⟨_, List.getElem?_eq_getElem (by omega)⟩
  have hslot : (before ++ some g :: after)[before.length]? = some (some g) := by simp
  have hold := h.account _ _ _ hg₀ hslot
  obtain ⟨hsame₀, hfilter₀⟩ := hold.same g rfl
  refine ⟨by simpa using hlen, fun e he ↦ ?_, fun i g' left' hg' hleft' ↦ ?_⟩
  · rcases List.mem_append.1 he with he | he
    · exact h.granted e he
    · obtain rfl := List.mem_singleton.1 he
      exact ⟨g₀, hg₀, hcontract.trans hsame₀, hfilter₀ ▸ hfilter⟩
  · rw [chargedTo_append]
    by_cases hi : before.length = i
    · subst hi
      obtain rfl : g₀ = g' := Option.some.inj (hg₀.symm.trans hg')
      obtain rfl : left = left' := by simpa using hleft'
      rw [if_pos rfl]
      refine ⟨fun g' hg' ↦ ?_, hwithin hold.within, fun hnil ↦ by simp at hnil⟩
      obtain ⟨hc, hf⟩ := hsame g' hg'
      exact ⟨hc.trans hsame₀, hf.trans hfilter₀⟩
    · rw [if_neg hi, List.append_nil]
      refine h.account i g' left' hg' ?_
      rw [← hleft']
      rcases Nat.lt_or_gt_of_ne hi with hlt | hgt
      · rw [List.getElem?_append_right hlt.le, List.getElem?_append_right hlt.le]
        obtain ⟨j, hj⟩ : ∃ j, i - before.length = j + 1 := ⟨i - before.length - 1, by omega⟩
        rw [hj, List.getElem?_cons_succ, List.getElem?_cons_succ]
      · rw [List.getElem?_append_left hgt, List.getElem?_append_left hgt]

end Accounts

section Run

variable {k decode} {a₀ a : ContractAuthorization} {accepted : List AuthzableWasmMsg} {left : Option ContractAuthorization}

theorem limit_valid {grants : List ContractGrant} (h : validateGrants k grants = .ok ()) {g : ContractGrant}
    (hg : g ∈ grants) : ContractAuthzLimit.validateBasic k g.limit = .ok () := by
  obtain ⟨-, h⟩ := check_bind_eq_ok.1 h
  obtain ⟨_, -, hrest⟩ := except_bind_eq_ok.1 (validateEach_eq_ok h g hg)
  obtain ⟨⟨⟩, hlimit, -⟩ := except_bind_eq_ok.1 hrest
  exact wrap_eq_ok.1 hlimit

theorem funds_valid (hk : ChecksCoins k) {kind : ContractAuthzKind} {msg : Msg} {exec : AuthzableWasmMsg}
    (hexec : kind.asAuthzable msg = some exec) (h : Msg.validateBasic k msg = .ok ()) : Coins.Valid exec.funds := by
  unfold ContractAuthzKind.asAuthzable at hexec
  split at hexec
  · next m =>
    cases hexec
    obtain ⟨_, -, h⟩ := except_bind_eq_ok.1 h
    obtain ⟨_, -, h⟩ := except_bind_eq_ok.1 h
    obtain ⟨⟨⟩, hfunds, -⟩ := except_bind_eq_ok.1 h
    exact hk _ (wrap_eq_ok.1 hfunds)
  · cases hexec
    exact ⟨nofun, List.nodup_nil⟩
  · cases hexec

/-- What is known of a run: the accounts of the original grants, and that what is left has passed validation. -/
structure Accounted (k : Keeper X) (decode : Bytes → Except Err (Option (List String))) (grants : List ContractGrant)
    (accepted : List AuthzableWasmMsg) (left : Option ContractAuthorization) (ledger : List (AuthzableWasmMsg × Nat))
    (slots : List (Option ContractGrant)) : Prop where
  charged : ledger.map (·.1) = accepted
  accounts : Accounts k decode grants ledger slots
  remaining : (left.map (·.grants)).getD [] = slots.reduceOption
  valid : ∀ a, left = some a → validateGrants k a.grants = .ok ()

theorem accounted_start (hk : ChecksCoins k) (h : validateGrants k a₀.grants = .ok ()) :
    Accounted k decode a₀.grants [] (some a₀) [] (a₀.grants.map some) where
  charged := rfl
  accounts := by
    refine ⟨List.length_map _, nofun, fun i g left hg hleft ↦ ?_⟩
    rw [List.getElem?_map, hg] at hleft
    cases hleft
    exact ⟨fun g' hg' ↦ by cases hg'; exact ⟨rfl, rfl⟩, .start hk (limit_valid h (List.mem_of_getElem? hg)), fun _ ↦ rfl⟩
  remaining := by simp [List.reduceOption]
  valid a ha := by
    cases ha
    exact h

theorem Accounted.pass (hk : ChecksCoins k) {grants : List ContractGrant} {ledger : List (AuthzableWasmMsg × Nat)}
    {slots : List (Option ContractGrant)} (h : Accounted k decode grants accepted (some a) ledger slots) {msg : Msg}
    {r : Outcome Err Panic AcceptResponse} {w w' : World X} (hr : acceptGrantedMessage k decode a msg w = (r, w')) :
    ∃ ledger slots, Accounted k decode grants (accepted ++ ContractAuthorization.taken a msg r)
      (ContractAuthorization.left a r) ledger slots := by
  have hkept : Accounted k decode grants (accepted ++ []) (some a) ledger slots := by rwa [List.append_nil]
  cases r with
  | error e => exact ⟨ledger, slots, hkept⟩
  | panic p => exact ⟨ledger, slots, hkept⟩
  | timeout => exact ⟨ledger, slots, hkept⟩
  | ok r =>
    unfold acceptGrantedMessage at hr
    rcases hexec : a.kind.asAuthzable msg with _ | exec <;> rw [hexec] at hr
    · cases hr
    obtain ⟨_, w₁, -, hr⟩ := Program.bind_eq_ok.1 hr
    obtain ⟨_, w₂, hmsg, hr⟩ := Program.bind_eq_ok.1 hr
    have hfunds := funds_valid hk hexec (Ensures.lift _ hmsg).1
    rcases acceptGrants_eq_ok hr with rfl | ⟨pre, g, post, result, hgrants, hcontract, ⟨w₃, w₄, hlimit⟩, hacc, hfilter, w₅,
      w₆, hupdate⟩
    · exact ⟨ledger, slots, hkept⟩
    have hvalid := h.valid a rfl
    have hslots : slots.reduceOption = pre ++ g :: post := h.remaining.symm.trans hgrants
    obtain ⟨before, after, rfl, rfl, rfl⟩ := exists_slot hslots
    obtain ⟨haccept, hleft, hvalid'⟩ := updateGrants_eq_ok hupdate (hgrants ▸ hvalid)
    have hlimitValid := limit_valid hvalid (hgrants ▸ List.mem_append_right _ List.mem_cons_self)
    rw [List.nil_append, ← hgrants] at hleft hvalid'
    refine ⟨ledger ++ [(exec, before.length)], before ++ leftGrant g result :: after, ?_, ?_, ?_, hvalid'⟩
    · rw [List.map_append, h.charged, ContractAuthorization.taken, if_pos haccept, hexec]
      rfl
    · refine h.accounts.charge hcontract hfilter (fun g' hg' ↦ ?_) fun hwithin ↦ ?_
      · obtain ⟨_, -, rfl⟩ := Option.map_eq_some_iff.1 hg'
        exact ⟨rfl, rfl⟩
      · have hcharge := hwithin.charge hk hlimitValid hfunds hlimit hacc
        rwa [leftGrant, Option.map_map, Function.comp_def, Option.map_id']
    · rw [hleft, List.reduceOption_append]
      cases leftGrant g result <;> simp

theorem AuthzRun.accounted (hk : ChecksCoins k) (hvalid : validateGrants k a₀.grants = .ok ())
    (h : AuthzRun k decode a₀ accepted left) :
    ∃ ledger slots, Accounted k decode a₀.grants accepted left ledger slots := by
  induction h with
  | start => exact ⟨_, _, accounted_start hk hvalid⟩
  | pass _ hr ih =>
    obtain ⟨ledger, slots, h⟩ := ih
    exact h.pass hk hr

theorem Accounted.withinBudgets {ledger : List (AuthzableWasmMsg × Nat)} {slots : List (Option ContractGrant)}
    (h : Accounted k decode a₀.grants accepted left ledger slots) : WithinBudgets k decode a₀.grants ledger left := by
  have haccount : ∀ i g, a₀.grants[i]? = some g → ∃ left, slots[i]? = some left ∧ Account g (chargedTo ledger i) left := by
    intro i g hg
    have hi : i < slots.length := h.accounts.length ▸ (List.getElem?_eq_some_iff.1 hg).1
    exact ⟨_, List.getElem?_eq_getElem hi, h.accounts.account i g _ hg (List.getElem?_eq_getElem hi)⟩
  refine ⟨h.accounts.granted, fun i g n hg hn ↦ ?_, fun i g amounts hg ha ↦ ?_, fun i g n hg hn ↦ ?_, slots,
    h.accounts.length, h.remaining, fun i g hg hnil ↦ ?_⟩
  · obtain ⟨left, -, hleft⟩ := haccount i g hg
    exact hleft.within.length_le hn
  · obtain ⟨left, -, hleft⟩ := haccount i g hg
    exact hleft.within.spent_le ha
  · obtain ⟨left, -, hleft⟩ := haccount i g hg
    exact (hn ▸ hleft.within).funds_eq_nil
  · obtain ⟨left, hslot, hleft⟩ := haccount i g hg
    rw [hslot, hleft.untouched hnil]

end Run

theorem authz_within_budgets (k : Keeper X) (decode : Bytes → Except Err (Option (List String))) (hk : ChecksCoins k)
    (a : ContractAuthorization) (ha : ContractAuthorization.validateBasic k a = .ok ())
    (accepted : List AuthzableWasmMsg) (left : Option ContractAuthorization) (h : AuthzRun k decode a accepted left) :
    ∃ ledger, ledger.map (·.1) = accepted ∧ WithinBudgets k decode a.grants ledger left := by
  obtain ⟨ledger, slots, h⟩ := h.accounted hk ha
  exact ⟨ledger, h.charged, h.withinBudgets⟩

section FourCalls

/-- The messages that are accepted of a list, and the authorization that is left. -/
def passAll (k : Keeper X) (decode : Bytes → Except Err (Option (List String))) (w : World X) (a : ContractAuthorization) :
    List Msg → List AuthzableWasmMsg × Option ContractAuthorization
  | [] => ([], some a)
  | msg :: msgs =>
    let r := (acceptGrantedMessage k decode a msg w).1
    match ContractAuthorization.left a r with
    | none => (ContractAuthorization.taken a msg r, none)
    | some a' =>
      let rest := passAll k decode w a' msgs
      (ContractAuthorization.taken a msg r ++ rest.1, rest.2)

theorem AuthzRun.passAll {k : Keeper X} {decode : Bytes → Except Err (Option (List String))} {a₀ a : ContractAuthorization}
    {accepted : List AuthzableWasmMsg} (w : World X) (msgs : List Msg) (h : AuthzRun k decode a₀ accepted (some a)) :
    AuthzRun k decode a₀ (accepted ++ (Properties.passAll k decode w a msgs).1) (Properties.passAll k decode w a msgs).2 := by
  induction msgs generalizing accepted a with
  | nil => simpa [Properties.passAll] using h
  | cons msg msgs ih =>
    have hpass := h.pass (r := (acceptGrantedMessage k decode a msg w).1) rfl
    unfold Properties.passAll
    dsimp only
    rcases hleft : ContractAuthorization.left a (acceptGrantedMessage k decode a msg w).1 with _ | a' <;> rw [hleft] at hpass
    · exact hpass
    · rw [← List.append_assoc]
      exact ih hpass

/-- A chain that knows the coins that are valid. -/
def coinnet : Keeper Unit :=
  let k := plainnet idleContract
  let coinsValidate (coins : Coins) : Except Err Unit :=
    if (∀ c ∈ coins, 0 < c.amount) ∧ (coins.map (·.denom)).Nodup then .ok () else .error (.text "coins")
  { k with lib := { k.lib with coinsValidate } }

theorem checksCoins_coinnet : ChecksCoins coinnet := by
  intro coins h
  have hvalid : (∀ c ∈ coins, 0 < c.amount) ∧ (coins.map (·.denom)).Nodup := by
    by_contra hno
    simp [coinnet, if_neg hno] at h
  exact ⟨hvalid.1, hvalid.2⟩

/-- Two grants for one contract. -/
def twoGrants : ContractAuthorization where
  kind := .execution
  grants := [⟨"a", .maxCalls 2, .allowAllMessages⟩, ⟨"a", .combined 3 [⟨"atom", 10⟩], .allowAllMessages⟩]

def callWith (funds : Coins) : Msg := .executeContract ⟨"b", "a", stringToBytes "\x7b\x7d", funds⟩

def paidCall (funds : Coins) : AuthzableWasmMsg := ⟨funds, stringToBytes "\x7b\x7d", "a"⟩

def atoms (amount : Int) : Coins := [⟨"atom", amount⟩]

def fourCalls : List AuthzableWasmMsg := [paidCall [], paidCall (atoms 4), paidCall [], paidCall (atoms 6)]

theorem authzRun_fourCalls : AuthzRun coinnet (fun _ ↦ .ok none) twoGrants fourCalls none := by
  -- the third message finds too little left in the second grant
  let msgs := [callWith [], callWith (atoms 4), callWith (atoms 7), callWith [], callWith (atoms 6)]
  have hpassed : passAll coinnet (fun _ ↦ .ok none) openWorld twoGrants msgs = (fourCalls, none) := by decide +kernel
  have hrun : AuthzRun coinnet (fun _ ↦ .ok none) twoGrants [] (some twoGrants) := .start
  have hrun := hrun.passAll openWorld msgs
  rwa [hpassed] at hrun

theorem authz_within_budgets_fourCalls : ∃ ledger, ledger.map (·.1) = fourCalls ∧
    WithinBudgets coinnet (fun _ ↦ .ok none) twoGrants.grants ledger none :=
  authz_within_budgets coinnet _ checksCoins_coinnet twoGrants (by decide +kernel) fourCalls none authzRun_fourCalls

end FourCalls

end Cosmwasgo.Properties
