import Cosmwasgo.Keeper.Coins
import Cosmwasgo.Keeper.Handlers
import Cosmwasgo.State.Devnet

namespace Cosmwasgo.Properties

open Cosmwasgo.Lib Cosmwasgo.Types Cosmwasgo.State Cosmwasgo.Keeper

variable {X : Type} {k : Keeper X}

/-- A coin that can be had: the text is an integer, the integer is not negative, and the denomination is valid. -/
structure Convertible (k : Keeper X) (coin : WasmCoin) : Prop where
  amount : ∃ n, k.lib.setString coin.amount = some n ∧ 0 ≤ n
  denom : k.lib.validateDenom coin.denom = .ok ()

/-- The integer a contract wrote; no text but that of an integer counts. -/
def amountIn (k : Keeper X) (coin : WasmCoin) : Int := (k.lib.setString coin.amount).getD 0

def totalIn (k : Keeper X) (coins : List WasmCoin) (denom : String) : Int :=
  ((coins.filter (·.denom = denom)).map (amountIn k)).sum

/-- The same sum, were no amount negative. -/
def grossIn (k : Keeper X) (coins : List WasmCoin) (denom : String) : Int :=
  ((coins.filter (·.denom = denom)).map fun coin ↦ |amountIn k coin|).sum

/-- The coins keep the value. -/
structure Converted (k : Keeper X) (coins : List WasmCoin) (r : Coins) : Prop where
  canonical : r.Canonical
  amounts : ∀ denom, r.amountOf denom = totalIn k coins denom

section Loop

variable {coin : WasmCoin} {coins : List WasmCoin} {toSend : Coins}

theorem validateCoin_eq_ok {c : Coin} :
    validateCoin k c = .ok () ↔ k.lib.validateDenom c.denom = .ok () ∧ 0 ≤ c.amount := by
  refine except_bind_eq_ok.trans ?_
  have hcheck : ∀ e : Err, check (0 ≤ c.amount) e = .ok () ↔ 0 ≤ c.amount := fun e ↦ by
    unfold check
    split <;> simp_all
  simp only [hcheck]
  exact ⟨fun ⟨_, h⟩ ↦ h, fun h ↦ ⟨(), h⟩⟩

theorem convertWasmCoinToSdkCoin_eq_ok {c : Coin} : convertWasmCoinToSdkCoin k coin = .ok c ↔
    (Convertible k coin ∧ FitsInt (amountIn k coin)) ∧ ⟨coin.denom, amountIn k coin⟩ = c := by
  unfold convertWasmCoinToSdkCoin newIntFromString amountIn
  rcases hamount : k.lib.setString coin.amount with _ | n
  · refine ⟨nofun, fun h ↦ ?_⟩
    obtain ⟨n, hn, -⟩ := h.1.1.amount
    rw [hamount] at hn
    cases hn
  · rw [Option.getD_some]
    by_cases hn : FitsInt n
    · rw [Option.filter_some_pos (by simpa using hn)]
      refine except_bind_eq_ok.trans ⟨?_, ?_⟩
      · rintro ⟨_, hvalid, hc⟩
        obtain ⟨hdenom, hnonneg⟩ := validateCoin_eq_ok.1 hvalid
        exact ⟨⟨⟨⟨n, hamount, hnonneg⟩, hdenom⟩, hn⟩, Except.ok.inj hc⟩
      · rintro ⟨⟨⟨⟨m, hm, hnonneg⟩, hdenom⟩, -⟩, rfl⟩
        cases hamount.symm.trans hm
        exact ⟨(), validateCoin_eq_ok.2 ⟨hdenom, hnonneg⟩, rfl⟩
    · rw [Option.filter_some_neg (by simpa using hn)]
      exact ⟨nofun, fun h ↦ absurd h.1.2 hn⟩

theorem totalIn_cons (coin : WasmCoin) (coins : List WasmCoin) (denom : String) :
    totalIn k (coin :: coins) denom = (if coin.denom = denom then amountIn k coin else 0) + totalIn k coins denom := by
  by_cases h : coin.denom = denom <;> simp [totalIn, h]

theorem grossIn_cons (coin : WasmCoin) (coins : List WasmCoin) (denom : String) :
    grossIn k (coin :: coins) denom = (if coin.denom = denom then |amountIn k coin| else 0) + grossIn k coins denom := by
  by_cases h : coin.denom = denom <;> simp [grossIn, h]

theorem grossIn_nonneg (coins : List WasmCoin) (denom : String) : 0 ≤ grossIn k coins denom := by
  refine List.sum_nonneg fun n hn ↦ ?_
  obtain ⟨coin, -, rfl⟩ := List.mem_map.1 hn
  exact abs_nonneg _

theorem Convertible.amountIn_nonneg (h : Convertible k coin) : 0 ≤ amountIn k coin := by
  obtain ⟨n, hn, hnonneg⟩ := h.amount
  rw [amountIn, hn]
  exact hnonneg

theorem grossIn_eq_totalIn (h : ∀ coin ∈ coins, Convertible k coin) (denom : String) :
    grossIn k coins denom = totalIn k coins denom := by
  refine congrArg List.sum (List.map_congr_left fun coin hcoin ↦ ?_)
  exact abs_of_nonneg (h coin (List.mem_of_mem_filter hcoin)).amountIn_nonneg

/-- The loop only goes on with coins that can be had. -/
theorem convertible_of_addWasmCoins {w w' : World X} {r : Coins} (h : addWasmCoins k toSend coins w = (.ok r, w')) :
    ∀ coin ∈ coins, Convertible k coin := by
  induction coins generalizing toSend w with
  | nil => exact nofun
  | cons coin coins ih =>
    obtain ⟨c, w₁, hc, h⟩ := Program.bind_eq_ok.1 h
    obtain ⟨next, w₂, -, h⟩ := Program.bind_eq_ok.1 h
    have hcoin := (convertWasmCoinToSdkCoin_eq_ok.1 (Program.lift_eq_ok.1 hc).1).1.1
    exact List.forall_mem_cons.2 ⟨hcoin, ih h⟩

/-- The loop on coins that do not overflow, whatever their signs. -/
theorem addWasmCoins_run (hsend : toSend.Canonical) (hfits : ∀ denom, FitsInt (toSend.total denom + grossIn k coins denom))
    (w : World X) : (∃ e, addWasmCoins k toSend coins w = (.error e, w) ∧ ∃ coin ∈ coins, ¬ Convertible k coin) ∨
      ∃ r : Coins, addWasmCoins k toSend coins w = (.ok r, w) ∧ r.Canonical ∧
        ∀ denom, r.total denom = toSend.total denom + totalIn k coins denom := by
  induction coins generalizing toSend with
  | nil => exact .inr ⟨toSend, rfl, hsend, fun denom ↦ (add_zero _).symm⟩
  | cons coin coins ih =>
    have hheld := Coins.total_nonneg (fun c hc ↦ (hsend.positive c hc).le) coin.denom
    have hrest := grossIn_nonneg (k := k) coins coin.denom
    have hcoinFits : FitsInt |amountIn k coin| := by
      refine Coins.fitsInt_of_le (abs_nonneg _) ?_ (hfits coin.denom)
      rw [grossIn_cons, if_pos rfl]
      omega
    rcases hc : convertWasmCoinToSdkCoin k coin with e | c
    · refine .inl ⟨e, Program.bind_of_error _ (by rw [hc]; rfl), coin, List.mem_cons_self, fun hcoin ↦ ?_⟩
      rw [abs_of_nonneg hcoin.amountIn_nonneg] at hcoinFits
      cases hc.symm.trans (convertWasmCoinToSdkCoin_eq_ok.2 ⟨⟨hcoin, hcoinFits⟩, rfl⟩)
    · obtain ⟨⟨hcoin, -⟩, rfl⟩ := convertWasmCoinToSdkCoin_eq_ok.1 hc
      have hnonneg := hcoin.amountIn_nonneg
      have hall : ∀ c ∈ toSend ++ [⟨coin.denom, amountIn k coin⟩], 0 ≤ c.amount := by
        intro c hc
        rcases List.mem_append.1 hc with hc | hc
        · exact (hsend.positive c hc).le
        · rw [List.mem_singleton.1 hc]
          exact hnonneg
      have htotal : ∀ denom, Coins.total (toSend ++ [⟨coin.denom, amountIn k coin⟩]) denom =
          toSend.total denom + if coin.denom = denom then amountIn k coin else 0 := fun denom ↦ by
        rw [Coins.total_append, Coins.total_singleton]
      have hbound : ∀ denom, Coins.total (toSend ++ [⟨coin.denom, amountIn k coin⟩]) denom + grossIn k coins denom =
          toSend.total denom + grossIn k (coin :: coins) denom := fun denom ↦ by
        rw [htotal, grossIn_cons, abs_of_nonneg hnonneg, add_assoc]
      have hadd := (Coins.add_eq_ok hsend.isSorted rfl hall).2 ⟨fun denom ↦ ?_, rfl⟩
      · have hnext := Coins.canonical_merged hall
        have hstep : addWasmCoins k toSend (coin :: coins) w =
            addWasmCoins k (Coins.merged (toSend ++ [⟨coin.denom, amountIn k coin⟩])) coins w := by
          rw [addWasmCoins, hc, Program.lift_ok, Program.pure_bind, hadd]
          rfl
        rw [hstep]
        refine (ih hnext fun denom ↦ ?_).imp ?_ ?_
        · rw [Coins.total_merged, hbound]
          exact hfits denom
        · rintro ⟨e, he, coin', hcoin', hnot⟩
          exact ⟨e, he, coin', List.mem_cons_of_mem _ hcoin', hnot⟩
        · rintro ⟨r, hr, hcanonical, htotals⟩
          refine ⟨r, hr, hcanonical, fun denom ↦ ?_⟩
          rw [htotals, Coins.total_merged, htotal, totalIn_cons, add_assoc]
      · refine Coins.fitsInt_of_le (Coins.total_nonneg hall denom) ?_ (hfits denom)
        rw [← hbound]
        exact Int.le_add_of_nonneg_right (grossIn_nonneg coins denom)

end Loop

/-- The final sort changes nothing. -/
theorem sort_of_canonical {r : Coins} (h : r.Canonical) : r.sort = r :=
  List.mergeSort_of_pairwise (h.ascending.imp fun hlt ↦ decide_eq_true hlt.le)

section Conversion

variable {coins : List WasmCoin}

theorem convertWasmCoinsToSdkCoins_run (hfits : ∀ denom, FitsInt (grossIn k coins denom)) (w : World X) :
    (∃ e, convertWasmCoinsToSdkCoins k coins w = (.error e, w) ∧ ∃ coin ∈ coins, ¬ Convertible k coin) ∨
      ∃ r, convertWasmCoinsToSdkCoins k coins w = (.ok r, w) ∧ Converted k coins r := by
  have hnil : Coins.Canonical [] := ⟨nofun, .nil⟩
  have hstart : ∀ denom, FitsInt (Coins.total [] denom + grossIn k coins denom) := fun denom ↦ by
    rw [Coins.total_nil, zero_add]
    exact hfits denom
  refine (addWasmCoins_run hnil hstart w).imp ?_ ?_
  · rintro ⟨e, he, hcoin⟩
    exact ⟨e, Program.bind_of_error _ he, hcoin⟩
  · rintro ⟨r, hr, hcanonical, htotal⟩
    refine ⟨r, ?_, hcanonical, fun denom ↦ ?_⟩
    · refine (Program.bind_of_ok _ hr).trans ?_
      rw [sort_of_canonical hcanonical]
      rfl
    · rw [← Coins.total_eq_amountOf hcanonical.nodup, htotal, Coins.total_nil, zero_add]

theorem convertible_of_run {w w' : World X} {r : Coins} (h : convertWasmCoinsToSdkCoins k coins w = (.ok r, w')) :
    ∀ coin ∈ coins, Convertible k coin := by
  obtain ⟨toSend, w₁, hloop, -⟩ := Program.bind_eq_ok.1 h
  exact convertible_of_addWasmCoins hloop

theorem run_of_convertible (hfits : ∀ denom, FitsInt (totalIn k coins denom)) (hall : ∀ coin ∈ coins, Convertible k coin)
    (w : World X) : ∃ r, convertWasmCoinsToSdkCoins k coins w = (.ok r, w) ∧ Converted k coins r := by
  refine (convertWasmCoinsToSdkCoins_run (fun denom ↦ ?_) w).resolve_left ?_
  · rw [grossIn_eq_totalIn hall]
    exact hfits denom
  · rintro ⟨e, -, coin, hcoin, hnot⟩
    exact hnot (hall coin hcoin)

theorem converted_of_run (hfits : ∀ denom, FitsInt (totalIn k coins denom)) {w w' : World X} {r : Coins}
    (h : convertWasmCoinsToSdkCoins k coins w = (.ok r, w')) : Converted k coins r := by
  obtain ⟨r', hr', hconverted⟩ := run_of_convertible hfits (convertible_of_run h) w
  cases hr'.symm.trans h
  exact hconverted

/-- What is converted keeps its value, and all that can be had is converted. A failure is an error, unless an amount that is
negative hides from the sum that the coins before it overflow. -/
theorem coins_converted (hfits : ∀ denom, FitsInt (totalIn k coins denom)) (w : World X) :
    ((∃ r w', convertWasmCoinsToSdkCoins k coins w = (.ok r, w')) ↔ ∀ coin ∈ coins, Convertible k coin) ∧
    (∀ r w', convertWasmCoinsToSdkCoins k coins w = (.ok r, w') → Converted k coins r) ∧
    ((∀ denom, FitsInt (grossIn k coins denom)) → ∀ p w', convertWasmCoinsToSdkCoins k coins w ≠ (.panic p, w')) := by
  refine ⟨⟨fun ⟨r, w', h⟩ ↦ convertible_of_run h, fun hall ↦ ?_⟩, fun r w' h ↦ converted_of_run hfits h,
    fun hgross p w' hpanic ↦ ?_⟩
  · obtain ⟨r, hr, -⟩ := run_of_convertible hfits hall w
    exact ⟨r, w, hr⟩
  · rcases convertWasmCoinsToSdkCoins_run hgross w with ⟨e, h, -⟩ | ⟨r, h, -⟩
    · cases h.symm.trans hpanic
    · cases h.symm.trans hpanic

/-- Coins in any order, with a denomination twice and one that is not there at all. -/
def mixedCoins : List WasmCoin := [⟨"uatom", "2"⟩, ⟨"stake", "3"⟩, ⟨"uatom", "5"⟩, ⟨"token", "0"⟩]

theorem coins_converted_mixedCoins : ∃ r w', convertWasmCoinsToSdkCoins (devnet idleContract) mixedCoins emptyWorld =
    (.ok r, w') ∧ Converted (devnet idleContract) mixedCoins r := by
  have h₁ : (devnet idleContract).lib.setString "2" = some 2 := by decide +kernel
  have h₂ : (devnet idleContract).lib.setString "3" = some 3 := by decide +kernel
  have h₃ : (devnet idleContract).lib.setString "5" = some 5 := by decide +kernel
  have h₄ : (devnet idleContract).lib.setString "0" = some 0 := by decide +kernel
  have hfits : ∀ denom, FitsInt (totalIn (devnet idleContract) mixedCoins denom) := by
    intro denom
    have hsum : 0 ≤ totalIn (devnet idleContract) mixedCoins denom ∧ totalIn (devnet idleContract) mixedCoins denom ≤ 10 := by
      simp only [mixedCoins, totalIn_cons, amountIn, h₁, h₂, h₃, h₄, Option.getD_some]
      change 0 ≤ _ + (_ + (_ + (_ + 0))) ∧ _ + (_ + (_ + (_ + 0))) ≤ (10 : Int)
      split_ifs <;> decide
    unfold FitsInt
    omega
  have hconvert := coins_converted hfits emptyWorld
  have hall : ∀ coin ∈ mixedCoins, Convertible (devnet idleContract) coin := by
    intro coin hcoin
    simp only [mixedCoins, List.mem_cons, List.not_mem_nil, or_false] at hcoin
    rcases hcoin with rfl | rfl | rfl | rfl
    · exact ⟨⟨2, h₁, by decide⟩, by decide +kernel⟩
    · exact ⟨⟨3, h₂, by decide⟩, by decide +kernel⟩
    · exact ⟨⟨5, h₃, by decide⟩, by decide +kernel⟩
    · exact ⟨⟨0, h₄, by decide⟩, by decide +kernel⟩
  obtain ⟨r, w', hrun⟩ := hconvert.1.2 hall
  exact ⟨r, w', hrun, hconvert.2.1 r w' hrun⟩

end Conversion

/-- The library call the handlers make is this conversion. -/
def ConvertsCoins (k : Keeper X) : Prop := ∀ coins r, k.lib.convertWasmCoins coins = .ok r →
  ∀ w, ∃ w', convertWasmCoinsToSdkCoins k coins w = (.ok r, w')

/-- A burn takes from the contract what it wrote, sum by sum, and burns the same. -/
theorem burned_exactly (hk : ConvertsCoins k) {c : Ctx} {addr : AccAddress} {port : String} {msg : CosmosMsg}
    {amount : List WasmCoin} (hmsg : msg.bank.bind (·.burn) = some amount)
    (hfits : ∀ denom, FitsInt (totalIn k amount denom)) {w w' : World X} {r : DispatchResult}
    (hrun : burnCoinMessageHandler k c addr port msg w = (.ok r, w')) :
    ∃ coins, Converted k amount coins ∧ coins ≠ [] ∧
      ∃ w₁, external (k.host.sendCoinsFromAccountToModule addr coins) w = (.ok (), w₁) ∧
        external (k.host.burnCoins coins) w₁ = (.ok (), w') := by
  unfold burnCoinMessageHandler at hrun
  rw [hmsg] at hrun
  obtain ⟨coins, w₀, hlift, hrun⟩ := Program.bind_eq_ok.1 hrun
  obtain ⟨hcoins, rfl⟩ := Program.lift_eq_ok.1 hlift
  obtain ⟨_, w₀, hrequire, hrun⟩ := Program.bind_eq_ok.1 hrun
  obtain ⟨hzero, rfl⟩ := Program.require_eq_ok.1 hrequire
  obtain ⟨_, w₁, hsend, hrun⟩ := Program.bind_eq_ok.1 hrun
  obtain ⟨_, w₂, hburn, hrun⟩ := Program.bind_eq_ok.1 hrun
  cases hrun
  obtain ⟨w₃, hconvert⟩ := hk amount coins hcoins w
  refine ⟨coins, converted_of_run hfits hconvert, ?_, w₁, wrapErr_eq_ok.1 hsend, wrapErr_eq_ok.1 hburn⟩
  rintro rfl
  cases hzero

end Cosmwasgo.Properties
