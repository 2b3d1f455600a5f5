import Cosmwasgo.Keeper.Querier
import Cosmwasgo.Properties.Addresses
import Cosmwasgo.Runs.Ensures

namespace Cosmwasgo.Properties

open Cosmwasgo.Lib Cosmwasgo.Types Cosmwasgo.State Cosmwasgo.Keeper Cosmwasgo.Runs Relation

variable {X α : Type} {k : Keeper X} {h : ResponseHandler X} {c : Ctx} {w w' : World X}

section Created

variable {permits : Ctx → Operation → AccAddress → AuthorizationPolicy → Prop} {d d' : Durable X} {a : AccAddress}

theorem isSome_info_quiet {o : Option AccAddress} (h : Quiet o d d') (ha : (d.kv.get (getContractAddressKey a)).isSome) :
    (d'.kv.get (getContractAddressKey a)).isSome := by
  have hkept : d'.kv.get (getContractAddressKey a) = d.kv.get (getContractAddressKey a) :=
    h.records _ (not_isStateKey (by simp))
  rwa [hkept]

theorem isSome_info_step (h : Step k permits c d d') (ha : (d.kv.get (getContractAddressKey a)).isSome) :
    (d'.kv.get (getContractAddressKey a)).isSome := by
  cases h with
  | act _ h => exact isSome_info_act h ha
  | quiet _ h => exact isSome_info_quiet h ha

theorem isSome_info_steps (h : Steps k permits c d d') (ha : (d.kv.get (getContractAddressKey a)).isSome) :
    (d'.kv.get (getContractAddressKey a)).isSome := by
  induction h with
  | refl => exact ha
  | tail _ hstep ih => exact isSome_info_step hstep ih

theorem steps_handleContractResponse (n : Nat) (addr : AccAddress) (port : String) (response : Response) :
    Ensures (handleContractResponse k (responseHandler k n) c addr port response) fun d _ d' ↦ Steps k Anybody c d d' := by
  intro w data w' hr
  have hh := Regime.handlerObeys_responseHandler (R := freeRegime k) (stepsRegime_observes _) n
  have hport : (freeRegime k).ports addr port := trivial
  have hobeys := Regime.clean_handleContractResponse (c := c) hh hport response w
  rw [hr] at hobeys
  exact (Regime.rel_of_clean hobeys).steps rfl

/-- A contract that was not there is there now. -/
def NewlyAt (a : AccAddress) (d d' : Durable X) : Prop :=
  d.kv.get (getContractAddressKey a) = none ∧ (d'.kv.get (getContractAddressKey a)).isSome

theorem ensures_predictableAddressGenerator (creator : AccAddress) (salt msg : Bytes) (fixMsg : Bool) (codeID : UInt64)
    (checksum : Bytes) : Ensures (predictableAddressGenerator k creator salt msg fixMsg codeID checksum) fun d a d' ↦
      buildContractAddressPredictable k checksum creator salt (if fixMsg then msg else []) = .ok a ∧ d' = d := by
  intro w a w' hr
  obtain ⟨ha, rfl⟩ := liftPanic_eq_ok.1 hr
  exact ⟨ha, rfl⟩

/-- An instantiation with a salt puts the contract at the address made from the code, the creator and the salt. -/
theorem ensures_instantiate2 (n : Nat) (codeID : UInt64) (creator admin : AccAddress) (initMsg : Bytes) (label : String)
    (funds : Coins) (salt : Bytes) (fixMsg : Bool) (policy : AuthorizationPolicy) :
    Ensures (instantiate k (responseHandler k n) c codeID creator admin initMsg label funds
      (predictableAddressGenerator k creator salt initMsg fixMsg) policy) fun d r d' ↦
        ∃ code, d.kv.get (getCodeKey codeID) = some (.codeInfo code) ∧
          buildContractAddressPredictable k code.codeHash creator salt (if fixMsg then initMsg else []) = .ok r.1 ∧
            NewlyAt r.1 d d' := by
  intro w r w' hr
  obtain ⟨_, w₁, hrequire, hr⟩ := Program.bind_eq_ok.1 hr
  obtain ⟨-, rfl⟩ := Program.require_eq_ok.1 hrequire
  obtain ⟨code, w₁, hcode, hr⟩ := Program.bind_eq_ok.1 hr
  obtain ⟨hsame, hinfo⟩ := (Writes.getCodeInfo k codeID).ensures hcode
  cases code with
  | none => cases hr
  | some code =>
    obtain ⟨_, w₂, hcharge, hr⟩ := Program.bind_eq_ok.1 hr
    obtain ⟨_, w₃, hauthorize, hr⟩ := Program.bind_eq_ok.1 hr
    obtain ⟨⟨addr, taken⟩, w₄, hnew, hr⟩ := Program.bind_eq_ok.1 hr
    obtain ⟨_, w₅, hrequire, hr⟩ := Program.bind_eq_ok.1 hr
    obtain ⟨htaken, rfl⟩ := Program.require_eq_ok.1 hrequire
    obtain ⟨⟨haddr, hgen⟩, hsome⟩ :=
      Ensures.newAddress (ensures_predictableAddressGenerator creator salt initMsg fixMsg codeID code.codeHash) hnew
    have hquiet : Quiet none (durable w) (durable w₄) := by
      have hq := (Local.chargeSetup (o := none) _ _ _ _).ensures hcharge
      rw [hgen, Ensures.authorize c _ _ _ hauthorize, ← hsame]
      exact hq
    have hfree : (durable w).kv.get (getContractAddressKey addr) = none := by
      change taken = _ at hsome
      rw [hsome] at htaken
      have hnone : (durable w₄).kv.get (getContractAddressKey addr) = none := by simpa using htaken
      exact (hquiet.records _ (not_isStateKey (by simp))).symm.trans hnone
    obtain ⟨_, w₅, -, hr⟩ := Program.bind_eq_ok.1 hr
    obtain ⟨_, w₆, -, hr⟩ := Program.bind_eq_ok.1 hr
    obtain ⟨env, w₇, -, hr⟩ := Program.bind_eq_ok.1 hr
    obtain ⟨res, w₈, -, hr⟩ := Program.bind_eq_ok.1 hr
    obtain ⟨ok, w₉, -, hr⟩ := Program.bind_eq_ok.1 hr
    obtain ⟨createdAt, w₁₀, -, hr⟩ := Program.bind_eq_ok.1 hr
    obtain ⟨report, w₁₁, -, hr⟩ := Program.bind_eq_ok.1 hr
    obtain ⟨ibcPortID, w₁₂, -, hr⟩ := Program.bind_eq_ok.1 hr
    obtain ⟨_, w₁₃, hpersist, hr⟩ := Program.bind_eq_ok.1 hr
    obtain ⟨pos, head, -, -, -, hstored⟩ := (Writes.persistInstance k c creator addr initMsg _ policy).ensures hpersist
    have hthere : ((durable w₁₃).kv.get (getContractAddressKey addr)).isSome := by
      rw [hstored, Durable.kv_withKV, registered, OrderedStore.get_set_self]
      rfl
    obtain ⟨_, w₁₄, hemit, hr⟩ := Program.bind_eq_ok.1 hr
    obtain ⟨response, w₁₅, hderef, hr⟩ := Program.bind_eq_ok.1 hr
    obtain ⟨data, w₁₆, hhandle, hr⟩ := Program.bind_eq_ok.1 hr
    cases hr
    have hanswered : ((durable w₁₅).kv.get (getContractAddressKey addr)).isSome :=
      isSome_info_quiet ((Local.deref (o := none) ok).ensures hderef)
        (isSome_info_quiet ((Local.emitContractEvent (o := none) _ _ _).ensures hemit) hthere)
    -- what the contract's answer sets off deletes no contract
    have hsteps := (steps_handleContractResponse n _ _ response).wrapErr _ hhandle
    exact ⟨code, hinfo, haddr, hfree, isSome_info_steps hsteps hanswered⟩

theorem validated_instantiateContract2 {msg : MsgInstantiateContract2}
    (h : Msg.validateBasic k (.instantiateContract2 msg) = .ok ()) : k.lib.jsonValid msg.msg = true ∧ msg.salt ≠ [] := by
  obtain ⟨_, -, h⟩ := except_bind_eq_ok.1 h
  obtain ⟨_, -, h⟩ := except_bind_eq_ok.1 h
  obtain ⟨_, -, h⟩ := except_bind_eq_ok.1 h
  obtain ⟨_, -, h⟩ := except_bind_eq_ok.1 h
  obtain ⟨_, -, h⟩ := except_bind_eq_ok.1 h
  obtain ⟨_, hpayload, h⟩ := except_bind_eq_ok.1 h
  have hmsg : validateRawContractMessage k msg.msg = .ok () := wrap_eq_ok.1 hpayload
  obtain ⟨hsalt, -⟩ := check_bind_eq_ok.1 (wrap_eq_ok.1 h)
  exact ⟨by simpa [validateRawContractMessage, check] using hmsg, of_decide_eq_true hsalt⟩

/-- What a `MsgInstantiateContract2` that succeeds has done. -/
structure Instantiated2 (k : Keeper X) (msg : MsgInstantiateContract2) (d : Durable X) (res : MsgServiceResponse)
    (d' : Durable X) (creator : AccAddress) (code : CodeInfo) (contract : AccAddress) : Prop where
  valid : Msg.validateBasic k (.instantiateContract2 msg) = .ok ()
  sender : k.bech32.fromBech32 msg.sender = .ok creator
  stored : d.kv.get (getCodeKey msg.codeID) = some (.codeInfo code)
  address : buildContractAddressPredictable k code.codeHash creator msg.salt (if msg.fixMsg then msg.msg else []) = .ok contract
  response : ∃ data, res = .instantiate (k.bech32.string contract) data
  created : NewlyAt contract d d'

theorem ensures_instantiateContract2 (n : Nat) (msg : MsgInstantiateContract2) :
    Ensures (MsgServer.instantiateContract2 k (responseHandler k n) c msg) fun d res d' ↦
      ∃ creator code contract, Instantiated2 k msg d res d' creator code contract := by
  intro w res w' hrun
  obtain ⟨_, _, hlift, hrun⟩ := Program.bind_eq_ok.1 hrun
  obtain ⟨hbasic, rfl⟩ := Program.lift_eq_ok.1 hlift
  obtain ⟨sender, _, hlift, hrun⟩ := Program.bind_eq_ok.1 hrun
  obtain ⟨hsender, rfl⟩ := Program.lift_eq_ok.1 hlift
  obtain ⟨admin, w₁, hadmin, hrun⟩ := Program.bind_eq_ok.1 hrun
  have hsame : w₁ = w := by
    unfold MsgServer.decodeAdmin at hadmin
    split at hadmin
    · cases hadmin
      rfl
    · exact (Program.lift_eq_ok.1 hadmin).2.symm
  obtain ⟨⟨addr, data⟩, w₂, hinst, hrun⟩ := Program.bind_eq_ok.1 hrun
  cases hrun
  rw [hsame] at hinst
  obtain ⟨code, hinfo, haddr, hcreated⟩ := ensures_instantiate2 n _ _ _ _ _ _ _ _ _ hinst
  exact ⟨sender, code, addr, hbasic, wrap_eq_ok.1 hsender, hinfo, haddr, ⟨data, rfl⟩, hcreated⟩

end Created

section Query

/-- What the query reads off a request. -/
structure Reads (k : Keeper X) (req : QueryBuildAddressRequest) (codeHash : Bytes) (creator : AccAddress) (salt : Bytes) :
    Prop where
  nonempty : salt ≠ []
  codeHash : hexDecodeString k req.codeHash = .ok codeHash
  creator : k.bech32.fromBech32 req.creatorAddress = .ok creator
  salt : hexDecodeString k req.salt = .ok salt
  initArgs : ∀ args, req.initArgs = some args → k.lib.jsonValid args = true

/-- The deferred charge can be paid. -/
def Paid (w : World X) : Prop := (consumeGas defaultGasCostBuildAddress "build address" w).1 = .ok ()

variable {req : QueryBuildAddressRequest} {codeHash salt : Bytes} {creator : AccAddress}

/-- The address is built just when the code hash and the salt have a length for it. -/
theorem predictable_iff (hcreator : k.bech32.valid creator = true) (hsalt : salt ≠ []) {initMsg : Bytes}
    (hmsg : initMsg ≠ [] → k.lib.jsonValid initMsg = true) :
    (∃ a, buildContractAddressPredictable k codeHash creator salt initMsg = .ok a) ↔
      codeHash.length = 32 ∧ salt.length ≤ maxSaltSize := by
  constructor
  · rintro ⟨a, ha⟩
    obtain ⟨hcode, -, hlen, -⟩ := predictable_ok ha
    exact ⟨hcode, hlen⟩
  · rintro ⟨hcode, hlen⟩
    refine ⟨keyAddress k (predictableKey codeHash creator salt initMsg), ?_⟩
    have hvalidSalt : validateSalt salt = .ok () := by simp [validateSalt, check, hsalt, hlen, bind, Except.bind]
    have hvalidMsg : initMsg ≠ [] → validateRawContractMessage k initMsg = .ok () := fun hne ↦ by
      simp [validateRawContractMessage, check, hmsg hne]
    by_cases hne : initMsg = []
    · simp [buildContractAddressPredictable, hcode, hcreator, hvalidSalt, hne, bind, Except.bind, Except.mapError, pure,
        Except.pure, keyAddress]
    · simp [buildContractAddressPredictable, hcode, hcreator, hvalidSalt, hvalidMsg hne, hne, bind, Except.bind,
        Except.mapError, pure, Except.pure, keyAddress]

/-- The address for what was read off a request. -/
def predicted (k : Keeper X) (codeHash : Bytes) (creator : AccAddress) (salt : Bytes) (initArgs : Option Bytes) : M X String := do
  let addr ← liftPanic (buildContractAddressPredictable k codeHash creator salt (initArgs.getD []))
  return k.bech32.string addr

/-- The query once the parts of the request have been read. -/
theorem buildAddress_of_parts (hcode : hexDecodeString k req.codeHash = .ok codeHash)
    (hcreator : k.bech32.fromBech32 req.creatorAddress = .ok creator) (hsalt : hexDecodeString k req.salt = .ok salt)
    (hne : salt ≠ []) (w : World X) :
    buildAddress k (some req) w = Program.deferring (consumeGas defaultGasCostBuildAddress "build address")
      (match req.initArgs with
      | none => predicted k codeHash creator salt none
      | some args => Program.lift (validateRawContractMessage k args) >>= fun _ ↦ predicted k codeHash creator salt (some args)) w := by
  cases hargs : req.initArgs <;>
    simp [buildAddress, hcode, hcreator, hsalt, hne, hargs, wrap, Except.mapError, predicted]

theorem buildAddress_of_reads (hr : Reads k req codeHash creator salt) (w : World X) :
    buildAddress k (some req) w =
      Program.deferring (consumeGas defaultGasCostBuildAddress "build address") (predicted k codeHash creator salt req.initArgs) w := by
  rw [buildAddress_of_parts hr.codeHash hr.creator hr.salt hr.nonempty]
  cases hargs : req.initArgs with
  | none => rfl
  | some args =>
    have hvalid : validateRawContractMessage k args = .ok () := by
      simp [validateRawContractMessage, check, hr.initArgs args hargs]
    simp [hvalid]

/-- The query returns an error, or it has read the request. -/
theorem buildAddress_cases (req : QueryBuildAddressRequest) (hpaid : Paid w) :
    (buildAddress k (some req) w).1.exit = .error ∨ ∃ codeHash creator salt, Reads k req codeHash creator salt := by
  rcases hcode : hexDecodeString k req.codeHash with e | codeHash
  · simp [buildAddress, hcode, wrap, Except.mapError]
  rcases hcreator : k.bech32.fromBech32 req.creatorAddress with e | creator
  · simp [buildAddress, hcode, hcreator, wrap, Except.mapError]
  rcases hsalt : hexDecodeString k req.salt with e | salt
  · simp [buildAddress, hcode, hcreator, hsalt, wrap, Except.mapError]
  by_cases hne : salt = []
  · simp [buildAddress, hcode, hcreator, hsalt, hne, wrap, Except.mapError]
  by_cases hargs : ∀ args, req.initArgs = some args → k.lib.jsonValid args = true
  · exact .inr ⟨codeHash, creator, salt, hne, hcode, hcreator, hsalt, hargs⟩
  · push Not at hargs
    obtain ⟨args, hargs, hinvalid⟩ := hargs
    have hrefused : validateRawContractMessage k args = .error errInvalid := by
      simp [validateRawContractMessage, check, hinvalid]
    have herror : (buildAddress k (some req) w).1 = .error errInvalid := by
      rw [buildAddress_of_parts hcode hcreator hsalt hne w, hargs]
      exact Program.fst_deferring (by simp [hrefused]) (Program.apply_eq hpaid)
    exact .inl (by rw [herror]; rfl)

theorem predicted_apply (w : World X) : predicted k codeHash creator salt req.initArgs w =
    (match buildContractAddressPredictable k codeHash creator salt (req.initArgs.getD []) with
    | .ok a => .ok (k.bech32.string a)
    | .error p => .panic p, w) := by
  unfold predicted
  cases buildContractAddressPredictable k codeHash creator salt (req.initArgs.getD []) <;> rfl

/-- A request the query can read is answered just when the lengths are right, and otherwise ends in a panic. -/
theorem returns_iff (hr : Reads k req codeHash creator salt) (hpaid : Paid w) :
    ((buildAddress k (some req) w).1.exit = .ok ∨ (buildAddress k (some req) w).1.exit = .error) ↔
      codeHash.length = 32 ∧ salt.length ≤ maxSaltSize := by
  have hvalid : req.initArgs.getD [] ≠ [] → k.lib.jsonValid (req.initArgs.getD []) = true := by
    intro hne
    cases hargs : req.initArgs with
    | none => simp [hargs] at hne
    | some args => exact hr.initArgs args hargs
  rw [← predictable_iff (k.bech32.fromBech32_valid hr.creator) hr.nonempty hvalid, buildAddress_of_reads hr,
    Program.fst_deferring (predicted_apply w) (Program.apply_eq hpaid)]
  cases buildContractAddressPredictable k codeHash creator salt (req.initArgs.getD []) <;> simp

theorem buildAddress_eq_ok {a : String} (h : buildAddress k (some req) w = (.ok a, w')) :
    ∃ codeHash creator salt contract, Reads k req codeHash creator salt ∧
      buildContractAddressPredictable k codeHash creator salt (req.initArgs.getD []) = .ok contract ∧
        a = k.bech32.string contract := by
  obtain ⟨codeHash, _, hlift, h⟩ := Program.bind_eq_ok.1 h
  obtain ⟨hcode, rfl⟩ := Program.lift_eq_ok.1 hlift
  obtain ⟨creator, _, hlift, h⟩ := Program.bind_eq_ok.1 h
  obtain ⟨hcreator, rfl⟩ := Program.lift_eq_ok.1 hlift
  obtain ⟨salt, _, hlift, h⟩ := Program.bind_eq_ok.1 h
  obtain ⟨hsalt, rfl⟩ := Program.lift_eq_ok.1 hlift
  obtain ⟨_, _, hrequire, h⟩ := Program.bind_eq_ok.1 h
  obtain ⟨hne, rfl⟩ := Program.require_eq_ok.1 hrequire
  obtain ⟨w₁, h, -⟩ := Program.deferring_eq_ok h
  refine ⟨codeHash, creator, salt, ?_⟩
  -- what both branches end with
  have hlast : ∀ {args : Bytes} {v v' : World X},
      (liftPanic (buildContractAddressPredictable k codeHash creator salt args) >>= fun addr ↦ pure (k.bech32.string addr)) v =
        (.ok a, v') → ∃ contract, buildContractAddressPredictable k codeHash creator salt args = .ok contract ∧
          a = k.bech32.string contract := by
    intro args v v' hrun
    obtain ⟨contract, _, hbuild, hrun⟩ := Program.bind_eq_ok.1 hrun
    cases hrun
    exact ⟨contract, (liftPanic_eq_ok.1 hbuild).1, rfl⟩
  have hreads : (∀ args, req.initArgs = some args → k.lib.jsonValid args = true) → Reads k req codeHash creator salt :=
    fun hargs ↦ ⟨of_decide_eq_true hne, wrap_eq_ok.1 hcode, wrap_eq_ok.1 hcreator, wrap_eq_ok.1 hsalt, hargs⟩
  cases hargs : req.initArgs with
  | none =>
    rw [hargs] at h
    obtain ⟨contract, hbuild, ha⟩ := hlast h
    exact ⟨contract, hreads (by simp [hargs]), hbuild, ha⟩
  | some args =>
    rw [hargs] at h
    obtain ⟨_, _, hlift, h⟩ := Program.bind_eq_ok.1 h
    obtain ⟨hvalid, rfl⟩ := Program.lift_eq_ok.1 hlift
    obtain ⟨contract, hbuild, ha⟩ := hlast h
    refine ⟨contract, hreads fun args' hargs' ↦ ?_, hbuild, ha⟩
    rw [hargs] at hargs'
    cases hargs'
    simpa [validateRawContractMessage, check] using hvalid

end Query

/-- The instantiation a request asks about: by the same creator, with the decoded salt, of a code with that checksum, and
with the message in the address just when init args are given. -/
structure AsksFor (k : Keeper X) (req : QueryBuildAddressRequest) (msg : MsgInstantiateContract2) (d : Durable X) :
    Prop where
  creator : ∃ a, k.bech32.fromBech32 msg.sender = .ok a ∧ k.bech32.fromBech32 req.creatorAddress = .ok a
  salt : hexDecodeString k req.salt = .ok msg.salt
  code : ∃ code, d.kv.get (getCodeKey msg.codeID) = some (.codeInfo code) ∧
    hexDecodeString k req.codeHash = .ok code.codeHash
  fixMsg : msg.fixMsg = req.initArgs.isSome
  initArgs : ∀ args, req.initArgs = some args → msg.msg = args

/-- The query returns wherever its charge can be paid, and an address it returns is the one an instantiation it asks about
creates a contract at. -/
structure PredictsAddress (k : Keeper X) (req : Option QueryBuildAddressRequest) : Prop where
  total : ∀ w, Paid w → (buildAddress k req w).1.exit = .ok ∨ (buildAddress k req w).1.exit = .error
  correct : ∀ {w w' : World X} {a : String}, buildAddress k req w = (.ok a, w') →
    ∀ {r}, req = some r → ∀ {n c msg res} {v v' : World X}, AsksFor k r msg (durable v) →
      MsgServer.instantiateContract2 k (responseHandler k n) c msg v = (.ok res, v') →
        ∃ contract data, a = k.bech32.string contract ∧ res = .instantiate a data ∧
          NewlyAt contract (durable v) (durable v')

/-- The lengths are right if the request can be read at all. -/
def RightLengths (k : Keeper X) : Option QueryBuildAddressRequest → Prop
  | none => True
  | some req => ∀ codeHash creator salt, Reads k req codeHash creator salt →
      codeHash.length = 32 ∧ salt.length ≤ maxSaltSize

theorem AsksFor.fixed {req : QueryBuildAddressRequest} {msg : MsgInstantiateContract2} {d : Durable X}
    (h : AsksFor k req msg d) : (if msg.fixMsg then msg.msg else []) = req.initArgs.getD [] := by
  rw [h.fixMsg]
  cases hargs : req.initArgs with
  | none => rfl
  | some args => exact h.initArgs args hargs

theorem correct_buildAddress {req : QueryBuildAddressRequest} {a : String} (h : buildAddress k (some req) w = (.ok a, w'))
    {n : Nat} {msg : MsgInstantiateContract2} {res : MsgServiceResponse} {v v' : World X} (hmsg : AsksFor k req msg (durable v))
    (hrun : MsgServer.instantiateContract2 k (responseHandler k n) c msg v = (.ok res, v')) :
    ∃ contract data, a = k.bech32.string contract ∧ res = .instantiate a data ∧ NewlyAt contract (durable v) (durable v') := by
  obtain ⟨codeHash, creator, salt, contract, hreads, hbuild, rfl⟩ := buildAddress_eq_ok h
  obtain ⟨sender, code, addr, hdone⟩ := ensures_instantiateContract2 n msg hrun
  obtain ⟨a, hfrom, hcreator⟩ := hmsg.creator
  obtain rfl : sender = a := Except.ok.inj (hdone.sender.symm.trans hfrom)
  obtain rfl : creator = sender := Except.ok.inj (hreads.creator.symm.trans hcreator)
  obtain rfl : salt = msg.salt := Except.ok.inj (hreads.salt.symm.trans hmsg.salt)
  obtain ⟨code', hinfo, hhash⟩ := hmsg.code
  obtain rfl : code = code' := Value.codeInfo.inj (Option.some.inj (hdone.stored.symm.trans hinfo))
  obtain rfl : codeHash = code.codeHash := Except.ok.inj (hreads.codeHash.symm.trans hhash)
  have haddr := hdone.address
  rw [hmsg.fixed, hbuild] at haddr
  obtain rfl : contract = addr := Except.ok.inj haddr
  obtain ⟨data, hres⟩ := hdone.response
  exact ⟨contract, data, rfl, hres, hdone.created⟩

section Completeness

theorem stringToBytes_bytesToString {b : Bytes} (h : ∀ x ∈ b, x.val < 128) : stringToBytes (bytesToString b) = b := by
  have hone : ∀ x : Byte, x.val < 128 →
      (String.utf8EncodeChar (Char.ofNat x.val)).map (fun y ↦ Fin.ofNat 256 y.toNat) = [x] := by decide +kernel
  rw [stringToBytes, bytesToString, String.toList_ofList, List.flatMap_map]
  induction b with
  | nil => rfl
  | cons x b ih =>
    rw [List.flatMap_cons, hone x (h x List.mem_cons_self), ih fun y hy ↦ h y (List.mem_cons_of_mem _ hy)]
    rfl

/-- Every byte string can be written in a request. -/
theorem hexDecodeString_encode (b : Bytes) : hexDecodeString k (bytesToString (Hex.encode b)) = .ok b := by
  rw [hexDecodeString, stringToBytes_bytesToString fun _ ↦ Hex.encode_ascii, Hex.decode_encode]
  rfl

/-- The request for an instantiation of a code. -/
def requestFor (msg : MsgInstantiateContract2) (code : CodeInfo) : QueryBuildAddressRequest where
  codeHash := bytesToString (Hex.encode code.codeHash)
  creatorAddress := msg.sender
  salt := bytesToString (Hex.encode msg.salt)
  initArgs := if msg.fixMsg then some msg.msg else none

theorem asksFor_requestFor {msg : MsgInstantiateContract2} {code : CodeInfo} {d : Durable X} {a : AccAddress}
    (hsender : k.bech32.fromBech32 msg.sender = .ok a) (hcode : d.kv.get (getCodeKey msg.codeID) = some (.codeInfo code)) :
    AsksFor k (requestFor msg code) msg d where
  creator := ⟨a, hsender, hsender⟩
  salt := hexDecodeString_encode _
  code := ⟨code, hcode, hexDecodeString_encode _⟩
  fixMsg := by cases hfix : msg.fixMsg <;> simp [requestFor, hfix]
  initArgs args hargs := by
    cases hfix : msg.fixMsg with
    | true => simpa [requestFor, hfix] using hargs
    | false => simp [requestFor, hfix] at hargs

/-- Every address a contract gets by `MsgInstantiateContract2` could have been asked for, at any time. -/
theorem instantiate2_foreseen {n : Nat} {msg : MsgInstantiateContract2} {res : MsgServiceResponse} {v v' : World X}
    (hrun : MsgServer.instantiateContract2 k (responseHandler k n) c msg v = (.ok res, v')) :
    ∃ req a data, AsksFor k req msg (durable v) ∧ res = .instantiate a data ∧
      ∀ w, Paid w → (buildAddress k (some req) w).1 = .ok a := by
  obtain ⟨sender, code, contract, hdone⟩ := ensures_instantiateContract2 n msg hrun
  have hasks := asksFor_requestFor hdone.sender hdone.stored
  have haddr := hdone.address
  rw [hasks.fixed] at haddr
  obtain ⟨data, hres⟩ := hdone.response
  obtain ⟨hmsg, hsalt⟩ := validated_instantiateContract2 hdone.valid
  have hreads : Reads k (requestFor msg code) code.codeHash sender msg.salt := by
    refine ⟨hsalt, hexDecodeString_encode _, hdone.sender, hasks.salt, fun args hargs ↦ ?_⟩
    rw [← hasks.initArgs args hargs]
    exact hmsg
  refine ⟨requestFor msg code, k.bech32.string contract, data, hasks, hres, fun w hpaid ↦ ?_⟩
  rw [buildAddress_of_reads hreads, Program.fst_deferring (predicted_apply w) (Program.apply_eq hpaid), haddr]

end Completeness

/-- Addresses are predicted just when no code hash or salt of a wrong length is handed on to where the address is built,
which panics. -/
theorem address_predicted_iff [Inhabited X] (req : Option QueryBuildAddressRequest) : PredictsAddress k req ↔ RightLengths k req := by
  cases req with
  | none => exact iff_of_true ⟨fun _ _ ↦ .inr rfl, nofun⟩ trivial
  | some req =>
    constructor
    · intro h codeHash creator salt hreads
      -- with an infinite meter the charge can be paid
      have hpaid : Paid (worldOf (emptyDurable (default : X))) := rfl
      exact (returns_iff hreads hpaid).1 (h.total _ hpaid)
    · intro h
      refine ⟨fun w hpaid ↦ ?_, fun hanswer r hr n c msg res v v' hmsg hrun ↦ ?_⟩
      · rcases buildAddress_cases req hpaid with herror | ⟨codeHash, creator, salt, hreads⟩
        · exact .inr herror
        · exact (returns_iff hreads hpaid).2 (h _ _ _ hreads)
      · cases hr
        exact correct_buildAddress hanswer hmsg hrun

/-- A code hash of one byte. -/
def shortHash : QueryBuildAddressRequest := { codeHash := "00", creatorAddress := alice, salt := "07" }

/-- A salt of 65 bytes. -/
def longSalt : QueryBuildAddressRequest :=
  { codeHash := bytesToString (Hex.encode (List.replicate 32 0)), creatorAddress := alice,
    salt := bytesToString (Hex.encode (List.replicate 65 7)) }

theorem wrong_lengths_panic :
    (buildAddress (devnet idleContract) (some shortHash) emptyWorld).1 = .panic (.other "invalid checksum") ∧
      (buildAddress (devnet idleContract) (some longSalt) emptyWorld).1 =
        .panic (.other "salt: cannot be longer than 64 characters: exceeds limit") ∧
      ¬PredictsAddress (devnet idleContract) (some shortHash) ∧ ¬PredictsAddress (devnet idleContract) (some longSalt) := by
  have hshort : (buildAddress (devnet idleContract) (some shortHash) emptyWorld).1 = .panic (.other "invalid checksum") := by
    decide +kernel
  have hlong : (buildAddress (devnet idleContract) (some longSalt) emptyWorld).1 =
      .panic (.other "salt: cannot be longer than 64 characters: exceeds limit") := by decide +kernel
  refine ⟨hshort, hlong, fun h ↦ ?_, fun h ↦ ?_⟩
  · have hreturns := h.total emptyWorld rfl
    rw [hshort] at hreturns
    simp at hreturns
  · have hreturns := h.total emptyWorld rfl
    rw [hlong] at hreturns
    simp at hreturns

end Cosmwasgo.Properties
