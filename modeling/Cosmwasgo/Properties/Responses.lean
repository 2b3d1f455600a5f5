import Cosmwasgo.WasmVM.Responses

namespace Cosmwasgo.Properties

open Cosmwasgo.Lib Cosmwasgo.Lib.GoJson Cosmwasgo.State Cosmwasgo.Keeper Cosmwasgo.WasmVM
open Cosmwasgo.Types hiding Value

variable {texts : Texts} {parse : Bytes → Except String Json} {call : VMCall} {gasLimit : UInt64} {deserCost : UFraction}
variable {report : GasReport} {data : Bytes}

/-- A vote that is well typed and in the end has neither an `option` nor the older `vote`: each is missing or null. -/
def NilVote (texts : Texts) (v : Json) : Prop :=
  ∃ tmp, unmarshal (decoder texts) internalVoteMsg v = .ok (.ok tmp) ∧
    (tmp.field 1).deref = none ∧ (tmp.field 2).deref = none

/-- The gas limit covers the price of the data. -/
def PaysFor (gasLimit : UInt64) (deserCost : UFraction) (report : GasReport) (data : Bytes) : Prop :=
  deserCost.numerator * UInt64.ofNat data.length / deserCost.denominator + report.usedInternally ≤ gasLimit

/-- The first part of the response at which reading stops, if there is one, is not a vote without an option. -/
def VotesSet (texts : Texts) (call : VMCall) (j : Json) : Prop :=
  ∀ v, First (decoder texts) call.result.type j voteMsg v → ¬ NilVote texts v

section Sources

theorem unmarshalVoteMsg_eq_error {tmp : Value} {p : Panic} :
    unmarshalVoteMsg tmp = .error p ↔
      (tmp.field 1).deref = none ∧ (tmp.field 2).deref = none ∧ p = nilDereference := by
  rw [unmarshalVoteMsg]
  cases (tmp.field 1).deref <;> cases (tmp.field 2).deref <;> simp [eq_comm]

/-- Of all the unmarshalers only that of votes can panic. -/
theorem finish_eq_error {u : Unmarshaler} {tmp : Value} {p : Panic} (h : u.finish tmp = .error p) :
    u = .voteMsg ∧ (tmp.field 1).deref = none ∧ (tmp.field 2).deref = none := by
  cases u with
  | voteMsg =>
    obtain ⟨hoption, hvote, -⟩ := unmarshalVoteMsg_eq_error.1 h
    exact ⟨rfl, hoption, hvote⟩
  | cosmosMsg => cases h
  | voteOption => cases h
  | replyOn => cases h
  | array => cases h

/-- The unmarshaler of votes is that of `VoteMsg` wherever a response has one. -/
theorem type_votes (t : ResultType) :
    t.type.all (fun u inner ↦ decide (u = .voteMsg → inner = internalVoteMsg)) = true := by
  cases t <;> decide +kernel

theorem stopsAt_voteMsg {v : Json} (h : NilVote texts v) :
    StopsAt (decoder texts) voteMsg v (.panic nilDereference) := by
  obtain ⟨tmp, hread, hoption, hvote⟩ := h
  exact .panics hread (unmarshalVoteMsg_eq_error.2 ⟨hoption, hvote, rfl⟩)

theorem nilVote_of_stopsAt {t : ResultType} {j v : Json} {type : ResponsePart} {p : Panic}
    (hreads : GoJson.Reads (decoder texts) t.type j type v) (hat : StopsAt (decoder texts) type v (.panic p)) :
    type = voteMsg ∧ NilVote texts v := by
  cases hat with
  | @panics u inner _ tmp _ hread hfinish =>
    obtain ⟨rfl, hoption, hvote⟩ := finish_eq_error hfinish
    have hinner : inner = internalVoteMsg := by
      have hall := (Bool.and_eq_true_iff.1 (hreads.all (type_votes t))).1
      exact of_decide_eq_true hall rfl
    subst hinner
    exact ⟨rfl, tmp, hread, hoption, hvote⟩

end Sources

theorem unmarshal_panics_iff_nilVote {j : Json} :
    (∃ p, unmarshal (decoder texts) call.result.type j = .error p) ↔ ¬ VotesSet texts call j := by
  simp only [VotesSet, not_forall, not_not]
  constructor
  · rintro ⟨p, hp⟩
    obtain ⟨type, v, hfirst, hat⟩ := unmarshal_panics_iff.1 hp
    obtain ⟨rfl, hnil⟩ := nilVote_of_stopsAt hfirst.reads hat
    exact ⟨v, hfirst, hnil⟩
  · rintro ⟨v, hfirst, hnil⟩
    exact ⟨nilDereference, unmarshal_panics_iff.2 ⟨voteMsg, v, hfirst, stopsAt_voteMsg hnil⟩⟩

theorem readResponse_returns_iff :
    (∃ r, readResponse texts parse call.result data = .ok r) ↔ ∀ j, parse data = .ok j → VotesSet texts call j := by
  rw [readResponse]
  cases parse data with
  | error e => simp
  | ok j =>
    simp only [Except.ok.injEq, forall_eq']
    rw [← not_iff_not, ← unmarshal_panics_iff_nilVote]
    cases unmarshal (decoder texts) call.result.type j with
    | error p => simp [bind, Except.bind]
    | ok r => cases r <;> simp [bind, Except.bind, pure, Except.pure]

section Guard

theorem deserialize_panics_of_zero (hden : deserCost.denominator = 0) :
    deserialize texts parse call gasLimit deserCost report data = .error (.other "integer divide by zero") := by
  have hfloor : (deserCost.mul (UInt64.ofNat data.length)).floor = .error (.other "integer divide by zero") := if_pos hden
  rw [deserialize, hfloor]
  rfl

theorem deserialize_eq (hden : deserCost.denominator ≠ 0) :
    deserialize texts parse call gasLimit deserCost report data =
      if gasLimit < deserCost.numerator * UInt64.ofNat data.length / deserCost.denominator + report.usedInternally then
        .ok (.error ("Insufficient gas left to deserialize contract execution result (" ++ toString data.length ++
          " bytes)"), report)
      else
        readResponse texts parse call.result data >>= fun r ↦
          .ok (r, report.charge (deserCost.numerator * UInt64.ofNat data.length / deserCost.denominator)) := by
  have hfloor : (deserCost.mul (UInt64.ofNat data.length)).floor =
      .ok (deserCost.numerator * UInt64.ofNat data.length / deserCost.denominator) := if_neg hden
  rw [deserialize, hfloor]
  rfl

end Guard

/-- A response of any entry point is read, or refused with an error, exactly if its price can be computed and it is not
paid for, is no document, or does not stop at a vote without an option. -/
theorem deserialize_returns_iff :
    (∃ r, deserialize texts parse call gasLimit deserCost report data = .ok r) ↔
      deserCost.denominator ≠ 0 ∧
        (PaysFor gasLimit deserCost report data → ∀ j, parse data = .ok j → VotesSet texts call j) := by
  by_cases hden : deserCost.denominator = 0
  · rw [deserialize_panics_of_zero hden]
    exact iff_of_false (fun ⟨_, h⟩ ↦ nomatch h) fun h ↦ h.1 hden
  rw [deserialize_eq hden, and_iff_right hden, ← readResponse_returns_iff, PaysFor]
  split
  next hlow => exact iff_of_true ⟨_, rfl⟩ fun hpays ↦ absurd hlow (UInt64.not_lt.2 hpays)
  next hpaid =>
    rw [forall_prop_of_true (UInt64.not_lt.1 hpaid)]
    cases readResponse texts parse call.result data with
    | error p => exact iff_of_false (fun ⟨_, h⟩ ↦ nomatch h) fun ⟨_, h⟩ ↦ nomatch h
    | ok r => exact iff_of_true ⟨_, rfl⟩ ⟨r, rfl⟩

section Votes

/-- Keys are compared without regard to the case of ASCII letters, and no bytes and numbers in quotes are read. -/
def asciiTexts : Texts where
  sameKey a b := a.toLower == b.toLower
  base64 _ := none
  quoted _ _ := .broken "number"

/-- A response with one message, which is a vote. -/
def votes (vote : List (String × Json)) : Json :=
  .obj [("ok", .obj [("messages", .arr [.obj [("id", .num (some 1)),
    ("msg", .obj [("gov", .obj [("vote", .obj vote)])]), ("reply_on", .str "never")]])])]

/-- A vote on a proposal, and nothing else. -/
def bareVote : Json := votes [("proposal_id", .num (some 1))]

def bareVoteText : Bytes :=
  ("\x7b\"ok\":\x7b\"messages\":[\x7b\"id\":1,\"msg\":\x7b" ++
    "\"gov\":\x7b\"vote\":\x7b\"proposal_id\":1\x7d\x7d\x7d,\"reply_on\":\"never\"\x7d]\x7d\x7d").toList.map
      fun c ↦ Fin.ofNat 256 c.toNat

def parseBareVote (data : Bytes) : Except String Json :=
  if data = bareVoteText then .ok bareVote else .error "invalid character"

/-- A contract that executes pays for the 90 bytes of a vote without an option, and reading them panics. -/
theorem bareVote_panics :
    deserialize asciiTexts parseBareVote .execute 1000000 ⟨1, 1⟩ (emptyGasReport 1000000) bareVoteText =
      .error nilDereference := by
  -- values have no decidable equality, so the result is compared by its panic
  have hpanic : (match deserialize asciiTexts parseBareVote .execute 1000000 ⟨1, 1⟩ (emptyGasReport 1000000)
      bareVoteText with
    | .error p => some p
    | .ok _ => none) = some nilDereference := by
    decide +kernel
  split at hpanic
  next p hp => exact hp.trans (congrArg _ (Option.some.inj hpanic))
  next => cases hpanic

end Votes

end Cosmwasgo.Properties
