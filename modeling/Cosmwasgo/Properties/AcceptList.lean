import Cosmwasgo.Keeper.AcceptList

namespace Cosmwasgo.Properties

open Cosmwasgo.Lib Cosmwasgo.Types Cosmwasgo.Keeper

variable {C R V ι : Type}

section Answer

variable (q : AcceptedCall C R V)

/-- The response message of a call and what its own handler call returned. -/
def accepted : Except Err (R × Bytes) := acceptedQuery q.list q.ctx q.path q.data

def decodeError (err : Err) : Err :=
  match q.kind with
  | .stargate => .wrap err "to proto"
  | .grpc => err

/-- What the call returns for a response. -/
def encoding (r : R) (v : V) : Except Err Bytes :=
  match q.kind with
  | .stargate => (q.list.codec.marshalJSON r v).mapError fun err ↦ .wrap err "to json"
  | .grpc => q.list.codec.marshal r v

/-- The encoding of the response its own handler call produced. -/
def ownAnswer : Except Err Bytes :=
  match accepted q with
  | .error err => .error err
  | .ok (r, value) =>
    match q.list.codec.unmarshal r value with
    | (_, some err) => .error (decodeError q err)
    | (v, none) => encoding q r v

variable {q}

theorem ownAnswer_eq {r : R} {value : Bytes} {v : V} (ha : accepted q = .ok (r, value))
    (hv : q.list.codec.unmarshal r value = (v, none)) : ownAnswer q = encoding q r v := by
  simp only [ownAnswer, ha, hv]

end Answer

section Stages

variable [DecidableEq R] (q : AcceptedCall C R V) (r : R)

/-- What is left to do when the response has been encoded. -/
def finishing (out : Except Err Bytes) : Thread (Responses R V) (Except Err Bytes) :=
  match q.kind, out with
  | .stargate, .ok bz => .step (fun s ↦ Function.update s r (q.list.codec.reset r)) fun _ ↦ .ret (.ok bz)
  | _, out => .ret out

/-- What is left to do when the response has been decoded. -/
def encodingStage : Thread (Responses R V) (Except Err Bytes) := .step id fun s ↦ finishing q r (encoding q r (s r))

def decodingStage (value : Bytes) : Thread (Responses R V) (Except Err Bytes) :=
  .step (fun s ↦ Function.update s r (q.list.codec.unmarshal r value).1) fun _ ↦
    match (q.list.codec.unmarshal r value).2 with
    | some err => .ret (.error (decodeError q err))
    | none => encodingStage q r

/-- A call is at most three accesses to its response message. -/
theorem handle_eq : q.handle =
    match accepted q with
    | .error err => .ret (.error err)
    | .ok (r, value) => decodingStage q r value := by
  obtain ⟨l, kind, ctx, path, data⟩ := q
  cases kind with
  | stargate =>
    change acceptListStargateQuerier l ctx path data = _
    unfold acceptListStargateQuerier accepted
    rcases ha : acceptedQuery l ctx path data with err | ⟨r, value⟩
    · rfl
    · refine congrArg (Thread.step _) (funext fun _ ↦ ?_)
      dsimp only
      rcases (l.codec.unmarshal r value).2 with _ | err
      · refine congrArg (Thread.step _) (funext fun s ↦ ?_)
        change _ = finishing _ r ((l.codec.marshalJSON r (s r)).mapError _)
        dsimp only
        cases l.codec.marshalJSON r (s r) <;> rfl
      · rfl
  | grpc =>
    change (acceptListGrpcQuerier l ctx path data >>= _) = _
    unfold acceptListGrpcQuerier accepted
    rcases ha : acceptedQuery l ctx path data with err | ⟨r, value⟩
    · rfl
    · refine congrArg (Thread.step _) (funext fun _ ↦ ?_)
      dsimp only
      rcases (l.codec.unmarshal r value).2 with _ | err
      · exact congrArg (Thread.step _) (funext fun s ↦ by cases l.codec.marshal r (s r) <;> rfl)
      · rfl

theorem within_finishing (out : Except Err Bytes) : (finishing q r out).Within 1 := by
  unfold finishing
  split
  · exact .step fun _ ↦ .ret 0 _
  · exact .ret 1 _

theorem within_handle : q.handle.Within 3 := by
  rw [handle_eq]
  split
  · exact .ret 3 _
  · refine .step fun _ ↦ ?_
    split
    · exact .ret 2 _
    · exact .step fun _ ↦ within_finishing q _ _

theorem run_finishing (out : Except Err Bytes) (s : Responses R V) : ((finishing q r out).run s).1 = out := by
  unfold finishing
  split <;> rfl

/-- A call that has the messages to itself returns its own answer. -/
theorem run_handle (s : Responses R V) : (q.handle.run s).1 = ownAnswer q := by
  rw [handle_eq, ownAnswer]
  rcases accepted q with err | ⟨r, value⟩
  · rfl
  · rcases hdecode : q.list.codec.unmarshal r value with ⟨v, _ | err⟩
    · simp only [decodingStage, Thread.run, hdecode, encodingStage, Function.update_self, run_finishing, id]
    · simp only [decodingStage, Thread.run, hdecode]

end Stages

section Interleavings

variable [DecidableEq R] [DecidableEq ι] (calls : ι → AcceptedCall C R V)

/-- The calls at their start. -/
def started (s : Responses R V) : Pool ι (Responses R V) (Except Err Bytes) := ⟨fun i ↦ (calls i).handle, s⟩

/-- In every interleaving each call returns after at most three accesses, and it returns its own answer. -/
structure Unmixed : Prop where
  own : ∀ {s schedule i a}, ((started calls s).interleave schedule).threads i = .ret a → a = ownAnswer (calls i)
  returns : ∀ {s schedule i}, 3 ≤ schedule.count i → ∃ a, ((started calls s).interleave schedule).threads i = .ret a

/-- What other calls leave in the response message of a call is encoded like its own response. A Stargate call leaves the
response of its handler, and the empty message when that response could be encoded. -/
def Compatible : Prop :=
  ∀ {i j r value value' v}, i ≠ j → accepted (calls i) = .ok (r, value) → accepted (calls j) = .ok (r, value') →
    (calls i).list.codec.unmarshal r value = (v, none) →
      encoding (calls i) r ((calls j).list.codec.unmarshal r value').1 = encoding (calls i) r v ∧
        ∀ {v' bz}, (calls j).kind = .stargate → (calls j).list.codec.unmarshal r value' = (v', none) →
          encoding (calls j) r v' = .ok bz → encoding (calls i) r ((calls j).list.codec.reset r) = encoding (calls i) r v

/-- How far a call has come, with what it needs of the response messages. -/
inductive Stage (q : AcceptedCall C R V) : Thread (Responses R V) (Except Err Bytes) → Responses R V → Prop
  | returned {a : Except Err Bytes} (h : a = ownAnswer q) (s : Responses R V) : Stage q (.ret a) s
  | decodes {r : R} {value : Bytes} (ha : accepted q = .ok (r, value)) (s : Responses R V) : Stage q (decodingStage q r value) s
  | encodes {r : R} {value : Bytes} {v : V} {s : Responses R V} (ha : accepted q = .ok (r, value))
      (hv : q.list.codec.unmarshal r value = (v, none)) (hs : encoding q r (s r) = encoding q r v) :
      Stage q (encodingStage q r) s
  | finishes {r : R} {value : Bytes} {v : V} (ha : accepted q = .ok (r, value))
      (hv : q.list.codec.unmarshal r value = (v, none)) (s : Responses R V) : Stage q (finishing q r (encoding q r v)) s

section Stage

variable {q : AcceptedCall C R V} {t : Thread (Responses R V) (Except Err Bytes)} {s : Responses R V}
  {update : Responses R V → Responses R V} {next : Responses R V → Thread (Responses R V) (Except Err Bytes)}

/-- A call that is not done after encoding is a Stargate call about to reset the message. -/
theorem finishing_eq_step {r : R} {out : Except Err Bytes} (h : finishing q r out = .step update next) :
    ∃ bz, q.kind = .stargate ∧ out = .ok bz ∧ update = (fun s ↦ Function.update s r (q.list.codec.reset r)) ∧
      next = fun _ ↦ .ret (.ok bz) := by
  unfold finishing at h
  split at h
  next bz hkind =>
    obtain ⟨hupdate, hnext⟩ := Thread.step.inj h
    exact ⟨bz, hkind, rfl, hupdate.symm, hnext.symm⟩
  · cases h

theorem finishing_eq_ret {r : R} {out a : Except Err Bytes} (h : finishing q r out = .ret a) : a = out := by
  unfold finishing at h
  split at h
  · cases h
  · exact (Thread.ret.inj h).symm

variable (q) in
theorem Stage.start (s : Responses R V) : Stage q q.handle s := by
  rw [handle_eq]
  rcases ha : accepted q with err | ⟨r, value⟩
  · exact .returned (by simp only [ownAnswer, ha]) s
  · exact .decodes ha s

theorem Stage.answer {a : Except Err Bytes} (h : Stage q (.ret a) s) : a = ownAnswer q := by
  generalize ht : Thread.ret a = t at h
  cases h with
  | returned ha =>
    cases ht
    exact ha
  | decodes ha => cases ht
  | encodes ha hv hs => cases ht
  | finishes ha hv => rw [finishing_eq_ret ht.symm, ownAnswer_eq ha hv]

/-- A call goes from stage to stage by its own steps. -/
theorem Stage.step (h : Stage q (.step update next) s) : Stage q (next s) (update s) := by
  generalize ht : Thread.step update next = t at h
  cases h with
  | returned => cases ht
  | @decodes r value ha =>
    obtain ⟨rfl, rfl⟩ := Thread.step.inj ht
    rcases hv : q.list.codec.unmarshal r value with ⟨v, _ | err⟩
    · refine .encodes ha hv ?_
      change encoding q r (Function.update s r v r) = _
      rw [Function.update_self]
    · exact .returned (by simp only [ownAnswer, ha, hv]) _
  | @encodes r value v _ ha hv hs =>
    obtain ⟨rfl, rfl⟩ := Thread.step.inj ht
    change Stage q (finishing q r (encoding q r (s r))) s
    rw [hs]
    exact .finishes ha hv s
  | finishes ha hv =>
    obtain ⟨bz, -, hout, -, rfl⟩ := finishing_eq_step ht.symm
    exact .returned ((ownAnswer_eq ha hv).trans hout).symm _

end Stage

variable {calls}

omit [DecidableEq ι] in
/-- No step of another call moves a call from its stage. -/
theorem Stage.stable (hc : Compatible calls) {i j : ι} (hij : i ≠ j) {t : Thread (Responses R V) (Except Err Bytes)}
    {s : Responses R V} {update : Responses R V → Responses R V}
    {next : Responses R V → Thread (Responses R V) (Except Err Bytes)} (hi : Stage (calls i) t s)
    (hj : Stage (calls j) (.step update next) s) : Stage (calls i) t (update s) := by
  cases hi with
  | returned ha => exact .returned ha _
  | decodes ha => exact .decodes ha _
  | finishes ha hv => exact .finishes ha hv _
  | @encodes r value v _ ha hv hs =>
    refine .encodes ha hv ?_
    -- the message is another one, or the step is one that compatible calls may make
    have hother : ∀ {r' : R} {x : V}, (r' = r → encoding (calls i) r x = encoding (calls i) r v) →
        encoding (calls i) r (Function.update s r' x r) = encoding (calls i) r v := by
      intro r' x hx
      by_cases hr : r' = r
      · subst hr
        rw [Function.update_self, hx rfl]
      · rw [Function.update_of_ne (Ne.symm hr), hs]
    generalize ht : Thread.step update next = t' at hj
    cases hj with
    | returned => cases ht
    | decodes ha' =>
      obtain ⟨rfl, -⟩ := Thread.step.inj ht
      refine hother fun hr ↦ ?_
      subst hr
      exact (hc hij ha ha' hv).1
    | encodes ha' hv' hs' =>
      obtain ⟨rfl, -⟩ := Thread.step.inj ht
      exact hs
    | finishes ha' hv' =>
      obtain ⟨bz, hkind, hout, rfl, -⟩ := finishing_eq_step ht.symm
      refine hother fun hr ↦ ?_
      subst hr
      exact (hc hij ha ha' hv).2 hkind hv' hout

theorem unmixed_of_compatible (hc : Compatible calls) : Unmixed calls where
  own {s schedule i a} h := by
    have hstage : Stage (calls i) (((started calls s).interleave schedule).threads i) _ :=
      Pool.invariant (I := fun i ↦ Stage (calls i)) Stage.step (fun hij hi hj ↦ hi.stable hc hij hj)
        (fun i ↦ .start (calls i) s) schedule i
    rw [h] at hstage
    exact hstage.answer
  returns hn := Pool.returned_of_within (within_handle _) hn

section Turns

variable {p : Pool ι (Responses R V) (Except Err Bytes)} {i j : ι} {r : R} {value : Bytes} {v : V}

theorem advance_finishing (q : AcceptedCall C R V) (out : Except Err Bytes) (s : Responses R V) :
    ((finishing q r out).advance s).1 = .ret out := by
  unfold finishing
  split <;> rfl

omit [DecidableEq ι] in
theorem threads_started {s : Responses R V} (ha : accepted (calls i) = .ok (r, value)) :
    (started calls s).threads i = decodingStage (calls i) r value := by
  change (calls i).handle = _
  rw [handle_eq, ha]

theorem threads_turn_decoding (h : p.threads i = decodingStage (calls i) r value)
    (hv : (calls i).list.codec.unmarshal r value = (v, none)) : (p.turn i).threads i = encodingStage (calls i) r := by
  rw [Pool.threads_turn_self, h]
  simp only [decodingStage, Thread.advance, hv]

theorem state_turn_decoding (h : p.threads i = decodingStage (calls i) r value) :
    (p.turn i).state r = ((calls i).list.codec.unmarshal r value).1 := by
  rw [Pool.state_turn, h]
  exact Function.update_self ..

/-- After decoding, a call needs two turns, and it returns what it finds in the message at the first of them. -/
theorem interleave_encoding (h : p.threads i = encodingStage (calls i) r) :
    (p.interleave [i, i]).threads i = .ret (encoding (calls i) r (p.state r)) := by
  rw [Pool.interleave_cons, Pool.interleave_cons, Pool.interleave_nil, Pool.threads_turn_self, Pool.threads_turn_self, h]
  exact advance_finishing ..

end Turns

/-- Calls that are not compatible have an interleaving that mixes them. -/
theorem compatible_of_unmixed (h : Unmixed calls) : Compatible calls := by
  intro i j r value value' v hij ha ha' hv
  let p := started calls (calls i).list.codec.reset
  have hi : p.threads i = decodingStage (calls i) r value := threads_started ha
  have hj : p.threads j = decodingStage (calls j) r value' := threads_started ha'
  -- what the call returns when it encodes next
  have hown : ∀ schedule, (p.interleave schedule).threads i = encodingStage (calls i) r →
      encoding (calls i) r ((p.interleave schedule).state r) = encoding (calls i) r v := by
    intro schedule hstage
    have hret := interleave_encoding hstage
    rw [Pool.interleave, Pool.interleave, ← List.foldl_append] at hret
    exact (h.own hret).trans (ownAnswer_eq ha hv)
  refine ⟨?_, fun {v' bz} hkind hv' hout ↦ ?_⟩
  · -- both decode, this call first
    have hj₁ : (p.turn i).threads j = decodingStage (calls j) r value' := (p.threads_turn_of_ne hij.symm).trans hj
    have hi₂ : ((p.turn i).turn j).threads i = encodingStage (calls i) r :=
      ((p.turn i).threads_turn_of_ne hij).trans (threads_turn_decoding hi hv)
    exact state_turn_decoding hj₁ ▸ hown [i, j] hi₂
  · -- the other call has encoded its response, and it resets the message when this call has decoded
    let p₂ := (p.turn j).turn j
    have hj₂ : p₂.threads j = finishing (calls j) r (.ok bz) := by
      rw [Pool.threads_turn_self, threads_turn_decoding hj hv']
      change finishing (calls j) r (encoding (calls j) r ((p.turn j).state r)) = _
      rw [state_turn_decoding hj, hv', hout]
    have hi₂ : p₂.threads i = decodingStage (calls i) r value :=
      ((p.turn j).threads_turn_of_ne hij).trans ((p.threads_turn_of_ne hij).trans hi)
    have hj₃ : (p₂.turn i).threads j = finishing (calls j) r (.ok bz) := (p₂.threads_turn_of_ne hij.symm).trans hj₂
    have hi₄ : ((p₂.turn i).turn j).threads i = encodingStage (calls i) r :=
      ((p₂.turn i).threads_turn_of_ne hij).trans (threads_turn_decoding hi₂ hv)
    have hstate : ((p₂.turn i).turn j).state r = (calls j).list.codec.reset r := by
      rw [Pool.state_turn, hj₃]
      simp only [finishing, hkind]
      exact Function.update_self ..
    exact hstate ▸ hown [j, j, i, j] hi₄

/-- Concurrent calls return their own answers just when what they leave in a message they share is encoded alike. -/
theorem responses_unmixed_iff : Unmixed calls ↔ Compatible calls := ⟨compatible_of_unmixed, unmixed_of_compatible⟩

/-- Calls that have a response message each do not mix. -/
theorem unmixed_of_distinct (h : ∀ {i j r r' value value'}, i ≠ j → accepted (calls i) = .ok (r, value) →
    accepted (calls j) = .ok (r', value') → r ≠ r') : Unmixed calls :=
  unmixed_of_compatible fun hij ha ha' ↦ absurd rfl (h hij ha ha')

end Interleavings

section Shared

/-- One path with one response message, which holds the bytes it is given. The handler answers from its context. -/
def oneQuery : AcceptList Bytes Unit Bytes where
  acceptList path := if path = "/cosmos.bank.v1beta1.Query/Balance" then some () else none
  queryRouter _ := some fun ctx _ _ ↦ .ok ctx
  codec := {
    unmarshal := fun _ bz ↦ (bz, none)
    marshalJSON := fun _ v ↦ .ok v
    marshal := fun _ v ↦ .ok v
    reset := fun _ ↦ [] }

/-- The same query from block execution (`true`) and from a simulation, at different heights. -/
def blockAndSimulation (block : Bool) : AcceptedCall Bytes Unit Bytes where
  list := oneQuery
  kind := .stargate
  ctx := if block then [1] else [2]
  path := "/cosmos.bank.v1beta1.Query/Balance"
  data := []

/-- The block's query decodes its response, the simulation decodes another into the same message, and the block's query
returns the latter. -/
theorem block_gets_simulated_response :
    ((started blockAndSimulation fun _ ↦ []).interleave [true, false, true, true]).threads true = .ret (.ok [2]) ∧
      ownAnswer (blockAndSimulation true) = .ok [1] ∧ ¬Unmixed blockAndSimulation := by
  have hmixed : ((started blockAndSimulation fun _ ↦ []).interleave [true, false, true, true]).threads true =
      .ret (.ok [2]) := rfl
  have hown : ownAnswer (blockAndSimulation true) = .ok [1] := rfl
  refine ⟨hmixed, hown, fun h ↦ ?_⟩
  have hanswer := (h.own hmixed).trans hown
  simp at hanswer

end Shared

end Cosmwasgo.Properties
