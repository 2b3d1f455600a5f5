import Cosmwasgo.Runs.Acts

namespace Cosmwasgo.Runs

open Cosmwasgo.Lib Cosmwasgo.Types Cosmwasgo.State Cosmwasgo.Keeper

variable {X α β : Type}

/-- Code that only reads and writes the module's store: it returns or panics, and when it returns `post`
says what the store is then. -/
structure Writes (m : M X α) (post : Durable X → α → Durable X → Prop) : Prop where
  exits : ∀ w, (m w).1.exit = .ok ∨ (m w).1.exit = .panic
  trace : ∀ w, (m w).2.trace = w.trace
  vm : ∀ w, (m w).2.vm = w.vm
  meter : ∀ w : World X, w.meter.Spends (m w).1.exit (m w).2.meter
  loads : ∀ w, Loads w (m w).2
  post : ∀ w a w', m w = (.ok a, w') → post (durable w) a (durable w')
  oblivious : Oblivious m

namespace Writes

variable {post : Durable X → α → Durable X → Prop}

theorem mono {post' : Durable X → α → Durable X → Prop} {m : M X α} (h : Writes m post)
    (hp : ∀ d a d', post d a d' → post' d a d') : Writes m post' :=
  { h with post := fun w a w' hr ↦ hp _ _ _ (h.post w a w' hr) }

theorem pure (a : α) : Writes (X := X) (pure a) fun d b d' ↦ b = a ∧ d' = d where
  exits _ := .inl rfl
  trace _ := rfl
  vm _ := rfl
  meter _ := .refl _ _
  loads _ := .of_eq rfl rfl
  post w b w' h := by
    obtain ⟨hb, rfl⟩ := Prod.mk.inj h
    cases hb
    exact ⟨rfl, rfl⟩
  oblivious := .pure a

theorem raise (p : Panic) : Writes (X := X) (α := α) (Program.raise p) fun _ _ _ ↦ False where
  exits _ := .inr rfl
  trace _ := rfl
  vm _ := rfl
  meter _ := .refl _ _
  loads _ := .of_eq rfl rfl
  post w b w' h := by cases (Prod.mk.inj h).1
  oblivious := .raise p

theorem bind {m : M X α} {f : α → M X β} {post' : α → Durable X → β → Durable X → Prop} (hm : Writes m post)
    (hf : ∀ a, Writes (f a) (post' a)) :
    Writes (m >>= f) fun d b d' ↦ ∃ a d₁, post d a d₁ ∧ post' a d₁ b d' := by
  have split : ∀ w, (∃ a w₁, m w = (.ok a, w₁) ∧ (m >>= f) w = f a w₁) ∨
      (∃ p w₁, m w = (.panic p, w₁) ∧ (m >>= f) w = (.panic p, w₁)) := by
    intro w
    have hx := hm.exits w
    rcases hr : m w with ⟨a | e | p | _, w₁⟩ <;> rw [hr] at hx
    · exact .inl ⟨a, w₁, rfl, Program.bind_of_ok f hr⟩
    · simp at hx
    · exact .inr ⟨p, w₁, rfl, Program.bind_of_panic f hr⟩
    · simp at hx
  refine ⟨fun w ↦ ?_, fun w ↦ ?_, fun w ↦ ?_, fun w ↦ ?_, fun w ↦ ?_, fun w b w' h ↦ ?_, ?_⟩
  · rcases split w with ⟨a, w₁, -, hb⟩ | ⟨p, w₁, -, hb⟩ <;> rw [hb]
    · exact (hf a).exits w₁
    · exact .inr rfl
  · have ht := hm.trace w
    rcases split w with ⟨a, w₁, hr, hb⟩ | ⟨p, w₁, hr, hb⟩ <;> rw [hb] <;> rw [hr] at ht
    · exact ((hf a).trace w₁).trans ht
    · exact ht
  · have ht := hm.vm w
    rcases split w with ⟨a, w₁, hr, hb⟩ | ⟨p, w₁, hr, hb⟩ <;> rw [hb] <;> rw [hr] at ht
    · exact ((hf a).vm w₁).trans ht
    · exact ht
  · have ht := hm.meter w
    rcases split w with ⟨a, w₁, hr, hb⟩ | ⟨p, w₁, hr, hb⟩ <;> rw [hb] <;> rw [hr] at ht
    · exact ht.trans ((hf a).meter w₁)
    · exact ht
  · have ht := hm.loads w
    rcases split w with ⟨a, w₁, hr, hb⟩ | ⟨p, w₁, hr, hb⟩ <;> rw [hb] <;> rw [hr] at ht
    · exact ht.trans ((hf a).loads w₁)
    · exact ht
  · obtain ⟨a, w₁, hr, hb⟩ := Program.bind_eq_ok.1 h
    exact ⟨a, durable w₁, hm.post w a w₁ hr, (hf a).post w₁ b w' hb⟩
  · exact hm.oblivious.bind fun a ↦ (hf a).oblivious

theorem liftPanic (e : Except Panic α) : Writes (X := X) (Keeper.liftPanic e) fun d a d' ↦ e = .ok a ∧ d' = d := by
  cases e with
  | ok a => exact (pure a).mono fun _ _ _ ⟨h, hd⟩ ↦ ⟨h ▸ rfl, hd⟩
  | error p => exact (raise p).mono fun _ _ _ h ↦ h.elim

theorem consumeGas (amount : Gas) (desc : String) :
    Writes (X := X) (Keeper.consumeGas amount desc) fun d _ d' ↦ d' = d := by
  have h := Local.consumeGas (X := X) (o := none) amount desc
  have hw : ∀ w : World X, ((Keeper.consumeGas amount desc w).1.exit = .ok ∨
      (Keeper.consumeGas amount desc w).1.exit = .panic) ∧
        durable (Keeper.consumeGas amount desc w).2 = durable w := by
    intro w
    unfold Keeper.consumeGas
    rcases w.meter.consume amount desc with ⟨_ | p, m⟩
    · exact ⟨.inl rfl, rfl⟩
    · exact ⟨.inr rfl, rfl⟩
  refine ⟨fun w ↦ (hw w).1, fun w ↦ (h.keeps w).trace, fun w ↦ (h.keeps w).quiet.vm, fun w ↦ (h.keeps w).meter,
    fun w ↦ (h.keeps w).loads, fun w a w' hr ↦ ?_, h.oblivious⟩
  have hd := (hw w).2
  rwa [hr] at hd

theorem read {f : World X → α} {g : Durable X → α} (h : ∀ w, f w = g (durable w)) :
    Writes (Program.read f : M X α) fun d a d' ↦ a = g d ∧ d' = d where
  exits _ := .inl rfl
  trace _ := rfl
  vm _ := rfl
  meter _ := .refl _ _
  loads _ := .of_eq rfl rfl
  post w b w' hr := by
    obtain ⟨hb, rfl⟩ := Prod.mk.inj hr
    cases hb
    exact ⟨h w, rfl⟩
  oblivious := .read fun w v hs _ _ hv ↦ by rw [h, h, durable, durable, hs, hv]

/-- A write of the durable part that leaves the VM's cache alone. -/
theorem update {f : World X → World X} {g : Durable X → Durable X} (hd : ∀ w, durable (f w) = g (durable w))
    (ht : ∀ w, (f w).trace = w.trace) (hv : ∀ w, (f w).vm = w.vm) (hm : ∀ w, (f w).meter = w.meter)
    (hc : ∀ w, (f w).txContracts = w.txContracts) (hs : ∀ w, (f w).setups = w.setups)
    (he : ∀ w, (f w).events = w.events) :
    Writes (Program.update f : M X Unit) fun d _ d' ↦ d' = g d where
  exits _ := .inl rfl
  trace w := ht w
  vm w := hv w
  meter w := by
    rw [Program.update_apply, hm]
    exact .refl _ _
  loads w := .of_eq (hc w) (hs w)
  post w b w' hr := by
    obtain ⟨-, rfl⟩ := Prod.mk.inj hr
    exact hd w
  oblivious := .update fun E _ w v hw ↦ by
    have hdv : durable w = durable v := by rw [durable, durable, hw.store, hw.vm]
    have hfd : durable (f w) = durable (f v) := by rw [hd, hd, hdv]
    refine ⟨congrArg Durable.store hfd, ?_, ?_, congrArg Durable.vm hfd, ?_⟩
    · rw [hm, hm, hw.meter]
    · rw [hc, hc, hw.txContracts]
    · rw [he, he]
      exact hw.events

theorem assertValidKey (key : Bytes) : Writes (X := X) (Keeper.assertValidKey key) fun d _ d' ↦ d' = d := by
  unfold Keeper.assertValidKey
  split
  · exact (raise _).mono fun _ _ _ h ↦ h.elim
  · exact (pure ()).mono fun _ _ _ h ↦ h.2

variable (k : Keeper X)

theorem getKV (key : Bytes) : Writes (Keeper.getKV k key) fun d v d' ↦ v = d.kv.get key ∧ d' = d := by
  refine ((assertValidKey key).bind fun _ ↦ (read (g := fun d ↦ d.kv.get key) fun _ ↦ rfl).bind fun v ↦
    (consumeGas _ _).bind fun _ ↦ pure v).mono ?_
  rintro d v d' ⟨_, _, rfl, _, _, ⟨rfl, rfl⟩, _, _, rfl, rfl, rfl⟩
  exact ⟨rfl, rfl⟩

theorem hasKV (key : Bytes) : Writes (Keeper.hasKV k key) fun d b d' ↦ b = (d.kv.get key).isSome ∧ d' = d := by
  refine ((assertValidKey key).bind fun _ ↦ (consumeGas _ _).bind fun _ ↦
    read (g := fun d ↦ (d.kv.get key).isSome) fun _ ↦ rfl).mono ?_
  rintro d b d' ⟨_, _, rfl, _, _, rfl, rfl, rfl⟩
  exact ⟨rfl, rfl⟩

theorem setKV (key : Bytes) (v : Value) : Writes (Keeper.setKV k key v) fun d _ d' ↦ d' = d.withKV (d.kv.set key v) := by
  have hu : Writes (Program.update fun w : World X ↦ { w with store := { w.store with kv := w.store.kv.set key v } })
      fun d _ d' ↦ d' = d.withKV (d.kv.set key v) :=
    update (fun _ ↦ rfl) (fun _ ↦ rfl) (fun _ ↦ rfl) (fun _ ↦ rfl) (fun _ ↦ rfl) (fun _ ↦ rfl) fun _ ↦ rfl
  refine ((assertValidKey key).bind fun _ ↦ (consumeGas _ _).bind fun _ ↦ hu).mono ?_
  rintro d _ d' ⟨_, _, rfl, _, _, rfl, rfl⟩
  rfl

theorem deleteKV (key : Bytes) : Writes (Keeper.deleteKV k key) fun d _ d' ↦ d' = d.withKV (d.kv.delete key) := by
  have hu : Writes (Program.update fun w : World X ↦ { w with store := { w.store with kv := w.store.kv.delete key } })
      fun d _ d' ↦ d' = d.withKV (d.kv.delete key) :=
    update (fun _ ↦ rfl) (fun _ ↦ rfl) (fun _ ↦ rfl) (fun _ ↦ rfl) (fun _ ↦ rfl) (fun _ ↦ rfl) fun _ ↦ rfl
  refine ((assertValidKey key).bind fun _ ↦ (consumeGas _ _).bind fun _ ↦ hu).mono ?_
  rintro d _ d' ⟨_, _, rfl, _, _, rfl, rfl⟩
  rfl

theorem iterateKV (head : Bytes) : Writes (Keeper.iterateKV k head) fun d es d' ↦ es = d.kv.scan head ∧ d' = d := by
  refine ((read (g := fun d ↦ d.kv.scan head) fun _ ↦ rfl).bind fun es ↦ (consumeGas _ _).bind fun _ ↦
    pure es).mono ?_
  rintro d es d' ⟨_, _, ⟨rfl, rfl⟩, _, _, rfl, rfl, rfl⟩
  exact ⟨rfl, rfl⟩

theorem incUint64 (n : UInt64) :
    Writes (X := X) (Keeper.incUint64 n) fun d i d' ↦ n.toNat + 1 < 2 ^ 64 ∧ i = n + 1 ∧ d' = d := by
  unfold Keeper.incUint64
  split
  · next h => exact (pure _).mono fun _ _ _ ⟨hi, hd⟩ ↦ ⟨h, hi, hd⟩
  · exact (raise _).mono fun _ _ _ h ↦ h.elim

theorem recordChange (c : Ctx) (kind : ChangeKind) (addr caller : AccAddress) (policy : AuthorizationPolicy)
    (after : ContractInfo) : Writes (X := X) (Keeper.recordChange c kind addr caller policy after)
      fun d _ d' ↦ d' = d.recording (changeOf d.kv kind addr caller policy c.stack after) :=
  update (fun _ ↦ rfl) (fun _ ↦ rfl) (fun _ ↦ rfl) (fun _ ↦ rfl) (fun _ ↦ rfl) (fun _ ↦ rfl) fun _ ↦ rfl

theorem recordAck (packet : Packet) :
    Writes (X := X) (Keeper.recordAck packet) fun d _ d' ↦ d' = d.acking packet :=
  update (fun _ ↦ rfl) (fun _ ↦ rfl) (fun _ ↦ rfl) (fun _ ↦ rfl) (fun _ ↦ rfl) (fun _ ↦ rfl) fun _ ↦ rfl

theorem mustPosition (p : Option AbsoluteTxPosition) :
    Writes (X := X) (Keeper.mustPosition p) fun d a d' ↦ p = some a ∧ d' = d := by
  cases p with
  | some p => exact (pure p).mono fun _ _ _ ⟨h, hd⟩ ↦ ⟨h ▸ rfl, hd⟩
  | none => exact (raise _).mono fun _ _ _ h ↦ h.elim

theorem mustCreatorPrefix (creator : AccAddress) :
    Writes (X := X) (Keeper.mustCreatorPrefix creator)
      fun d a d' ↦ getContractsByCreatorPrefix creator = some a ∧ d' = d := by
  unfold Keeper.mustCreatorPrefix
  split
  · next p h => exact (pure p).mono fun _ _ _ hpure ↦ ⟨hpure.1 ▸ h, hpure.2⟩
  · exact (raise _).mono fun _ _ _ h ↦ h.elim

theorem mustAutoIncrementID (key : Bytes) : Writes (Keeper.mustAutoIncrementID k key) fun d id d' ↦
    parseSequence (d.kv.get key) = .ok id ∧ id.toNat + 1 < 2 ^ 64 ∧
      d' = d.withKV (d.kv.set key (.bytes (uint64ToBigEndian (id + 1)))) := by
  refine ((getKV k key).bind fun v ↦ (liftPanic (parseSequence v)).bind fun id ↦ (incUint64 id).bind fun next ↦
    (setKV k key (.bytes (uint64ToBigEndian next))).bind fun _ ↦ pure id).mono ?_
  rintro d id d' ⟨_, _, ⟨rfl, rfl⟩, _, _, ⟨hid, rfl⟩, _, _, ⟨hlt, rfl, rfl⟩, _, _, rfl, rfl, rfl⟩
  exact ⟨hid, hlt, rfl⟩

theorem persistCode (info : CodeInfo) : Writes (Keeper.persistCode k info) fun d id d' ↦
    parseSequence (d.kv.get keySequenceCodeID) = .ok id ∧ id.toNat + 1 < 2 ^ 64 ∧
      d' = d.withKV ((d.kv.set keySequenceCodeID (.bytes (uint64ToBigEndian (id + 1)))).set (getCodeKey id)
        (.codeInfo info)) := by
  refine ((mustAutoIncrementID k keySequenceCodeID).bind fun id ↦
    (setKV k (getCodeKey id) (.codeInfo info)).bind fun _ ↦ pure id).mono ?_
  rintro d id d' ⟨_, _, ⟨hid, hlt, rfl⟩, _, _, rfl, rfl, rfl⟩
  exact ⟨hid, hlt, rfl⟩

theorem addToContractCodeSecondaryIndex (addr : AccAddress) (entry : ContractCodeHistoryEntry) :
    Writes (Keeper.addToContractCodeSecondaryIndex k addr entry) fun d _ d' ↦ ∃ pos, entry.updated = some pos ∧
      d' = d.withKV (d.kv.set (getContractByCreatedSecondaryIndexKey addr entry.codeID pos) (.bytes [])) := by
  refine ((mustPosition entry.updated).bind fun pos ↦ setKV k _ _).mono ?_
  rintro d _ d' ⟨pos, _, ⟨hpos, rfl⟩, rfl⟩
  exact ⟨pos, hpos, rfl⟩

theorem removeFromContractCodeSecondaryIndex (addr : AccAddress) (entry : ContractCodeHistoryEntry) :
    Writes (Keeper.removeFromContractCodeSecondaryIndex k addr entry) fun d _ d' ↦ ∃ pos, entry.updated = some pos ∧
      d' = d.withKV (d.kv.delete (getContractByCreatedSecondaryIndexKey addr entry.codeID pos)) := by
  refine ((mustPosition entry.updated).bind fun pos ↦ deleteKV k _).mono ?_
  rintro d _ d' ⟨pos, _, ⟨hpos, rfl⟩, rfl⟩
  exact ⟨pos, hpos, rfl⟩

theorem addToContractCreatorSecondaryIndex (creator : AccAddress) (position : Option AbsoluteTxPosition)
    (addr : AccAddress) : Writes (Keeper.addToContractCreatorSecondaryIndex k creator position addr) fun d _ d' ↦
      ∃ pos head, position = some pos ∧ getContractsByCreatorPrefix creator = some head ∧
        d' = d.withKV (d.kv.set (getContractByCreatorSecondaryIndexKey head pos addr) (.bytes [])) := by
  refine ((mustPosition position).bind fun pos ↦ (mustCreatorPrefix creator).bind fun head ↦ setKV k _ _).mono ?_
  rintro d _ d' ⟨pos, _, ⟨hpos, rfl⟩, head, _, ⟨hhead, rfl⟩, rfl⟩
  exact ⟨pos, head, hpos, hhead, rfl⟩

theorem appendToContractHistory (addr : AccAddress) (entry : ContractCodeHistoryEntry) :
    Writes (Keeper.appendToContractHistory k addr [entry]) fun d _ d' ↦
      (lastPosition (d.kv.scan (getContractCodeHistoryElementPrefix addr))).toNat + 1 < 2 ^ 64 ∧
        d' = d.withKV (d.kv.set (getContractCodeHistoryElementKey addr (nextPosition d.kv addr)) (.history entry)) := by
  refine ((iterateKV k _).bind fun es ↦ (incUint64 (lastPosition es)).bind fun pos ↦
    (setKV k (getContractCodeHistoryElementKey addr pos) (.history entry)).bind fun _ ↦ pure ()).mono ?_
  rintro d _ d' ⟨_, _, ⟨rfl, rfl⟩, _, _, ⟨hlt, rfl, rfl⟩, _, _, rfl, -, rfl⟩
  exact ⟨hlt, rfl⟩

theorem mustGetLastContractHistoryEntry (addr : AccAddress) :
    Writes (Keeper.mustGetLastContractHistoryEntry k addr) fun d e d' ↦
      lastHistory d.kv addr = some (.history e) ∧ d' = d := by
  refine ((iterateKV k _).bind fun es ↦ (?last : Writes _ fun d e d' ↦
    ((historyEntries es).getLast?).map (·.2) = some (.history e) ∧ d' = d)).mono ?_
  case last =>
    split
    · next e he =>
      refine (liftPanic _).mono ?_
      rintro d a d' ⟨ha, rfl⟩
      cases hv : e.2 <;> rw [hv] at ha <;> cases ha
      exact ⟨by rw [he, Option.map_some, hv], rfl⟩
    · exact (raise _).mono fun _ _ _ h ↦ h.elim
  rintro d e d' ⟨_, _, ⟨rfl, rfl⟩, he, rfl⟩
  exact ⟨he, rfl⟩

theorem persistInstance (c : Ctx) (creator addr : AccAddress) (initMsg : Bytes) (info : ContractInfo)
    (policy : AuthorizationPolicy) :
    Writes (Keeper.persistInstance k c creator addr initMsg info policy) fun d _ d' ↦
      ∃ pos head, info.created = some pos ∧ getContractsByCreatorPrefix creator = some head ∧
        (lastPosition (d.kv.scan (getContractCodeHistoryElementPrefix addr))).toNat + 1 < 2 ^ 64 ∧
        d' = (d.recording (changeOf d.kv .instantiate addr creator policy c.stack info)).withKV
          (registered d.kv addr head pos info initMsg) := by
  refine ((recordChange c .instantiate addr creator policy info).bind fun _ ↦
    (addToContractCodeSecondaryIndex k addr _).bind fun _ ↦ (addToContractCreatorSecondaryIndex k creator _ addr).bind
      fun _ ↦ (appendToContractHistory k addr _).bind fun _ ↦ setKV k _ _).mono ?_
  rintro d _ d' ⟨_, _, rfl, _, _, ⟨pos, hpos, rfl⟩, _, _, ⟨pos', head, hpos', hhead, rfl⟩, _, _, ⟨hlt, rfl⟩, rfl⟩
  obtain rfl : pos = pos' := Option.some.inj (hpos.symm.trans hpos')
  refine ⟨pos, head, hpos, hhead, ?_, rfl⟩
  -- the index entries are of other families than the history
  have hscan : d.kv.scan (getContractCodeHistoryElementPrefix addr) =
      ((d.kv.set (getContractByCreatedSecondaryIndexKey addr info.codeID pos) (.bytes [])).set
        (getContractByCreatorSecondaryIndexKey head pos addr) (.bytes [])).scan
          (getContractCodeHistoryElementPrefix addr) := by
    refine scan_congr_of_head (List.cons_ne_nil _ _) fun j hj ↦ ?_
    rw [head?_getContractCodeHistoryElementPrefix] at hj
    rw [get_set_of_head _ (by rw [hj, head?_getContractByCreatorSecondaryIndexKey hhead]; decide),
      get_set_of_head _ (by rw [hj, head?_getContractByCreatedSecondaryIndexKey]; decide)]
  rw [hscan]
  exact hlt

theorem persistMigration (c : Ctx) (addr caller : AccAddress) (newCodeID : UInt64) (msg : Bytes)
    (info : ContractInfo) (policy : AuthorizationPolicy) :
    Writes (Keeper.persistMigration k c addr caller newCodeID msg info policy) fun d _ d' ↦
      ∃ last lastPos pos, lastHistory d.kv addr = some (.history last) ∧ last.updated = some lastPos ∧
        (lastPosition (d.kv.scan (getContractCodeHistoryElementPrefix addr))).toNat + 1 < 2 ^ 64 ∧
        d' = (d.recording (changeOf d.kv .migrate addr caller policy c.stack { info with codeID := newCodeID })).withKV
          (migrated d.kv addr last.codeID lastPos { info with codeID := newCodeID } pos msg) := by
  refine ((recordChange c .migrate addr caller policy _).bind fun _ ↦
    (mustGetLastContractHistoryEntry k addr).bind fun last ↦ (removeFromContractCodeSecondaryIndex k addr last).bind
      fun _ ↦ (liftPanic (newAbsoluteTxPosition c)).bind fun pos ↦ (appendToContractHistory k addr _).bind fun _ ↦
        (addToContractCodeSecondaryIndex k addr _).bind fun _ ↦ setKV k _ _).mono ?_
  rintro d _ d' ⟨_, _, rfl, last, _, ⟨hlast, rfl⟩, _, _, ⟨lastPos, hpos, rfl⟩, pos, _, ⟨-, rfl⟩, _, _, ⟨hlt, rfl⟩,
    _, _, ⟨pos', hpos', rfl⟩, rfl⟩
  obtain rfl : pos = pos' := Option.some.inj hpos'
  refine ⟨last, lastPos, pos, hlast, hpos, ?_, rfl⟩
  have hscan : d.kv.scan (getContractCodeHistoryElementPrefix addr) =
      (d.kv.delete (getContractByCreatedSecondaryIndexKey addr last.codeID lastPos)).scan
        (getContractCodeHistoryElementPrefix addr) := by
    refine scan_congr_of_head (List.cons_ne_nil _ _) fun j hj ↦ ?_
    rw [get_delete_of_head (by rw [hj]; simp)]
  rw [hscan]
  exact hlt

end Writes

end Cosmwasgo.Runs
