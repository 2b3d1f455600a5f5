import Cosmwasgo.Properties.Listings

namespace Cosmwasgo.Properties

open Cosmwasgo.Lib Cosmwasgo.Types Cosmwasgo.State Cosmwasgo.Keeper Cosmwasgo.Runs Cosmwasgo.Registry

variable {X : Type} {k : Keeper X}

section Kept

variable {d d₁ d₂ : Durable X}

/-- A contract that is registered stays so, with its creator and the position it was created at. -/
def CreatorsKept (d d' : Durable X) : Prop :=
  ∀ a info, d.kv.get (getContractAddressKey a) = some (.contractInfo info) →
    ∃ info', d'.kv.get (getContractAddressKey a) = some (.contractInfo info') ∧ info'.creator = info.creator ∧
      info'.created = info.created

theorem CreatorsKept.of_get (h : ∀ a, d₁.kv.get (getContractAddressKey a) = d.kv.get (getContractAddressKey a)) :
    CreatorsKept d d₁ := fun a info hinfo ↦ ⟨info, (h a).trans hinfo, rfl, rfl⟩

theorem CreatorsKept.trans (h : CreatorsKept d d₁) (h' : CreatorsKept d₁ d₂) : CreatorsKept d d₂ := by
  intro a info hinfo
  obtain ⟨info₁, hinfo₁, hcreator₁, hcreated₁⟩ := h a info hinfo
  obtain ⟨info₂, hinfo₂, hcreator₂, hcreated₂⟩ := h' a info₁ hinfo₁
  exact ⟨info₂, hinfo₂, hcreator₂.trans hcreator₁, hcreated₂.trans hcreated₁⟩

/-- One info is written anew, with the creator and the creation it had. -/
theorem CreatorsKept.of_rewrite {addr : AccAddress} {info info' : ContractInfo}
    (hinfo : d.kv.get (getContractAddressKey addr) = some (.contractInfo info))
    (hnew : d₁.kv.get (getContractAddressKey addr) = some (.contractInfo info'))
    (hother : ∀ a, a ≠ addr → d₁.kv.get (getContractAddressKey a) = d.kv.get (getContractAddressKey a))
    (hcreator : info'.creator = info.creator) (hcreated : info'.created = info.created) : CreatorsKept d d₁ := by
  intro a old hold
  by_cases ha : a = addr
  · subst ha
    cases hinfo.symm.trans hold
    exact ⟨info', hnew, hcreator, hcreated⟩
  · exact ⟨old, (hother a ha).trans hold, rfl, rfl⟩

theorem get_set_info_of_ne {kv : KVStore} {a addr : AccAddress} (v : Value) (ha : a ≠ addr) :
    (kv.set (getContractAddressKey addr) v).get (getContractAddressKey a) = kv.get (getContractAddressKey a) :=
  OrderedStore.get_set_of_ne _ _ fun h ↦ ha (getContractAddressKey_inj h)

theorem CreatorsKept.of_act {c : Ctx} (h : Act k Anybody c d d₁) : CreatorsKept d d₁ := by
  cases h with
  | cacheCode _ => exact .of_get fun _ ↦ rfl
  | cachePins _ => exact .of_get fun _ ↦ rfl
  | createCode _ _ _ =>
    refine .of_get fun a ↦ ?_
    rw [Durable.kv_withKV, get_set_of_head _ (by simp), get_set_of_head _ (by simp)]
  | @register creator addr head initMsg info pos policy code _ hnew _ _ _ _ _ hhead =>
    intro a old hold
    have ha : a ≠ addr := by
      rintro rfl
      cases hnew.symm.trans hold
    exact ⟨old, (get_registered_info hhead ha).trans hold, rfl, rfl⟩
  | migrate info port hp hinfo =>
    exact .of_rewrite hinfo (OrderedStore.get_set_self _ _ _) (fun a ha ↦ get_migrated_info ha) rfl rfl
  | modify hp hinfo hadmin hmodify hkind =>
    cases hkind with
    | admin _ _ =>
      exact .of_rewrite hinfo (OrderedStore.get_set_self _ _ _) (fun a ha ↦ get_set_info_of_ne _ ha) rfl rfl
    | label _ _ =>
      exact .of_rewrite hinfo (OrderedStore.get_set_self _ _ _) (fun a ha ↦ get_set_info_of_ne _ ha) rfl rfl
  | extend ext hp hinfo =>
    exact .of_rewrite hinfo (OrderedStore.get_set_self _ _ _) (fun a ha ↦ get_set_info_of_ne _ ha) rfl rfl
  | unpin _ => exact .of_get fun a ↦ get_delete_of_head (by simp)
  | acknowledge _ => exact .of_get fun a ↦ get_delete_of_head (by simp)
  | _ => exact .of_get fun a ↦ get_set_of_head _ (by simp)

theorem CreatorsKept.of_run (h : KeeperRun k d d₁) : CreatorsKept d d₁ := by
  refine h.invariant (P := fun e ↦ CreatorsKept d e) (.of_get fun _ ↦ rfl) ?_
  intro c e e' hstep hkept
  refine hkept.trans ?_
  cases hstep with
  | act _ hact => exact .of_act hact
  | quiet _ hq => exact .of_get fun a ↦ hq.records _ (not_isStateKey (by simp))

end Kept

section Index

/-- The part of an index below the prefix has an entry for each contract and position of the relation. -/
def Rows (kv : KVStore) (head : Bytes) (P : AccAddress → AbsoluteTxPosition → Prop) : Prop :=
  ∀ x v, (x, v) ∈ kv.scan head ↔ ∃ a pos, P a pos ∧ x = pos.bytes ++ a ∧ v = .bytes []

/-- The entry of a contract in an index. -/
def indexEntry (r : AbsoluteTxPosition × AccAddress) : Bytes × Value := (r.1.bytes ++ r.2, .bytes [])

theorem renders_listAddress (r : AbsoluteTxPosition × AccAddress) :
    Renders (listAddress k) (indexEntry r) (k.bech32.string r.2) := by
  have hlen : ¬ (r.1.bytes ++ r.2).length < absoluteTxPositionLen := by simp [absoluteTxPositionLen]
  have hdrop : (r.1.bytes ++ r.2).drop absoluteTxPositionLen = r.2 := List.drop_left' (by simp [absoluteTxPositionLen])
  rw [Renders, indexEntry, listAddress, if_neg hlen, hdrop]

variable {head : Bytes}

theorem Rows.mem_scan {kv : KVStore} {P : AccAddress → AbsoluteTxPosition → Prop} (h : Rows kv head P)
    (r : AbsoluteTxPosition × AccAddress) : indexEntry r ∈ kv.scan head ↔ P r.2 r.1 := by
  rw [indexEntry, h]
  constructor
  · rintro ⟨a, pos, hP, hx, -⟩
    obtain ⟨hpos, rfl⟩ := List.append_inj hx (by simp)
    rwa [bytes_injective hpos]
  · intro hP
    exact ⟨r.2, r.1, hP, rfl, rfl⟩

theorem Rows.allOfForm {d : Durable X} {P : AccAddress → AbsoluteTxPosition → Prop} (h : Rows d.kv head P) :
    AllOfForm indexEntry head d := by
  intro e he
  obtain ⟨x, v⟩ := e
  obtain ⟨a, pos, -, rfl, rfl⟩ := (h x v).1 he
  exact ⟨(pos, a), rfl⟩

theorem Rows.readable {d : Durable X} {P : AccAddress → AbsoluteTxPosition → Prop} (h : Rows d.kv head P) :
    Readable (listAddress k) head d := h.allOfForm.readable renders_listAddress

variable {P : Durable X → AccAddress → AbsoluteTxPosition → Prop} {ds : List (Durable X)}

end Index

/-- The contract was created by this creator at this position. -/
def EnteredBy (k : Keeper X) (creator : AccAddress) (d : Durable X) (a : AccAddress) (pos : AbsoluteTxPosition) : Prop :=
  StoredWith d.kv (fun info ↦ k.bech32.fromBech32 info.creator = .ok creator ∧ info.created = some pos) a

section Rows

variable {d : Durable X}

end Rows

section ByCreator

variable {address : String} {creator : AccAddress} {d d' : Durable X}

theorem EnteredBy.unique {a : AccAddress} {pos pos' : AbsoluteTxPosition} (h : EnteredBy k creator d a pos)
    (h' : EnteredBy k creator d a pos') : pos = pos' := by
  obtain ⟨info, hinfo, -, hcreated⟩ := h
  obtain ⟨info', hinfo', -, hcreated'⟩ := h'
  cases hinfo.symm.trans hinfo'
  exact Option.some.inj (hcreated.symm.trans hcreated')

end ByCreator

section Devnet

abbrev listnet : Keeper Unit := plainnet idleContract

/-- A chain on which carol has uploaded a code and created as many contracts. -/
def carolCreates : Nat → Durable Unit
  | 0 => delivered listnet (durable openWorld) [storeCodeMsg carol]
  | n + 1 => delivered listnet (carolCreates n) [instantiateMsg carol]

def carolsContract (n : UInt64) : AccAddress := padHash (uint64ToBigEndian 1 ++ uint64ToBigEndian n)

theorem reachable_carolCreates (n : Nat) : Reachable listnet (carolCreates n) := by
  induction n with
  | zero =>
    have hopen : Reachable listnet (durable openWorld) :=
      .op (w := emptyWorld) (.empty ()) (.setParams (n := 0) (c := genesisCtx) ⟨allowEverybody, .everybody⟩)
    exact hopen.delivered _
  | succ n ih => exact ih.delivered _

theorem run_carolCreates (n : Nat) : KeeperRun listnet (carolCreates n) (carolCreates (n + 1)) := KeeperRun.start.delivered _

end Devnet

section ByCode

variable {codeID : UInt64} {d d' : Durable X}

end ByCode

end Cosmwasgo.Properties
