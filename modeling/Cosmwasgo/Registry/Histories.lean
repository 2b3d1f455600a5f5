import Cosmwasgo.Registry.Preservation

namespace Cosmwasgo.Registry

open Cosmwasgo.Lib Cosmwasgo.Types Cosmwasgo.State Cosmwasgo.Keeper Cosmwasgo.Runs

variable {X : Type} {k : Keeper X}

section Store

variable {kv kv' : KVStore} {H : AccAddress → List ContractCodeHistoryEntry} {a : AccAddress}

theorem histories_nil (h : ∀ key : Bytes, key.head? = some 5 → kv.get key = none) : Histories kv fun _ ↦ [] := by
  refine ⟨fun _ ↦ by decide, fun x v ↦ ⟨fun hget ↦ ?_, ?_⟩⟩
  · rw [h _ rfl] at hget
    cases hget
  · rintro ⟨a, i, e, he, -⟩
    cases he

theorem histories_congr (h : Histories kv H)
    (hkv : ∀ key : Bytes, key.head? = some 5 → kv'.get key = kv.get key) : Histories kv' H :=
  ⟨h.fits, fun x v ↦ by rw [hkv _ rfl, h.get]⟩

/-- One more entry, under the position behind the last one. -/
theorem histories_snoc (h : Histories kv H) (e : ContractCodeHistoryEntry) (hfit : (H a).length + 1 < 2 ^ 64) :
    Histories (kv.set (getContractCodeHistoryElementKey a (UInt64.ofNat (H a).length + 1)) (.history e))
      (Function.update H a (H a ++ [e])) := by
  rw [historyKey_eq a hfit]
  constructor
  · intro a'
    by_cases ha : a' = a
    · subst ha
      rw [Function.update_self, List.length_append, List.length_singleton]
      exact hfit
    · rw [Function.update_of_ne ha]
      exact h.fits a'
  · intro x v
    rw [OrderedStore.get_set]
    have hkey : contractCodeHistoryElementPrefix ++ x =
        contractCodeHistoryElementPrefix ++ (a ++ bigEndian 8 ((H a).length + 1)) ↔
        x = a ++ bigEndian 8 ((H a).length + 1) := List.append_right_inj _
    by_cases hx : x = a ++ bigEndian 8 ((H a).length + 1)
    · rw [if_pos (hkey.2 hx)]
      constructor
      · intro hv
        refine ⟨a, (H a).length, e, ?_, hx, (Option.some.inj hv).symm⟩
        simp
      · rintro ⟨a', i, e', he', hx', rfl⟩
        -- the key has the address and the position of one entry only
        obtain ⟨rfl, hpos⟩ := List.append_inj' (hx'.symm.trans hx) (by simp)
        rw [Function.update_self] at he'
        have hi := (List.getElem?_eq_some_iff.1 he').1
        rw [List.length_append, List.length_singleton] at hi
        have := bigEndian_injective (w := 8) (by omega) (by omega) hpos
        obtain rfl : i = (H a').length := by omega
        simp only [List.getElem?_concat_length, Option.some.injEq] at he'
        rw [he']
    · rw [if_neg (mt hkey.1 hx), h.get]
      constructor
      · rintro ⟨a', i, e', he', rfl, rfl⟩
        refine ⟨a', i, e', ?_, rfl, rfl⟩
        by_cases ha : a' = a
        · subst ha
          rw [Function.update_self, List.getElem?_append_left (List.getElem?_eq_some_iff.1 he').1, he']
        · rw [Function.update_of_ne ha, he']
      · rintro ⟨a', i, e', he', rfl, rfl⟩
        refine ⟨a', i, e', ?_, rfl, rfl⟩
        by_cases ha : a' = a
        · subst ha
          rw [Function.update_self] at he'
          rcases Nat.lt_or_ge i (H a').length with hi | hi
          · rwa [List.getElem?_append_left hi] at he'
          · have hlt := (List.getElem?_eq_some_iff.1 he').1
            rw [List.length_append, List.length_singleton] at hlt
            obtain rfl : i = (H a').length := by omega
            exact absurd rfl hx
        · rwa [Function.update_of_ne ha] at he'

end Store

section Appends

variable {H : AccAddress → List ContractCodeHistoryEntry} {a : AccAddress} {es : List ContractCodeHistoryEntry}
  {w w' : World X}

theorem toNat_length (h : Histories w.store.kv H) (a : AccAddress) :
    (UInt64.ofNat (H a).length).toNat = (H a).length :=
  UInt64.toNat_ofNat_of_lt' (by simpa [UInt64.size] using h.fits a)

theorem length_succ (n : Nat) : UInt64.ofNat n + 1 = UInt64.ofNat (n + 1) := by
  rw [UInt64.ofNat_add]
  rfl

/-- The loop of `appendToContractHistory`: every entry goes behind the ones that are there. -/
theorem storeHistory_histories (hH : Histories w.store.kv H)
    (hrun : storeHistory k a (UInt64.ofNat (H a).length) es w = (.ok (), w')) :
    Histories w'.store.kv (Function.update H a (H a ++ es)) := by
  induction es generalizing w H with
  | nil =>
    cases hrun
    rwa [List.append_nil, Function.update_eq_self]
  | cons e es ih =>
    obtain ⟨pos, w₁, hpos, hrun⟩ := Program.bind_eq_ok.1 hrun
    obtain ⟨hlt, rfl, hd⟩ := (Writes.incUint64 _).post w pos w₁ hpos
    obtain ⟨⟨⟩, w₂, hset, hrun⟩ := Program.bind_eq_ok.1 hrun
    have hkv := (Writes.setKV k _ _).post w₁ () w₂ hset
    rw [toNat_length hH] at hlt
    have hstep := histories_snoc hH e hlt
    have hw₂ : w₂.store.kv = w.store.kv.set (getContractCodeHistoryElementKey a (UInt64.ofNat (H a).length + 1))
        (.history e) := by
      rw [hd] at hkv
      exact congrArg (·.store.kv) hkv
    rw [← hw₂] at hstep
    have hlen : UInt64.ofNat (H a).length + 1 = UInt64.ofNat ((Function.update H a (H a ++ [e])) a).length := by
      rw [Function.update_self, List.length_append, List.length_singleton, length_succ]
    rw [hlen] at hrun
    have h := ih hstep hrun
    rwa [Function.update_self, Function.update_idem, List.append_assoc] at h

theorem appendToContractHistory_histories (hH : Histories w.store.kv H)
    (hrun : appendToContractHistory k a es w = (.ok (), w')) :
    Histories w'.store.kv (Function.update H a (H a ++ es)) := by
  obtain ⟨found, w₁, hscan, hrun⟩ := Program.bind_eq_ok.1 hrun
  obtain ⟨rfl, hd⟩ := (Writes.iterateKV k _).post w found w₁ hscan
  have hw₁ : w₁.store = w.store := congrArg (·.store) hd
  rw [← hw₁] at hH
  refine storeHistory_histories (k := k) hH ?_
  rw [← hH.lastPosition_scan a, hw₁]
  exact hrun

end Appends

end Cosmwasgo.Registry
