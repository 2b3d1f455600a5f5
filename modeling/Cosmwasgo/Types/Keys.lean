import Cosmwasgo.Types.Data

namespace Cosmwasgo.Types

open Cosmwasgo.Lib

def codeKeyPrefix : Bytes := [0x01]
def contractKeyPrefix : Bytes := [0x02]
def contractStorePrefix : Bytes := [0x03]
def sequenceKeyPrefix : Bytes := [0x04]
def contractCodeHistoryElementPrefix : Bytes := [0x05]
def contractByCodeIDAndCreatedSecondaryIndexPrefix : Bytes := [0x06]
def pinnedCodeIndexPrefix : Bytes := [0x07]
def txCounterPrefix : Bytes := [0x08]
def contractsByCreatorPrefix : Bytes := [0x09]
def paramsKey : Bytes := [0x10]
def asyncAckKeyPrefix : Bytes := [0x11]

/-- `[]byte(s)`: the UTF-8 bytes. -/
def stringToBytes (s : String) : Bytes :=
  s.toList.flatMap fun c ↦ (String.utf8EncodeChar c).map fun b ↦ Fin.ofNat 256 b.toNat

def uint64ToBigEndian (n : UInt64) : Bytes := bigEndian 8 n.toNat

@[simp] theorem length_uint64ToBigEndian (n : UInt64) : (uint64ToBigEndian n).length = 8 := by
  simp [uint64ToBigEndian]

theorem uint64ToBigEndian_injective {m n : UInt64} (h : uint64ToBigEndian m = uint64ToBigEndian n) : m = n :=
  UInt64.toNat_inj.1 (bigEndian_injective m.toNat_lt n.toNat_lt h)

/-- `binary.BigEndian.Uint64`: the first eight bytes. -/
def bigEndianToUint64 (b : Bytes) : UInt64 := UInt64.ofNat (ofBigEndian (b.take 8))

@[simp] theorem bigEndianToUint64_uint64ToBigEndian (n : UInt64) : bigEndianToUint64 (uint64ToBigEndian n) = n := by
  have htake : (uint64ToBigEndian n).take 8 = uint64ToBigEndian n := List.take_of_length_le (by simp)
  rw [bigEndianToUint64, htake, uint64ToBigEndian, ofBigEndian_bigEndian_of_lt n.toNat_lt]
  exact UInt64.ofNat_toNat

def keySequenceCodeID : Bytes := sequenceKeyPrefix ++ stringToBytes "lastCodeId"
def keySequenceInstanceID : Bytes := sequenceKeyPrefix ++ stringToBytes "lastContractId"

def getCodeKey (codeID : UInt64) : Bytes := codeKeyPrefix ++ uint64ToBigEndian codeID

def getContractAddressKey (addr : AccAddress) : Bytes := contractKeyPrefix ++ addr

/-- `address.LengthPrefix`: an empty address gets no length byte, one over 255 bytes none fits. -/
def lengthPrefix (addr : AccAddress) : Option Bytes :=
  if addr = [] then some []
  else if addr.length ≤ 255 then some (Fin.ofNat 256 addr.length :: addr)
  else none

def getContractsByCreatorPrefix (addr : AccAddress) : Option Bytes :=
  (lengthPrefix addr).map (contractsByCreatorPrefix ++ ·)

def getContractStorePrefix (addr : AccAddress) : Bytes := contractStorePrefix ++ addr

def getAsyncPacketKey (destChannel : String) (sequence : UInt64) : Bytes :=
  bigEndian 4 (stringToBytes destChannel).length ++ stringToBytes destChannel ++ uint64ToBigEndian sequence

def getAsyncAckStorePrefix (portID : String) : Bytes := asyncAckKeyPrefix ++ stringToBytes portID

def getContractByCodeIDSecondaryIndexPrefix (codeID : UInt64) : Bytes :=
  contractByCodeIDAndCreatedSecondaryIndexPrefix ++ uint64ToBigEndian codeID

def getContractByCreatedSecondaryIndexKey (contractAddr : AccAddress) (codeID : UInt64)
    (updated : AbsoluteTxPosition) : Bytes :=
  getContractByCodeIDSecondaryIndexPrefix codeID ++ updated.bytes ++ contractAddr

def getContractByCreatorSecondaryIndexKey (creatorPrefix : Bytes) (position : AbsoluteTxPosition)
    (contractAddr : AccAddress) : Bytes :=
  creatorPrefix ++ position.bytes ++ contractAddr

def getContractCodeHistoryElementPrefix (contractAddr : AccAddress) : Bytes :=
  contractCodeHistoryElementPrefix ++ contractAddr

def getContractCodeHistoryElementKey (contractAddr : AccAddress) (pos : UInt64) : Bytes :=
  getContractCodeHistoryElementPrefix contractAddr ++ uint64ToBigEndian pos

def getPinnedCodeIndexPrefix (codeID : UInt64) : Bytes := pinnedCodeIndexPrefix ++ uint64ToBigEndian codeID

def absoluteTxPositionLen : Nat := 16

theorem utf8Encode_injective {l l' : List Char} (h : l.utf8Encode = l'.utf8Encode) : l = l' := by
  have hd := congrArg ByteArray.utf8Decode? h
  rw [List.utf8Decode?_utf8Encode, List.utf8Decode?_utf8Encode] at hd
  exact List.toArray_inj (Option.some.inj hd)

theorem stringToBytes_eq (s : String) :
    stringToBytes s = (s.toList.flatMap String.utf8EncodeChar).map fun b ↦ Fin.ofNat 256 b.toNat := by
  rw [stringToBytes, List.map_flatMap]

theorem stringToBytes_injective {s t : String} (h : stringToBytes s = stringToBytes t) : s = t := by
  rw [stringToBytes_eq, stringToBytes_eq] at h
  have hinj : Function.Injective fun b : UInt8 ↦ Fin.ofNat 256 b.toNat := by
    intro b b' hb
    have hv := congrArg Fin.val hb
    simp only [Fin.val_ofNat] at hv
    rw [Nat.mod_eq_of_lt b.toNat_lt, Nat.mod_eq_of_lt b'.toNat_lt] at hv
    exact UInt8.toNat_inj.1 hv
  have hl := List.map_injective_iff.2 hinj h
  exact String.toList_inj.1 (utf8Encode_injective (congrArg List.toByteArray hl))

theorem length_stringToBytes (s : String) : (stringToBytes s).length = s.utf8ByteSize := by
  rw [stringToBytes_eq, List.length_map, ← String.size_toByteArray, ← String.utf8Encode_toList, List.utf8Encode,
    List.size_toByteArray]
/-! The first byte of a key tells its family. -/

@[simp] theorem head?_getCodeKey (id : UInt64) : (getCodeKey id).head? = some 1 := rfl
@[simp] theorem head?_getContractAddressKey (a : AccAddress) : (getContractAddressKey a).head? = some 2 := rfl
@[simp] theorem head?_getContractStorePrefix (a : AccAddress) : (getContractStorePrefix a).head? = some 3 := rfl
@[simp] theorem head?_keySequenceCodeID : keySequenceCodeID.head? = some 4 := rfl
@[simp] theorem head?_keySequenceInstanceID : keySequenceInstanceID.head? = some 4 := rfl
@[simp] theorem head?_getContractCodeHistoryElementPrefix (a : AccAddress) :
    (getContractCodeHistoryElementPrefix a).head? = some 5 := rfl
@[simp] theorem head?_getContractCodeHistoryElementKey (a : AccAddress) (pos : UInt64) :
    (getContractCodeHistoryElementKey a pos).head? = some 5 := rfl
@[simp] theorem head?_getContractByCodeIDSecondaryIndexPrefix (id : UInt64) :
    (getContractByCodeIDSecondaryIndexPrefix id).head? = some 6 := rfl
@[simp] theorem head?_getContractByCreatedSecondaryIndexKey (a : AccAddress) (id : UInt64) (pos : AbsoluteTxPosition) :
    (getContractByCreatedSecondaryIndexKey a id pos).head? = some 6 := rfl
@[simp] theorem head?_getPinnedCodeIndexPrefix (id : UInt64) : (getPinnedCodeIndexPrefix id).head? = some 7 := rfl
@[simp] theorem head?_txCounterPrefix : txCounterPrefix.head? = some 8 := rfl
@[simp] theorem head?_paramsKey : paramsKey.head? = some 16 := rfl
@[simp] theorem head?_getAsyncAckStorePrefix (portID : String) : (getAsyncAckStorePrefix portID).head? = some 17 := rfl

theorem head?_creatorPrefix {a : AccAddress} {head : Bytes} (h : getContractsByCreatorPrefix a = some head) :
    head.head? = some 9 := by
  obtain ⟨b, -, rfl⟩ := Option.map_eq_some_iff.1 h
  rfl

theorem head?_getContractByCreatorSecondaryIndexKey {a : AccAddress} {head : Bytes}
    (h : getContractsByCreatorPrefix a = some head) (pos : AbsoluteTxPosition) (addr : AccAddress) :
    (getContractByCreatorSecondaryIndexKey head pos addr).head? = some 9 := by
  obtain ⟨b, -, rfl⟩ := Option.map_eq_some_iff.1 h
  rfl

theorem get_set_of_head {kv : KVStore} {key j : Bytes} (v : Value) (h : j.head? ≠ key.head?) :
    (kv.set key v).get j = kv.get j :=
  OrderedStore.get_set_of_ne kv v fun he ↦ h (by rw [he])

theorem get_delete_of_head {kv : KVStore} {key j : Bytes} (h : j.head? ≠ key.head?) :
    (kv.delete key).get j = kv.get j :=
  OrderedStore.get_delete_of_ne kv fun he ↦ h (by rw [he])

theorem head_ne {key key' : Bytes} (h : key.head? ≠ key'.head?) : key ≠ key' := by
  rintro rfl
  exact h rfl

/-- A family has no key with another first byte. -/
theorem append_ne_of_head {n : Byte} {key : Bytes} (h : key.head? ≠ some n) (x : Bytes) : [n] ++ x ≠ key := by
  rintro rfl
  exact h rfl

theorem scan_congr_of_head {kv kv' : KVStore} {p : Bytes} (hp : p ≠ [])
    (h : ∀ j, j.head? = p.head? → kv.get j = kv'.get j) : kv.scan p = kv'.scan p := by
  refine OrderedStore.scan_congr fun x ↦ h _ ?_
  cases p with
  | nil => exact absurd rfl hp
  | cons b p => rfl

end Cosmwasgo.Types
