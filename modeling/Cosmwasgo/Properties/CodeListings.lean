import Cosmwasgo.Properties.Listings

namespace Cosmwasgo.Properties

open Cosmwasgo.Lib Cosmwasgo.Types Cosmwasgo.State Cosmwasgo.Keeper Cosmwasgo.Runs

variable {X : Type} {k : Keeper X} {d d' : Durable X}

section Registry

variable {n n' : Nat}

/-- The ids are numbers from one on, in the order of their keys. -/
def codeRow (i : Nat) : Bytes := uint64ToBigEndian (UInt64.ofNat (i + 1))

theorem CodeRegistry.mem_scan (h : CodeRegistry k n d) {x : Bytes} {v : Value} (hmem : (x, v) ∈ d.kv.scan codeKeyPrefix) :
    ∃ i < n, ∃ info, x = codeRow i ∧ v = .codeInfo info ∧
      d.kv.get (getCodeKey (UInt64.ofNat (i + 1))) = some (.codeInfo info) := by
  rw [OrderedStore.mem_scan] at hmem
  obtain ⟨i, h1, hle, hkey⟩ := (h.ids (codeKeyPrefix ++ x) rfl).1 (by rw [hmem]; rfl)
  rw [hkey] at hmem
  obtain ⟨info, rfl, -⟩ := h.infos hmem
  obtain ⟨j, rfl⟩ : ∃ j, i = j + 1 := ⟨i - 1, by omega⟩
  exact ⟨j, by omega, info, List.append_cancel_left hkey, rfl, hmem⟩

/-- The entry of a code, by its place in the row. -/
def codeEntry (r : Nat × CodeInfo) : Bytes × Value := (codeRow r.1, .codeInfo r.2)

def codeItem (r : Nat × CodeInfo) : CodeInfoResponse :=
  ⟨UInt64.ofNat (r.1 + 1), r.2.creator, r.2.codeHash, r.2.instantiateConfig⟩

theorem renders_listCode (r : Nat × CodeInfo) : Renders (X := X) listCode (codeEntry r) (codeItem r) := by
  have hlen : ¬ (codeRow r.1).length < 8 := by simp [codeRow]
  have hid : bigEndianToUint64 (codeRow r.1) = UInt64.ofNat (r.1 + 1) := bigEndianToUint64_uint64ToBigEndian _
  rw [Renders, codeEntry, listCode]
  dsimp only
  rw [if_neg hlen, hid]
  rfl

theorem CodeRegistry.allOfForm (h : CodeRegistry k n d) : AllOfForm codeEntry codeKeyPrefix d := by
  intro e he
  obtain ⟨x, v⟩ := e
  obtain ⟨i, -, info, rfl, rfl, -⟩ := h.mem_scan he
  exact ⟨(i, info), rfl⟩

theorem CodeRegistry.readable (h : CodeRegistry k n d) : Readable (X := X) listCode codeKeyPrefix d :=
  h.allOfForm.readable renders_listCode

end Registry

section Codes

end Codes

section Devnet

/-- A chain on which carol has uploaded a code this many times. -/
def carolUploadsTimes : Nat → Durable Unit
  | 0 => durable openWorld
  | n + 1 => delivered verbatimNet (carolUploadsTimes n) [storeCodeMsg carol]

theorem reachable_carolUploadsTimes (n : Nat) : Reachable verbatimNet (carolUploadsTimes n) := by
  induction n with
  | zero => exact .op (w := emptyWorld) (.empty ()) (.setParams (n := 0) (c := genesisCtx) ⟨allowEverybody, .everybody⟩)
  | succ n ih => exact ih.delivered _

end Devnet

section Download

variable {c : Ctx} {creator : AccAddress} {wasmCode checksum : Bytes} {access : Option AccessConfig}
  {policy : AuthorizationPolicy} {id : UInt64} {w w' : World X}

theorem committed_of_ok {α : Type} {m : M X α} {a : α} (h : m w = (.ok a, w')) : committed m w = durable w' := by
  unfold committed
  rw [h]

theorem CodeRegistry.id_ne_zero {n : Nat} (h : CodeRegistry k n d) {v : Value} (hget : d.kv.get (getCodeKey id) = some v) :
    id ≠ 0 := by
  obtain ⟨i, h1, hle, hkey⟩ := (h.ids (getCodeKey id) rfl).1 (by rw [hget]; rfl)
  have hfits := h.fits
  rintro rfl
  have heq : (0 : UInt64) = UInt64.ofNat i := uint64ToBigEndian_injective (List.append_cancel_left hkey)
  have hnat := congrArg UInt64.toNat heq
  rw [UInt64.toNat_ofNat_of_lt' (by simpa [UInt64.size] using (by omega : i < 2 ^ 64))] at hnat
  simp at hnat
  omega

/-- What `Code` answers about a code on record whose bytes the VM holds. -/
theorem unmetered_code {info : CodeInfo} {data : Bytes} (hid : id ≠ 0)
    (hinfo : d.kv.get (getCodeKey id) = some (.codeInfo info)) (hdata : d.vm.codes.get info.codeHash = some data) :
    Unmetered (GrpcQuerier.code k (some id)) d ⟨⟨id, info.creator, info.codeHash, info.instantiateConfig⟩, data⟩ d := by
  have hget : Unmetered (getCodeInfo k id) d (some info) d := by
    refine (Unmetered.getKV (by simp [getCodeKey, codeKeyPrefix]) d).bind ?_
    rw [hinfo]
    exact .pure _ d
  have hbytes : Unmetered (getByteCode k id) d data d := by
    refine (Unmetered.getKV (by simp [getCodeKey, codeKeyPrefix]) d).bind ?_
    rw [hinfo]
    refine (Unmetered.read (a := some data) ?_).bind (.pure _ d)
    rintro v rfl
    exact hdata
  have hqueryInfo : Unmetered (queryCodeInfo k id) d
      (some ⟨id, info.creator, info.codeHash, info.instantiateConfig⟩) d := by
    rw [queryCodeInfo, if_neg hid]
    exact hget.bind (.pure _ d)
  have hquery : Unmetered (queryCode k id) d
      (some ⟨⟨id, info.creator, info.codeHash, info.instantiateConfig⟩, data⟩) d :=
    hqueryInfo.bind ((hbytes.wrapErr _).bind (.pure _ d))
  simp only [GrpcQuerier.code, if_neg hid]
  exact hquery.bind (.pure _ d)

/-- What was uploaded can be downloaded for ever: the query for a code answers with the creator, with the checksum that
the upload returned, and with the bytes of the upload, unpacked. -/
theorem code_returns_upload (hk : DistinctChecksums k) (hw : Reachable k (durable w))
    (hcreate : create k c creator wasmCode access policy w = (.ok (id, checksum), w'))
    (hrun : KeeperRun k (durable w') d) :
    ∃ config data, Unpacks k wasmCode data ∧
      Unmetered (GrpcQuerier.code k (some id)) d ⟨⟨id, k.bech32.string creator, checksum, config⟩, data⟩ d := by
  have hreach : Reachable k (durable w') := by
    rw [← committed_of_ok hcreate]
    exact .op (n := 0) (c := c) hw (.keeper (.create creator wasmCode access policy))
  have hcreated := createdCode_of_create hcreate
  obtain ⟨config, hstored, -⟩ := hcreated.stored
  obtain ⟨data, hunpacks, -, hheld⟩ := hcreated.code
  have hkept := codesKept_run hk hreach hrun
  obtain ⟨info, hinfo, hhash, hcreator⟩ := hkept.infos hstored
  obtain ⟨n, hreg⟩ := codeRegistry_reachable hreach
  have hdata : d.vm.codes.get info.codeHash = some data := by
    rw [hhash]
    exact hkept.codes hheld
  have hanswer := unmetered_code (k := k) (hreg.id_ne_zero hstored) hinfo hdata
  rw [hhash, hcreator] at hanswer
  exact ⟨info.instantiateConfig, data, hunpacks, hanswer⟩

/-- Carol uploads a code, and another one is uploaded before somebody asks for the first. -/
theorem code_returns_upload_carol :
    let upload := create verbatimNet genesisCtx [1] wasmIdent none .default (worldOf (carolUploadsTimes 0))
    ∃ config data, Unpacks verbatimNet wasmIdent data ∧
      Unmetered (GrpcQuerier.code verbatimNet (some 1)) (delivered verbatimNet (durable upload.2) [storeCodeMsg carol])
        ⟨⟨1, plainBech32.string [1], wasmIdent, config⟩, data⟩
        (delivered verbatimNet (durable upload.2) [storeCodeMsg carol]) := by
  intro upload
  have hok : upload.1 = .ok (1, wasmIdent) := by decide +kernel
  exact code_returns_upload (fun _ _ h ↦ h) (reachable_carolUploadsTimes 0) (Program.apply_eq hok)
    (KeeperRun.start.delivered _)

end Download

end Cosmwasgo.Properties
