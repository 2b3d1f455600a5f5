import Cosmwasgo.Lib.Reader
import Cosmwasgo.Types.Errors

namespace Cosmwasgo.Keeper.IOUtils

open Cosmwasgo.Lib Cosmwasgo.Types

variable {σ : Type}

def errLimit : Err := .text "exceeds limit"

/-- `LimitedReader.Read`; its state is that of the `io.LimitedReader` below. -/
def limitReader (r : Reader σ Err) : Reader (σ × Int) Err where
  read size l := if l.2 ≤ 0 then ⟨[], some (.other errLimit), l⟩ else r.limited.read size l
  read_le size l := by
    split
    · exact Nat.zero_le _
    · exact r.limited.read_le size l

/-- `compress/gzip`: the header is read first, then the content of the one member. -/
structure Gzip (σ : Type) where
  newReader : Bytes → Except Err σ
  reader : Reader σ Err

/-- The capacity `io.ReadAll` starts with. -/
def readAllCap : Nat := 512

def exceedsLimit (limit : Int) : Err := .wrap errLimit ("max " ++ toString limit ++ " bytes")

/-- `Uncompress`: the bytes and the error. It does not return within the given number of reads if the result is `none`. -/
def uncompress (z : Gzip σ) (grow : Nat → Nat) (fuel : Nat) (gzipSrc : Bytes) (limit : Int) :
    Option (Bytes × Option Err) :=
  if limit < gzipSrc.length then some ([], some (exceedsLimit limit))
  else
    match z.newReader gzipSrc with
    | .error err => some ([], some err)
    | .ok zr =>
      match (limitReader z.reader).readAll grow fuel readAllCap [] (zr, limit) with
      | none => none
      | some (bz, none) => some (bz, none)
      | some (bz, some err) => if err.is errLimit then some ([], some (exceedsLimit limit)) else some (bz, some err)

end Cosmwasgo.Keeper.IOUtils
