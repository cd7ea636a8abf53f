import TpmRelay.Bytes

set_option autoImplicit false

namespace TpmRelay

structure Parcel where
  bytes : Bytes
  weight : Nat
  deriving DecidableEq, Repr

namespace Parcel

def page : Nat := 4096

def headLimit : Nat := 3776

def limit : Nat := headLimit + 8 * page

def roundUp (unit n : Nat) : Nat :=
  (n + (unit - 1)) / unit * unit

def headWeight (length : Nat) : Nat :=
  let needed := roundUp 64 length + 320
  256 + (([640, 1024, 2048].find? (needed ≤ ·)).getD page)

def weigh (length : Nat) : Nat :=
  let paged := min length (roundUp page (length - headLimit))
  roundUp page paged + headWeight (length - paged)

def ofBytes (bytes : Bytes) : Parcel :=
  { bytes, weight := weigh bytes.length }

def totalWeight (parcels : List Parcel) : Nat :=
  parcels.foldl (fun total parcel => total + parcel.weight) 0

def take : Nat → List Parcel → Bytes × List Parcel
  | _, [] => ([], [])
  | count, parcel :: rest =>
    let bytes := parcel.bytes.take count
    let left := parcel.bytes.drop count
    if left = [] then
      let (more, rest) := take (count - bytes.length) rest
      (bytes ++ more, rest)
    else (bytes, { parcel with bytes := left } :: rest)

def contents (parcels : List Parcel) : Bytes :=
  parcels.flatMap (·.bytes)

end Parcel

end TpmRelay
