import Mathlib

/-!
# Keccak-256

The hash of the machine and of its tools: the permutation of 25 lanes in 24 rounds, and the
sponge that absorbs 136 bytes with each permutation and gives out the first 32. A lane is at the
column `x` of the row `y`; bytes enter a lane with the least significant one first. The padding
is the original one, a byte `0x01` and the last bit.
-/

namespace CryptoVaultHub.Keccak

abbrev Lane := BitVec 64

/-- The lanes, row by row. -/
abbrev Lanes := List (List Lane)

/-! ## The permutation -/

def rotations : List (List Nat) :=
  [[0, 1, 62, 28, 27], [36, 44, 6, 55, 20], [3, 10, 43, 25, 39], [41, 45, 15, 21, 8],
    [18, 2, 61, 56, 14]]

def roundConstants : List Lane :=
  [0x0000000000000001, 0x0000000000008082, 0x800000000000808a, 0x8000000080008000,
    0x000000000000808b, 0x0000000080000001, 0x8000000080008081, 0x8000000000008009,
    0x000000000000008a, 0x0000000000000088, 0x0000000080008009, 0x000000008000000a,
    0x000000008000808b, 0x800000000000008b, 0x8000000000008089, 0x8000000000008003,
    0x8000000000008002, 0x8000000000000080, 0x000000000000800a, 0x800000008000000a,
    0x8000000080008081, 0x8000000000008080, 0x0000000080000001, 0x8000000080008008]

def addRows (first second : List Lane) : List Lane := List.zipWith (· ^^^ ·) first second

def lane (lanes : Lanes) (x y : Nat) : Lane := (lanes.getD y []).getD x 0

/-- Each lane takes up the parities of the column before and of the column after, rotated. -/
def theta (lanes : Lanes) : Lanes :=
  let columns := lanes.foldl addRows (List.replicate 5 0)
  let after := (columns.rotateLeft 1).map fun column => column.rotateLeft 1
  lanes.map (addRows (addRows (columns.rotateRight 1) after))

def rho (lanes : Lanes) : Lanes := List.zipWith (List.zipWith BitVec.rotateLeft) lanes rotations

def pi (lanes : Lanes) : Lanes :=
  (List.range 5).map fun y => (List.range 5).map fun x => lane lanes ((x + 3 * y) % 5) x

def chi (lanes : Lanes) : Lanes :=
  lanes.map fun row =>
    addRows row (List.zipWith (fun next second => ~~~ next &&& second) (row.rotateLeft 1)
      (row.rotateLeft 2))

def iota (constant : Lane) (lanes : Lanes) : Lanes :=
  lanes.modifyHead fun row => row.modifyHead (· ^^^ constant)

def permute (lanes : Lanes) : Lanes :=
  roundConstants.foldl (fun lanes constant => iota constant (chi (pi (rho (theta lanes))))) lanes

/-! ## The sponge -/

/-- The bytes absorbed with one permutation. -/
def rate : Nat := 136

def readLane (data : List UInt8) : Lane :=
  BitVec.ofNat 64 (data.foldr (fun byte value => byte.toNat + 256 * value) 0)

def writeLane (lane : Lane) : List UInt8 :=
  (List.range 8).map fun index => UInt8.ofNat (lane.toNat / 256 ^ index)

/-- Bytes in pieces of a length. -/
def pieces {α : Type} (length : Nat) : Nat → List α → List (List α)
  | 0, _ => []
  | count + 1, data => data.take length :: pieces length count (data.drop length)

/-- The lanes of a block; those beyond the rate are zero. -/
def readBlock (block : List UInt8) : Lanes :=
  pieces 5 5 ((pieces 8 17 block).map readLane ++ List.replicate 8 0)

def absorbBlock (lanes : Lanes) (block : List UInt8) : Lanes :=
  permute (List.zipWith addRows lanes (readBlock block))

def pad (data : List UInt8) : List UInt8 :=
  let space := rate - data.length % rate
  if space = 1 then data ++ [0x81] else data ++ [0x01] ++ List.replicate (space - 2) 0 ++ [0x80]

@[irreducible] def keccak256 (data : List UInt8) : List UInt8 :=
  let padded := pad data
  let lanes := (pieces rate (padded.length / rate) padded).foldl absorbBlock
    (List.replicate 5 (List.replicate 5 0))
  ((lanes.getD 0 []).take 4).flatMap writeLane

/-- The first bytes of the hash of nothing. -/
example : (keccak256 []).take 4 = [0xc5, 0xd2, 0x46, 0x01] := by decide +kernel

end CryptoVaultHub.Keccak
