/-!
The 64 bit hash function of the xxHash family, on lists of bytes.
-/
namespace GpuPlacement.Hash64

def prime1 : UInt64 := 0x9E3779B185EBCA87

def prime2 : UInt64 := 0xC2B2AE3D27D4EB4F

def prime3 : UInt64 := 0x165667B19E3779F9

def prime4 : UInt64 := 0x85EBCA77C2B2AE63

def prime5 : UInt64 := 0x27D4EB2F165667C5

def rotateLeft (word : UInt64) (count : UInt64) : UInt64 :=
  (word <<< count) ||| (word >>> (64 - count))

/-- The number of some bytes, the lowest one first. -/
def littleEndian (bytes : List UInt8) : UInt64 :=
  bytes.foldr (fun byte word => (word <<< 8) ||| byte.toUInt64) 0

def round (lane input : UInt64) : UInt64 :=
  rotateLeft (lane + input * prime2) 31 * prime1

/-- The four lanes that long inputs are spread over. -/
structure Lanes where
  first : UInt64
  second : UInt64
  third : UInt64
  fourth : UInt64

def Lanes.start (seed : UInt64) : Lanes :=
  ⟨seed + prime1 + prime2, seed + prime2, seed, seed - prime1⟩

/-- Takes a stripe of 32 bytes, eight for each lane. -/
def Lanes.absorb (lanes : Lanes) (stripe : List UInt8) : Lanes where
  first := round lanes.first (littleEndian (stripe.take 8))
  second := round lanes.second (littleEndian ((stripe.drop 8).take 8))
  third := round lanes.third (littleEndian ((stripe.drop 16).take 8))
  fourth := round lanes.fourth (littleEndian ((stripe.drop 24).take 8))

def Lanes.absorbAll (lanes : Lanes) : Nat → List UInt8 → Lanes
  | 0, _ => lanes
  | stripes + 1, bytes => (lanes.absorb (bytes.take 32)).absorbAll stripes (bytes.drop 32)

def merge (hash lane : UInt64) : UInt64 :=
  (hash ^^^ round 0 lane) * prime1 + prime4

def Lanes.converge (lanes : Lanes) : UInt64 :=
  let hash := rotateLeft lanes.first 1 + rotateLeft lanes.second 7 + rotateLeft lanes.third 12
    + rotateLeft lanes.fourth 18
  merge (merge (merge (merge hash lanes.first) lanes.second) lanes.third) lanes.fourth

def absorbWords (hash : UInt64) : Nat → List UInt8 → UInt64
  | 0, _ => hash
  | words + 1, bytes =>
    absorbWords (rotateLeft (hash ^^^ round 0 (littleEndian (bytes.take 8))) 27 * prime1 + prime4)
      words (bytes.drop 8)

def absorbByte (hash : UInt64) (byte : UInt8) : UInt64 :=
  rotateLeft (hash ^^^ byte.toUInt64 * prime5) 11 * prime1

/-- The up to 31 bytes behind the last stripe: whole words, then a half word, then bytes. -/
def absorbTail (hash : UInt64) (bytes : List UInt8) : UInt64 :=
  let words := bytes.length / 8
  let hash := absorbWords hash words bytes
  let rest := bytes.drop (8 * words)
  if 4 ≤ rest.length then
    let hash := rotateLeft (hash ^^^ littleEndian (rest.take 4) * prime1) 23 * prime2 + prime3
    (rest.drop 4).foldl absorbByte hash
  else rest.foldl absorbByte hash

/-- Spreads every bit over the whole word. -/
def avalanche (hash : UInt64) : UInt64 :=
  let hash := (hash ^^^ (hash >>> 33)) * prime2
  let hash := (hash ^^^ (hash >>> 29)) * prime3
  hash ^^^ (hash >>> 32)

def hash (seed : UInt64) (bytes : List UInt8) : UInt64 :=
  let stripes := bytes.length / 32
  let start :=
    if stripes = 0 then seed + prime5
    else ((Lanes.start seed).absorbAll stripes bytes).converge
  avalanche (absorbTail (start + UInt64.ofNat bytes.length) (bytes.drop (32 * stripes)))

end GpuPlacement.Hash64
