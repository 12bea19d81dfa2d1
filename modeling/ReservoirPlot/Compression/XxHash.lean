/-
ReservoirPlot/Compression/XxHash.lean

The xxHash check values of 32 and of 64 bits, with seed zero.  Both take the
input in stripes of four words, each word into a register of its own, then join
the registers, add the size, take what is left of the input in smaller pieces,
and mix the bits at the end.
-/
import ReservoirPlot.Compression.Bytes

namespace ReservoirPlot

/-- A word rotated to the left. -/
def rotate32 (w : UInt32) (n : Nat) : UInt32 := w <<< UInt32.ofNat n ||| w >>> UInt32.ofNat (32 - n)

/-- A word rotated to the left. -/
def rotate64 (w : UInt64) (n : Nat) : UInt64 := w <<< UInt64.ofNat n ||| w >>> UInt64.ofNat (64 - n)

/-- Four registers. -/
structure Registers (Word : Type) where
  a : Word
  b : Word
  c : Word
  d : Word

/-- Takes stripes of `4 * width` bytes into the registers as long as there are any. -/
def Registers.absorb {Word : Type} (width : Nat) (word : List UInt8 → Word)
    (round : Word → Word → Word) :
    Nat → Registers Word → List UInt8 → Registers Word × List UInt8
  | 0, r, bytes => (r, bytes)
  | n + 1, r, bytes =>
    let lane (i : Nat) : Word := word ((bytes.drop (i * width)).take width)
    if (bytes.take (4 * width)).length = 4 * width then
      absorb width word round n ⟨round r.a (lane 0), round r.b (lane 1), round r.c (lane 2),
        round r.d (lane 3)⟩ (bytes.drop (4 * width))
    else (r, bytes)

namespace XxHash32

def prime1 : UInt32 := 2654435761
def prime2 : UInt32 := 2246822519
def prime3 : UInt32 := 3266489917
def prime4 : UInt32 := 668265263
def prime5 : UInt32 := 374761393

/-- The word made of four bytes. -/
def word (bytes : List UInt8) : UInt32 := UInt32.ofNat (littleEndian bytes)

/-- Takes a word into a register. -/
def round (register w : UInt32) : UInt32 :=
  rotate32 (register + w * prime2) 13 * prime1

/-- Takes what is left of the input, word by word and then byte by byte. -/
def tail (h : UInt32) : List UInt8 → UInt32
  | a :: b :: c :: d :: rest =>
    tail (rotate32 (h + word [a, b, c, d] * prime3) 17 * prime4) rest
  | bytes => bytes.foldl (fun h b => rotate32 (h + b.toUInt32 * prime5) 11 * prime1) h

/-- Mixes the bits. -/
def mix (h : UInt32) : UInt32 :=
  let h := (h ^^^ h >>> 15) * prime2
  let h := (h ^^^ h >>> 13) * prime3
  h ^^^ h >>> 16

/-- The check value of some bytes. -/
def ofBytes (bytes : List UInt8) : UInt32 :=
  let size := bytes.length
  let (r, rest) := Registers.absorb 4 word round (size / 16)
    ⟨prime1 + prime2, prime2, 0, 0 - prime1⟩ bytes
  let joined :=
    if 16 ≤ size then rotate32 r.a 1 + rotate32 r.b 7 + rotate32 r.c 12 + rotate32 r.d 18
    else prime5
  mix (tail (joined + UInt32.ofNat size) rest)

end XxHash32

namespace XxHash64

def prime1 : UInt64 := 11400714785074694791
def prime2 : UInt64 := 14029467366897019727
def prime3 : UInt64 := 1609587929392839161
def prime4 : UInt64 := 9650029242287828579
def prime5 : UInt64 := 2870177450012600261

/-- The word made of eight bytes, or of fewer. -/
def word (bytes : List UInt8) : UInt64 := UInt64.ofNat (littleEndian bytes)

/-- Takes a word into a register. -/
def round (register w : UInt64) : UInt64 :=
  rotate64 (register + w * prime2) 31 * prime1

/-- Takes a register into the joined value. -/
def merge (h register : UInt64) : UInt64 :=
  (h ^^^ round 0 register) * prime1 + prime4

/-- Takes what is left behind the last eight bytes, four bytes and then single ones. -/
def shortTail (h : UInt64) : List UInt8 → UInt64
  | a :: b :: c :: d :: rest =>
    shortTail (rotate64 (h ^^^ word [a, b, c, d] * prime1) 23 * prime2 + prime3) rest
  | bytes => bytes.foldl (fun h b => rotate64 (h ^^^ b.toUInt64 * prime5) 11 * prime1) h

/-- Takes what is left of the input. -/
def tail (h : UInt64) : List UInt8 → UInt64
  | a :: b :: c :: d :: e :: f :: g :: i :: rest =>
    tail (rotate64 (h ^^^ round 0 (word [a, b, c, d, e, f, g, i])) 27 * prime1 + prime4) rest
  | bytes => shortTail h bytes

/-- Mixes the bits. -/
def mix (h : UInt64) : UInt64 :=
  let h := (h ^^^ h >>> 33) * prime2
  let h := (h ^^^ h >>> 29) * prime3
  h ^^^ h >>> 32

/-- The check value of some bytes. -/
def ofBytes (bytes : List UInt8) : UInt64 :=
  let size := bytes.length
  let (r, rest) := Registers.absorb 8 word round (size / 32)
    ⟨prime1 + prime2, prime2, 0, 0 - prime1⟩ bytes
  let sum := rotate64 r.a 1 + rotate64 r.b 7 + rotate64 r.c 12 + rotate64 r.d 18
  let joined :=
    if 32 ≤ size then [r.a, r.b, r.c, r.d].foldl merge sum
    else prime5
  mix (tail (joined + UInt64.ofNat size) rest)

end XxHash64

end ReservoirPlot
