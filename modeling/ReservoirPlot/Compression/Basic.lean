/-
ReservoirPlot/Compression/Basic.lean

The ways in which a plot file may be compressed.  The name of a file tells which
one it is, and a compressed file is read through the reader of its format.
-/
import ReservoirPlot.Compression.Gzip
import ReservoirPlot.Compression.Lz4.Reader
import ReservoirPlot.Compression.Zstd.Reader
import ReservoirPlot.Files.Path

namespace ReservoirPlot

/-- The ways in which a file may be compressed. -/
inductive Compression
  | uncompressed
  | gzip
  | lz4
  | zstd
deriving DecidableEq, Repr

/-- The compression that the extension of a file name tells. -/
def Compression.ofPath (path : String) : Compression :=
  match Path.extension? path with
  | some "gz" => gzip
  | some "lz4" => lz4
  | some "zst" => zstd
  | _ => uncompressed

/-- A compressed file in the course of being read. -/
inductive Expansion
  | gzip (r : Gzip.Reader)
  | lz4 (r : Lz4.Reader)
  | zstd (r : Zstd.Reader)
deriving DecidableEq, Repr

namespace Expansion

/-- The expansion of compressed bytes, if they are compressed. -/
def of? (c : Compression) (intake : Intake) : Option Expansion :=
  match c with
  | .uncompressed => none
  | .gzip => some (gzip (.ofBytes intake.unread))
  | .lz4 => some (lz4 (.ofIntake intake))
  | .zstd => some (zstd (.ofIntake intake))

/-- Meets a demand for `n` bytes. -/
def deliver (n : Nat) : Expansion → Delivery Expansion
  | gzip r => (r.deliver n).map gzip
  | lz4 r => (r.deliver n).map lz4
  | zstd r => (r.deliver n).map zstd

end Expansion

end ReservoirPlot
