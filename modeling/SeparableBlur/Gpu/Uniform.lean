-- SUMMARY: The bytes that the programs on the device read.
import SeparableBlur.Scalar.Binary
import SeparableBlur.Subpass

/-!
# Device bytes

The device is sent words of 32 bits, least significant byte first. A block of
uniforms is filled up with zeros to a multiple of four words.

The words of a block are the encodings of its numbers. Values that are not
numbers have many encodings, which count as one value in computations, but what
is sent is the encoding that was given: the layouts are of words, and
`Binary32.word` encodes the numbers of a computation.
-/

namespace SeparableBlur

/-! ## Words -/

/-- The encoding of a number as a word. -/
def Binary32.word (x : Binary32) : UInt32 := .ofNat x.toBits

/-- The four bytes of a word. -/
def wordBytes (w : UInt32) : List UInt8 :=
  [w.toUInt8, (w >>> 8).toUInt8, (w >>> 16).toUInt8, (w >>> 24).toUInt8]

/-- The bytes of some words, one after the other. -/
def blockBytes (words : List UInt32) : List UInt8 := words.flatMap wordBytes

/-! ## Layouts -/

def Frame.bytes (f : Frame UInt32) : List UInt8 :=
  blockBytes (f.projection.toList ++ [f.textureYScale, f.opacity, 0, 0])

def AxisKernel.bytes (k : AxisKernel UInt32) : List UInt8 :=
  blockBytes (k.uvOffset.toList ++ [k.sigma, k.radius, k.step, 0, 0, 0])

def Vertex.bytes (v : Vertex UInt32) : List UInt8 :=
  blockBytes (v.position.toList ++ v.textureCoords.toList)

end SeparableBlur
