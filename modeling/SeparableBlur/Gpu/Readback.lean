-- SUMMARY: Copying texture rows out of a buffer with padded rows.
import SeparableBlur.Geometry.Vec

/-!
# Readback

The device copies a texture into a buffer row by row, and each row of the buffer
starts at a multiple of `rowAlignment` bytes. `unpadRows` leaves out the bytes
between the rows.
-/

namespace SeparableBlur.Gpu.Readback

/-- Rows of the buffer start at multiples of this many bytes. -/
def rowAlignment : UInt32 := 256

/-- The bytes of a row of four-byte texels. -/
def rowBytes (size : Size) : UInt32 := size.width * 4

/-- The distance between rows of the buffer: the next multiple of the alignment. -/
def paddedRowBytes (size : Size) : UInt32 :=
  let row := rowBytes size
  if row % rowAlignment = 0 then row else row + (rowAlignment - row % rowAlignment)

/-- The length of the buffer. -/
def bufferBytes (size : Size) : UInt64 := (paddedRowBytes size).toUInt64 * size.height.toUInt64

/-- The first `row` bytes of each full stretch of `padded` bytes, one after the other. At
    `padded = 0`, where the buffer cannot be divided into rows, this is the empty image and not a
    failure. Rows have that distance only if they have no texels, or if the multiple of the
    alignment is too long for its word; no device has textures that wide. -/
def unpadRows (row padded : Nat) (buffer : ByteArray) : ByteArray :=
  (List.range (buffer.size / padded)).foldl
    (fun pixels y => pixels ++ buffer.extract (y * padded) (y * padded + row)) ByteArray.empty

/-- The pixels of a texture of this size that was copied into the buffer. -/
def pixels (size : Size) (buffer : ByteArray) : ByteArray :=
  unpadRows (rowBytes size).toNat (paddedRowBytes size).toNat buffer

end SeparableBlur.Gpu.Readback
