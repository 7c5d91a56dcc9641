/-
# PNG files

A file is a signature and a list of chunks, each with its length, its kind and
a checksum. The rows of the picture stand in a stream of stored blocks, each
row after a byte that names its filter, which is none.

Key definitions: `Png.checksum`, `Png.adler`, `Png.chunk`, `Png.stream`,
`Png.file`.
-/
import BenchLog.Picture.Canvas

namespace BenchLog.Png

/-- A number in four bytes, the highest first. -/
def word (n : UInt32) : List UInt8 :=
  [(n >>> 24).toUInt8, (n >>> 16).toUInt8, (n >>> 8).toUInt8, n.toUInt8]

/-- One of the eight steps in which a byte is worked into a checksum. -/
def checksumStep (c : UInt32) : UInt32 :=
  if c &&& 1 = 1 then (0xEDB88320 : UInt32) ^^^ (c >>> 1) else c >>> 1

/-- A byte worked into a checksum. -/
def checksumByte (c : UInt32) (b : UInt8) : UInt32 :=
  (List.range 8).foldl (fun c _ => checksumStep c) (c ^^^ b.toUInt32)

/-- The cyclic checksum of bytes. -/
def checksum (bytes : ByteArray) : UInt32 :=
  bytes.foldl checksumByte 0xFFFFFFFF ^^^ 0xFFFFFFFF

/-- The checksum of a stream: two sums modulo the greatest prime of sixteen bits. -/
def adler (bytes : ByteArray) : UInt32 :=
  let (a, b) := bytes.foldl
    (fun (a, b) x =>
      let a := (a + x.toUInt32) % 65521
      (a, (b + a) % 65521))
    ((1 : UInt32), (0 : UInt32))
  b <<< 16 ||| a

/-- The bytes of ASCII letters. -/
def letters (s : String) : ByteArray := s.toUTF8

/-- A chunk of a kind. -/
def chunk (kind : String) (data : ByteArray) : ByteArray :=
  let body := letters kind ++ data
  (word data.size.toUInt32).toByteArray ++ body ++ (word (checksum body)).toByteArray

/-- The most bytes that a stored block holds. -/
def blockSize : Nat := 65535

/-- A stored block: whether it is the last, its length twice, and its bytes. -/
def block (isLast : Bool) (data : ByteArray) : ByteArray :=
  let n := data.size.toUInt16
  let low (n : UInt16) : UInt8 := n.toUInt8
  let high (n : UInt16) : UInt8 := (n >>> 8).toUInt8
  [if isLast then 1 else 0, low n, high n, low (~~~n), high (~~~n)].toByteArray ++ data

/-- Bytes as a stream of stored blocks. -/
def stream (data : ByteArray) : ByteArray :=
  let count := (data.size + blockSize - 1) / blockSize
  let blocks := (List.range count).foldl
    (fun out i =>
      out ++ block (i + 1 = count) (data.extract (i * blockSize) ((i + 1) * blockSize)))
    [0x78, 0x01].toByteArray
  blocks ++ (word (adler data)).toByteArray

/-- The rows of a canvas, each after its filter. -/
def rows (c : Canvas) : ByteArray :=
  (List.range c.height).foldl
    (fun out y =>
      (c.pixels.extract (y * c.width) ((y + 1) * c.width)).foldl ByteArray.push (out.push 0))
    (ByteArray.emptyWithCapacity ((c.width + 1) * c.height))

/-- The file of a canvas with a palette of red, green and blue parts. -/
def file (c : Canvas) (palette : List (UInt8 × UInt8 × UInt8)) : ByteArray :=
  let header := word c.width.toUInt32 ++ word c.height.toUInt32 ++ [8, 3, 0, 0, 0]
  let colors := palette.flatMap fun (r, g, b) => [r, g, b]
  [0x89, 0x50, 0x4E, 0x47, 0x0D, 0x0A, 0x1A, 0x0A].toByteArray ++ chunk "IHDR" header.toByteArray ++
    chunk "PLTE" colors.toByteArray ++ chunk "IDAT" (stream (rows c)) ++ chunk "IEND" .empty

end BenchLog.Png
