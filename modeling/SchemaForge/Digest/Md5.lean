import SchemaForge.Text.Quoted

/-
The MD5 digest: the message is padded to whole blocks of 64 bytes with its length in bits at the
end, and each block is mixed into four 32-bit words.
-/

namespace SchemaForge.Md5

structure Words where
  a : UInt32
  b : UInt32
  c : UInt32
  d : UInt32

def initial : Words := ⟨0x67452301, 0xefcdab89, 0x98badcfe, 0x10325476⟩

/-- Left rotations, four to a round. -/
def shifts : Array UInt32 := #[7, 12, 17, 22, 5, 9, 14, 20, 4, 11, 16, 23, 6, 10, 15, 21]

/-- Integer parts of 2^32 · |sin i| for i from 1 to 64. -/
def sines : Array UInt32 := #[
  0xd76aa478, 0xe8c7b756, 0x242070db, 0xc1bdceee, 0xf57c0faf, 0x4787c62a, 0xa8304613, 0xfd469501,
  0x698098d8, 0x8b44f7af, 0xffff5bb1, 0x895cd7be, 0x6b901122, 0xfd987193, 0xa679438e, 0x49b40821,
  0xf61e2562, 0xc040b340, 0x265e5a51, 0xe9b6c7aa, 0xd62f105d, 0x02441453, 0xd8a1e681, 0xe7d3fbc8,
  0x21e1cde6, 0xc33707d6, 0xf4d50d87, 0x455a14ed, 0xa9e3e905, 0xfcefa3f8, 0x676f02d9, 0x8d2a4c8a,
  0xfffa3942, 0x8771f681, 0x6d9d6122, 0xfde5380c, 0xa4beea44, 0x4bdecfa9, 0xf6bb4b60, 0xbebfbc70,
  0x289b7ec6, 0xeaa127fa, 0xd4ef3085, 0x04881d05, 0xd9d4d039, 0xe6db99e5, 0x1fa27cf8, 0xc4ac5665,
  0xf4292244, 0x432aff97, 0xab9423a7, 0xfc93a039, 0x655b59c3, 0x8f0ccc92, 0xffeff47d, 0x85845dd1,
  0x6fa87e4f, 0xfe2ce6e0, 0xa3014314, 0x4e0811a1, 0xf7537e82, 0xbd3af235, 0x2ad7d2bb, 0xeb86d391]

/-- The low `n` bytes of a number, least first. -/
def littleEndian : Nat → Nat → List UInt8
  | 0, _ => []
  | n + 1, x => UInt8.ofNat x :: littleEndian n (x / 256)

def padded (message : List UInt8) : List UInt8 :=
  let size := message.length
  message ++ 0x80 :: (List.replicate ((119 - size % 64) % 64) 0 ++ littleEndian 8 (size * 8))

/-- Groups of four bytes as words, least byte first. -/
def toWords : List UInt8 → List UInt32
  | a :: b :: c :: d :: rest =>
    (a.toUInt32 ||| (b.toUInt32 <<< 8) ||| (c.toUInt32 <<< 16) ||| (d.toUInt32 <<< 24)) :: toWords rest
  | _ => []

def rotateLeft (x n : UInt32) : UInt32 := (x <<< n) ||| (x >>> (32 - n))

/-- The mixing function of step `i`, and which word of the block it takes. -/
def mix (w : Words) (i : Nat) : UInt32 × Nat :=
  match i / 16 with
  | 0 => ((w.b &&& w.c) ||| (w.b.complement &&& w.d), i)
  | 1 => ((w.d &&& w.b) ||| (w.d.complement &&& w.c), (5 * i + 1) % 16)
  | 2 => (w.b ^^^ w.c ^^^ w.d, (3 * i + 5) % 16)
  | _ => (w.c ^^^ (w.b ||| w.d.complement), 7 * i % 16)

def step (block : Array UInt32) (w : Words) (i : Nat) : Words :=
  let (f, g) := mix w i
  let sum := w.a + f + sines.getD i 0 + block.getD g 0
  ⟨w.d, w.b + rotateLeft sum (shifts.getD (i / 16 * 4 + i % 4) 0), w.b, w.c⟩

def compress (w : Words) (block : Array UInt32) : Words :=
  let v := (List.range 64).foldl (step block) w
  ⟨w.a + v.a, w.b + v.b, w.c + v.c, w.d + v.d⟩

/-- All whole blocks of sixteen words, in order. -/
def compressAll : Nat → Words → List UInt32 → Words
  | 0, w, _ => w
  | blocks + 1, w, ws => compressAll blocks (compress w (ws.take 16).toArray) (ws.drop 16)

def digest (message : List UInt8) : List UInt8 :=
  let ws := toWords (padded message)
  let w := compressAll (ws.length / 16) initial ws
  [w.a, w.b, w.c, w.d].flatMap (fun x => littleEndian 4 x.toNat)

/-- The digest as 32 hexadecimal digits. -/
def hexDigest (message : List UInt8) : String :=
  String.ofList ((digest message).flatMap (fun b => Text.hexDigits 2 b.toNat))

end SchemaForge.Md5
