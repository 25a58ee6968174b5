/-!
# Digests

`Digest.hex` is the BLAKE3 hash of a text, in lower-case hexadecimal. The bytes are cut into chunks of
1024, each chunk into blocks of 64; every block is compressed with what came before it in its chunk, and
the chunks are the leaves of a binary tree whose left halves are full.
-/

namespace BlockPuzzle.Digest

/-- Eight words that stand for everything below a node of the tree. -/
abbrev Chaining := Vector UInt32 8

/-- The sixteen words of a block. -/
abbrev Block := Vector UInt32 16

/-- The starting words. -/
def initial : Chaining :=
  #v[0x6A09E667, 0xBB67AE85, 0x3C6EF372, 0xA54FF53A, 0x510E527F, 0x9B05688C, 0x1F83D9AB, 0x5BE0CD19]

/-- Flag of the first block of a chunk. -/
def chunkStart : UInt32 := 1

/-- Flag of the last block of a chunk. -/
def chunkEnd : UInt32 := 2

/-- Flag of a node above two others. -/
def parent : UInt32 := 4

/-- Flag of the top of the tree. -/
def root : UInt32 := 8

/-- Rotates a word to the right. -/
def rotate (word : UInt32) (bits : UInt32) : UInt32 :=
  (word >>> bits) ||| (word <<< (32 - bits))

/-- Mixes four words of the state, given by their places, with two words of the block. -/
def mix (state : Block) (a b c d : Fin 16) (x y : UInt32) : Block :=
  let va := state[a] + state[b] + x
  let vd := rotate (state[d] ^^^ va) 16
  let vc := state[c] + vd
  let vb := rotate (state[b] ^^^ vc) 12
  let va := va + vb + y
  let vd := rotate (vd ^^^ va) 8
  let vc := vc + vd
  let vb := rotate (vb ^^^ vc) 7
  (((state.set a va).set b vb).set c vc).set d vd

/-- One round: the columns of the state, then its diagonals. -/
def round (state m : Block) : Block :=
  let state := mix state 0 4 8 12 m[0] m[1]
  let state := mix state 1 5 9 13 m[2] m[3]
  let state := mix state 2 6 10 14 m[4] m[5]
  let state := mix state 3 7 11 15 m[6] m[7]
  let state := mix state 0 5 10 15 m[8] m[9]
  let state := mix state 1 6 11 12 m[10] m[11]
  let state := mix state 2 7 8 13 m[12] m[13]
  mix state 3 4 9 14 m[14] m[15]

/-- The order in which the next round takes the words of the block. -/
def permute (m : Block) : Block :=
  #v[m[2], m[6], m[3], m[10], m[7], m[0], m[4], m[13], m[1], m[11], m[12], m[5], m[9], m[14], m[15],
    m[8]]

/-- A number of rounds. -/
def rounds : Nat → Block → Block → Block
  | 0, state, _ => state
  | n + 1, state, m => rounds n (round state m) (permute m)

/-- A node of the tree before it is compressed. -/
structure Node where
  chaining : Chaining
  block : Block
  counter : UInt64
  length : UInt32
  flags : UInt32

namespace Node

/-- Compresses a node with further flags. -/
def compress (node : Node) (flags : UInt32) : Chaining :=
  let h := node.chaining
  let state : Block :=
    #v[h[0], h[1], h[2], h[3], h[4], h[5], h[6], h[7], initial[0], initial[1], initial[2], initial[3],
      node.counter.toUInt32, (node.counter >>> 32).toUInt32, node.length, node.flags ||| flags]
  let state := rounds 7 state node.block
  #v[state[0] ^^^ state[8], state[1] ^^^ state[9], state[2] ^^^ state[10], state[3] ^^^ state[11],
    state[4] ^^^ state[12], state[5] ^^^ state[13], state[6] ^^^ state[14], state[7] ^^^ state[15]]

/-- The node above two others. -/
def join (left right : Node) : Node :=
  let l := left.compress 0
  let r := right.compress 0
  ⟨initial, #v[l[0], l[1], l[2], l[3], l[4], l[5], l[6], l[7], r[0], r[1], r[2], r[3], r[4], r[5],
    r[6], r[7]], 0, 64, parent⟩

end Node

/-- The word in four bytes, lowest first; behind the end all bytes are zero. -/
def wordAt (bytes : Array UInt8) (i : Nat) : UInt32 :=
  let byte (k : Nat) : UInt32 := (bytes[i + k]?.getD 0).toUInt32
  byte 0 ||| (byte 1 <<< 8) ||| (byte 2 <<< 16) ||| (byte 3 <<< 24)

/-- The block whose bytes start at `i`. -/
def blockAt (bytes : Array UInt8) (i : Nat) : Block :=
  Vector.ofFn fun k : Fin 16 => wordAt bytes (i + 4 * k.val)

/-- The last node of a chunk. The blocks from byte `i` on, `size` bytes together, are still to come. -/
def chunkNode (bytes : Array UInt8) (index : UInt64) (h : Chaining) (flags : UInt32) (i size : Nat) :
    Node :=
  if size ≤ 64 then ⟨h, blockAt bytes i, index, UInt32.ofNat size, flags ||| chunkEnd⟩
  else
    let node : Node := ⟨h, blockAt bytes i, index, 64, flags⟩
    chunkNode bytes index (node.compress 0) 0 (i + 64) (size - 64)
termination_by size

/-- The largest power of two below `n`, for `n` above one. -/
def powerBelow (n : Nat) : Nat :=
  1 <<< (n - 1).log2

/-- A power of two is positive. -/
theorem powerBelow_pos (n : Nat) : 0 < powerBelow n := by
  rw [powerBelow, Nat.one_shiftLeft]
  exact Nat.two_pow_pos _

/-- The power is smaller than the number of chunks, so that both halves of a tree have some. -/
theorem powerBelow_lt {n : Nat} (h : 1 < n) : powerBelow n < n := by
  have hle : 2 ^ (n - 1).log2 ≤ n - 1 := Nat.log2_self_le (by omega)
  rw [powerBelow, Nat.one_shiftLeft]
  omega

/-- The top of the tree over `chunks` chunks from chunk `first` on; `size` is the number of bytes. -/
def treeNode (bytes : Array UInt8) (first chunks : Nat) : Node :=
  if _h : chunks ≤ 1 then
    chunkNode bytes (UInt64.ofNat first) initial chunkStart (1024 * first)
      (min 1024 (bytes.size - 1024 * first))
  else
    let left := powerBelow chunks
    (treeNode bytes first left).join (treeNode bytes (first + left) (chunks - left))
termination_by chunks
decreasing_by
  · exact powerBelow_lt (by omega)
  · have := powerBelow_pos chunks; omega

/-- A digit of a hexadecimal number. -/
def hexDigit (n : UInt32) : Char :=
  if n < 10 then Char.ofNat (48 + n.toNat) else Char.ofNat (87 + n.toNat)

/-- The digits of a byte. -/
def byteDigits (n : UInt32) : List Char :=
  [hexDigit ((n >>> 4) &&& 15), hexDigit (n &&& 15)]

/-- The digits of a word, lowest byte first. -/
def wordDigits (word : UInt32) : List Char :=
  byteDigits word ++ byteDigits (word >>> 8) ++ byteDigits (word >>> 16) ++ byteDigits (word >>> 24)

/-- The hash of some bytes. -/
def hash (bytes : Array UInt8) : Chaining :=
  (treeNode bytes 0 ((bytes.size + 1023) / 1024)).compress root

/-- The hash of a text in hexadecimal. -/
def hex (text : String) : String :=
  String.ofList ((hash text.toUTF8.data).toList.flatMap wordDigits)

end BlockPuzzle.Digest
