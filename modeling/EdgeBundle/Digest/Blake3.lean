/-!
# BLAKE3

The hash function that identifies a bundle. The input is cut into chunks of 1024 bytes, the chunks
into blocks of 64 bytes; each block is compressed into the chaining value of its chunk, and the
chaining values are joined by a binary tree whose left branches are as large as possible.
-/

namespace EdgeBundle.Blake3

/-- Eight words that carry the hash from one block to the next. -/
abbrev Chain := Vector UInt32 8

/-- The sixteen words of one block. -/
abbrev Block := Vector UInt32 16

/-- Initial chaining value. -/
def initial : Chain :=
  #v[0x6A09E667, 0xBB67AE85, 0x3C6EF372, 0xA54FF53A, 0x510E527F, 0x9B05688C, 0x1F83D9AB, 0x5BE0CD19]

/-- Order in which the words of a block enter the next round. -/
def schedule : Vector (Fin 16) 16 :=
  #v[2, 6, 3, 10, 7, 0, 4, 13, 1, 11, 12, 5, 9, 14, 15, 8]

/-- Marks the first block of a chunk. -/
def chunkStart : UInt32 := 1

/-- Marks the last block of a chunk. -/
def chunkEnd : UInt32 := 2

/-- Marks an inner node of the tree. -/
def parentNode : UInt32 := 4

/-- Marks the root of the tree. -/
def root : UInt32 := 8

/-- Rotates a word to the right. -/
def rotate (x n : UInt32) : UInt32 :=
  (x >>> n) ||| (x <<< (32 - n))

/-- Mixes two message words into four words of the state. -/
def mix (s : Block) (a b c d : Fin 16) (x y : UInt32) : Block :=
  let wa := s[a] + s[b] + x
  let wd := rotate (s[d] ^^^ wa) 16
  let wc := s[c] + wd
  let wb := rotate (s[b] ^^^ wc) 12
  let wa := wa + wb + y
  let wd := rotate (wd ^^^ wa) 8
  let wc := wc + wd
  let wb := rotate (wb ^^^ wc) 7
  (((s.set a.val wa a.isLt).set b.val wb b.isLt).set c.val wc c.isLt).set d.val wd d.isLt

/-- One round: the columns of the state, then its diagonals. -/
def round (s m : Block) : Block :=
  let s := mix s 0 4 8 12 m[0] m[1]
  let s := mix s 1 5 9 13 m[2] m[3]
  let s := mix s 2 6 10 14 m[4] m[5]
  let s := mix s 3 7 11 15 m[6] m[7]
  let s := mix s 0 5 10 15 m[8] m[9]
  let s := mix s 1 6 11 12 m[10] m[11]
  let s := mix s 2 7 8 13 m[12] m[13]
  mix s 3 4 9 14 m[14] m[15]

/-- Rounds that reorder the message between them. -/
def rounds : Nat → Block → Block → Block
  | 0, s, _ => s
  | n + 1, s, m => rounds n (round s m) (schedule.map fun i => m[i])

/-- A compression that is still to be done: one block with all that it depends on. -/
structure Node where
  /-- Chaining value that comes in. -/
  chain : Chain
  /-- Words of the block. -/
  block : Block
  /-- Number of the chunk. -/
  counter : UInt64
  /-- Number of bytes in the block. -/
  length : UInt32
  /-- Marks of the block. -/
  flags : UInt32

/-- Chaining value that a node gives. -/
def Node.compress (n : Node) : Chain :=
  let tail : Block :=
    #v[n.chain[0], n.chain[1], n.chain[2], n.chain[3], n.chain[4], n.chain[5], n.chain[6],
      n.chain[7], initial[0], initial[1], initial[2], initial[3], n.counter.toUInt32,
      (n.counter >>> 32).toUInt32, n.length, n.flags]
  let s := rounds 7 tail n.block
  #v[s[0] ^^^ s[8], s[1] ^^^ s[9], s[2] ^^^ s[10], s[3] ^^^ s[11], s[4] ^^^ s[12], s[5] ^^^ s[13],
    s[6] ^^^ s[14], s[7] ^^^ s[15]]

/-- Byte at a position of a slice, zero past its end. -/
def byteAt (bytes : ByteArray) (stop i : Nat) : UInt32 :=
  if i < stop then
    match bytes[i]? with
    | some b => b.toUInt32
    | none => 0
  else 0

/-- Words of the block that starts at byte `start`, filled up with zeros from byte `stop` on. -/
def blockAt (bytes : ByteArray) (start stop : Nat) : Block :=
  Vector.ofFn fun i =>
    let p := start + 4 * i.val
    byteAt bytes stop p ||| (byteAt bytes stop (p + 1) <<< 8)
      ||| (byteAt bytes stop (p + 2) <<< 16) ||| (byteAt bytes stop (p + 3) <<< 24)

/-- Last node of the chunk between two bytes. At most `fuel` blocks are left; the chunk has sixteen
at most. -/
def chunkFrom (bytes : ByteArray) (counter : UInt64) (stop : Nat) :
    (fuel : Nat) → (start : Nat) → Chain → UInt32 → Node
  | 0, start, chain, flags =>
    ⟨chain, blockAt bytes start stop, counter, (stop - start).toUInt32, flags ||| chunkEnd⟩
  | fuel + 1, start, chain, flags =>
    -- the last block stays open, since it may carry the mark of the root
    if start + 64 < stop then
      let node : Node := ⟨chain, blockAt bytes start (start + 64), counter, 64, flags⟩
      chunkFrom bytes counter stop fuel (start + 64) node.compress 0
    else
      ⟨chain, blockAt bytes start stop, counter, (stop - start).toUInt32, flags ||| chunkEnd⟩

/-- Last node of the chunk with the given number. -/
def chunkNode (bytes : ByteArray) (number : Nat) : Node :=
  let start := 1024 * number
  let stop := min (start + 1024) bytes.size
  chunkFrom bytes number.toUInt64 stop 15 start initial chunkStart

/-- Inner node above two chaining values. -/
def joinChains (l r : Chain) : Node :=
  ⟨initial,
    #v[l[0], l[1], l[2], l[3], l[4], l[5], l[6], l[7], r[0], r[1], r[2], r[3], r[4], r[5], r[6],
      r[7]], 0, 64, parentNode⟩

/-- Node above `count` chunks from the given number on. The left branch holds the largest power of
two of chunks that leaves some for the right one. -/
def tree (bytes : ByteArray) (first count : Nat) : Node :=
  if h : count ≤ 1 then chunkNode bytes first
  else
    let left := Nat.pow 2 (count - 1).log2
    have hleft : left ≤ count - 1 := Nat.log2_self_le (by omega)
    have hpos : 0 < left := Nat.two_pow_pos _
    joinChains (tree bytes first left).compress (tree bytes (first + left) (count - left)).compress
  termination_by count
  decreasing_by
    · exact Nat.lt_of_le_of_lt hleft (by omega)
    · exact Nat.sub_lt (by omega) hpos

/-- Number of chunks; an empty input has one. -/
def chunkCount (bytes : ByteArray) : Nat :=
  max 1 ((bytes.size + 1023) / 1024)

/-- Lower-case hexadecimal digits of the bytes of a word, the lowest byte first. -/
def wordText (w : UInt32) : List Char :=
  let digit (shift : UInt32) : Char := Nat.digitChar ((w >>> shift) &&& 0xF).toNat
  [digit 4, digit 0, digit 12, digit 8, digit 20, digit 16, digit 28, digit 24]

/-- Hash of the bytes in hexadecimal. -/
def hash (bytes : ByteArray) : String :=
  let top := tree bytes 0 (chunkCount bytes)
  let chain := { top with flags := top.flags ||| root }.compress
  String.ofList (chain.toList.flatMap wordText)

end EdgeBundle.Blake3

namespace EdgeBundle

/-- Digest of a text. -/
def digest (text : String) : String :=
  Blake3.hash text.toUTF8

end EdgeBundle
