import TetraOS.Drivers.Ext2

/-! What `read_file` delivers, compared with the blocks of the file on the disk. -/

namespace TetraOS.Drivers.Ext2

open Library

variable {σ β : Type}

section Blocks

variable (D : BlockDevice σ β) (disk : ℕ → β) (blockSize : ℕ) (inode : Buffer β)

def indirect (block i : ℕ) : ℕ := D.uint 4 disk (blockSize * block + 4 * i)

/-- The number of block `k` of the file, found through the indirect, the doubly and the triply indirect block
from the thirteenth on. -/
def blockNumber (k : ℕ) : ℕ :=
  let n := blockSize / 4
  let entry := indirect D disk blockSize
  if k < 12 then iBlock D inode k
  else if k < 12 + n then entry (iBlock D inode 12) (k - 12)
  else if k < 12 + n + n ^ 2 then
    entry (entry (iBlock D inode 13) ((k - 12 - n) / n)) ((k - 12 - n) % n)
  else
    let i := k - 12 - n - n ^ 2
    entry (entry (entry (iBlock D inode 14) (i / n ^ 2)) (i / n % n)) (i % n)

def filePosition (j : ℕ) : ℕ := blockSize * blockNumber D disk blockSize inode (j / blockSize) + j % blockSize

/-- The first `size` bytes lie in blocks that follow each other on the disk, and the first of them starts below
4 GiB. -/
def Consecutive (size : ℕ) : Prop := ∀ k, blockSize * k < size →
  blockSize * iBlock D inode 0 < 2 ^ 32 ∧ blockNumber D disk blockSize inode k = iBlock D inode 0 + k

end Blocks

section Content

variable {D : BlockDevice σ β} {disk : ℕ → β} {fs : EXT2 β} {inode : Buffer β} {size : ℕ}

lemma filePosition_eq (h : Consecutive D disk fs.blockSize inode size) {j : ℕ} (hj : j < size) :
    filePosition D disk fs.blockSize inode j = fs.blockOffset (iBlock D inode 0) + j := by
  have hdiv := Nat.div_add_mod j fs.blockSize
  obtain ⟨hlow, hk⟩ := h (j / fs.blockSize) (by omega)
  rw [filePosition, hk, EXT2.blockOffset, Nat.mod_eq_of_lt hlow, Nat.mul_add]
  omega

lemma consecutive_of_positions (hpos : 0 < fs.blockSize) (h : ∀ j < size,
    fs.blockOffset (iBlock D inode 0) + j = filePosition D disk fs.blockSize inode j) :
    Consecutive D disk fs.blockSize inode size := by
  have hstart : 0 < size → fs.blockSize * iBlock D inode 0 < 2 ^ 32 := by
    intro hsize
    have h0 := h 0 hsize
    rw [filePosition, Nat.zero_div, Nat.zero_mod, blockNumber, if_pos (by decide), EXT2.blockOffset] at h0
    have := Nat.mod_lt (fs.blockSize * iBlock D inode 0) (show 0 < 2 ^ 32 by decide)
    omega
  intro k hk
  have hlow := hstart (by omega)
  refine ⟨hlow, ?_⟩
  have hj := h _ hk
  rw [filePosition, Nat.mul_div_cancel_left k hpos, Nat.mul_mod_right, EXT2.blockOffset, Nat.mod_eq_of_lt hlow,
    ← Nat.mul_add] at hj
  exact (Nat.eq_of_mul_eq_mul_left hpos hj).symm

end Content

def Delivers (D : BlockDevice σ β) (disk : ℕ → β) (fs : EXT2 β) (s : σ) (path : List UInt8) (inode : Buffer β)
    (size : ℕ) (data : Buffer β) : Prop :=
  ∃ data' s', readFile D fs s path size data = some (0, data', s') ∧
    ∀ j < size, data' j = disk (filePosition D disk fs.blockSize inode j)

section Delivers

variable {D : BlockDevice σ β} {disk : ℕ → β} {fs : EXT2 β} {s s₁ : σ} {path : List UInt8} {inode : Buffer β}

lemma delivers_iff (hserves : Serves D disk) (hinode : lookup D fs s path = some (0, inode, s₁)) (size : ℕ)
    (data : Buffer β) : Delivers D disk fs s path inode size data ↔ ∀ j < size,
      disk (fs.blockOffset (iBlock D inode 0) + j) = disk (filePosition D disk fs.blockSize inode j) := by
  obtain ⟨s', hread⟩ := readFile_eq hserves hinode size data
  constructor
  · rintro ⟨data', s'', hread', hdata⟩ j hj
    rw [hread, Option.some_inj, Prod.mk.injEq, Prod.mk.injEq] at hread'
    rw [← hdata j hj, ← hread'.2.1]
    exact (if_pos hj).symm
  · intro h
    refine ⟨_, s', hread, fun j hj => ?_⟩
    rw [if_pos hj, h j hj]

lemma delivers_of_consecutive (hserves : Serves D disk) (hinode : lookup D fs s path = some (0, inode, s₁))
    {size : ℕ} (data : Buffer β) (h : Consecutive D disk fs.blockSize inode size) :
    Delivers D disk fs s path inode size data := by
  rw [delivers_iff hserves hinode]
  intro j hj
  rw [filePosition_eq h hj]

end Delivers

/-- Bytes that know the place on the disk they come from. -/
abbrev Located := UInt8 × ℕ

def located (image : ℕ → UInt8) (position : ℕ) : Located := (image position, position)

structure ServesImage (D : BlockDevice σ Located) (image : ℕ → UInt8) : Prop where
  val : ∀ b, D.val b = b.1
  serves : Serves D (located image)

/-- For every path that resolves to an inode, that is, for which `get_inode_from_dir` answers 0 and leaves the record of
the inode: each of the first `size` bytes delivered is the one at its place in the file if and only if the blocks that
hold them follow each other. -/
theorem readFile_iff_consecutive (image : ℕ → UInt8) (D : BlockDevice σ Located) (hD : ServesImage D image)
    (fs : EXT2 Located) (hpos : 0 < fs.blockSize) (s s₁ : σ) (path : List UInt8) (inode : Buffer Located)
    (hinode : lookup D fs s path = some (0, inode, s₁)) (size : ℕ) (data : Buffer Located) :
    Delivers D (located image) fs s path inode size data ↔
      Consecutive D (located image) fs.blockSize inode size := by
  constructor
  · intro h
    apply consecutive_of_positions hpos
    intro j hj
    exact congrArg Prod.snd ((delivers_iff hD.serves hinode size data).mp h j hj)
  · exact delivers_of_consecutive hD.serves hinode data

/-- An image of sixteen blocks of 4 KiB: the inode table in block 2, the root directory in block 3, and the file
`f` (inode 12) of two blocks, the first of which is block 5. -/
def twoBlockImage (secondBlock : ℕ) : ℕ → UInt8 :=
  let words := [
    -- the super block
    (1024, 4, 16), (1028, 4, 16), (1048, 4, 2), (1056, 4, 16), (1064, 4, 16), (1080, 2, 0xEF53), (1100, 4, 1),
    (1108, 4, 11), (1112, 2, 256),
    -- the group descriptor
    (4096, 4, 8), (4100, 4, 9), (4104, 4, 2),
    -- the inodes of the root directory and of the file
    (8448, 2, 0x41ED), (8452, 4, 4096), (8488, 4, 3), (11008, 2, 0x81A4), (11012, 4, 8192), (11048, 4, 5),
    (11052, 4, secondBlock),
    -- the entries `.`, `..` and `f`
    (12288, 4, 2), (12292, 2, 12), (12294, 1, 1), (12295, 1, 2), (12296, 1, 46),
    (12300, 4, 2), (12304, 2, 12), (12306, 1, 2), (12307, 1, 2), (12308, 2, 0x2E2E),
    (12312, 4, 12), (12316, 2, 4072), (12318, 1, 1), (12319, 1, 1), (12320, 1, 102)]
  words.foldr (fun w m => ByteMemory.store m w.2.1 w.1 w.2.2) (fun _ => 0)

def twoBlockDevice (secondBlock : ℕ) : BlockDevice Unit Located :=
  faithful Prod.fst (0, 0) (located (twoBlockImage secondBlock))

def twoBlockSystem (secondBlock : ℕ) : EXT2 Located where
  superBlock := ((twoBlockDevice secondBlock).read () 1024 92 (twoBlockDevice secondBlock).new).2.1
  blockSize := 4096
  groupDescs := [((twoBlockDevice secondBlock).read () 4096 32 (twoBlockDevice secondBlock).new).2.1]

def twoBlockInode (secondBlock : ℕ) : Buffer Located :=
  let root := ((twoBlockDevice secondBlock).read () 8448 256 (twoBlockDevice secondBlock).new).2.1
  ((twoBlockDevice secondBlock).read () 11008 256 root).2.1

def twoBlockRoot : Buffer Located := ((twoBlockDevice 6).read () 8448 256 (twoBlockDevice 6).new).2.1

lemma twoBlockDevice_serves (secondBlock : ℕ) : ServesImage (twoBlockDevice secondBlock) (twoBlockImage secondBlock) :=
  ⟨fun _ => rfl, faithful_serves _ _ _⟩

theorem readFile_consecutive_blocks : mount (twoBlockDevice 6) () = some (twoBlockSystem 6, ()) ∧
    iSize (twoBlockDevice 6) (twoBlockInode 6) = 8192 ∧ Delivers (twoBlockDevice 6) (located (twoBlockImage 6))
      (twoBlockSystem 6) () [47, 102] (twoBlockInode 6) 8192 fun _ => (0, 0) := by
  refine ⟨by rfl, by decide, ?_⟩
  refine (readFile_iff_consecutive _ _ (twoBlockDevice_serves 6) _ (by decide) () () _ _ (by rfl)
    8192 _).mpr ?_
  intro k hk
  refine ⟨by decide, ?_⟩
  have hk' : k = 0 ∨ k = 1 := by
    change 4096 * k < 8192 at hk
    omega
  rcases hk' with rfl | rfl <;> decide

/-- Block 7 after block 5: the second half comes from block 6, which is not of the file. -/
theorem readFile_fragmented_file : mount (twoBlockDevice 7) () = some (twoBlockSystem 7, ()) ∧
    lookup (twoBlockDevice 7) (twoBlockSystem 7) () [47, 102] = some (0, twoBlockInode 7, ()) ∧
    iSize (twoBlockDevice 7) (twoBlockInode 7) = 8192 ∧ ∀ data, ¬ Delivers (twoBlockDevice 7)
      (located (twoBlockImage 7)) (twoBlockSystem 7) () [47, 102] (twoBlockInode 7) 8192 data := by
  have hinode : lookup (twoBlockDevice 7) (twoBlockSystem 7) () [47, 102] = some (0, twoBlockInode 7, ()) := by rfl
  refine ⟨by rfl, hinode, by decide, fun data h => ?_⟩
  have hbyte := (delivers_iff (twoBlockDevice_serves 7).serves hinode 8192 data).mp h 4096
    (by decide)
  exact absurd (congrArg Prod.snd hbyte) (by decide)

end TetraOS.Drivers.Ext2
