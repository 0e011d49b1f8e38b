import TetraOS.Drivers.FileContent

/-! Where the driver looks for the group descriptors and the inodes, compared with where ext2 keeps them. -/

namespace TetraOS.Drivers.Ext2

open Library

variable {σ β : Type}

section Layout

variable (D : BlockDevice σ β) (disk : Buffer β)

def sInodesCount (b : Buffer β) : ℕ := D.uint 4 b 0
def sFirstDataBlock (b : Buffer β) : ℕ := D.uint 4 b 20

def superBlock : Buffer β := fun i => disk (1024 + i)

def blockSize : ℕ := 1024 * 2 ^ sLogBlockSize D (superBlock disk)

/-- The last group may be smaller than the others. -/
def groups : ℕ :=
  (sBlocksCount D (superBlock disk) - sFirstDataBlock D (superBlock disk) + sBlocksPerGroup D (superBlock disk) - 1) /
    sBlocksPerGroup D (superBlock disk)

structure Valid : Prop where
  log : sLogBlockSize D (superBlock disk) < 22
  inodeSize : ∃ j, 7 ≤ j ∧ sInodeSize D (superBlock disk) = 2 ^ j
  firstDataBlock : sFirstDataBlock D (superBlock disk) = 1024 / blockSize D disk
  blocks : sFirstDataBlock D (superBlock disk) < sBlocksCount D (superBlock disk)
  blocksPerGroup : 0 < sBlocksPerGroup D (superBlock disk)
  inodesPerGroup : 0 < sInodesPerGroup D (superBlock disk)
  inodes : sInodesCount D (superBlock disk) = groups D disk * sInodesPerGroup D (superBlock disk)
  root : 2 ≤ sInodesCount D (superBlock disk)

/-- The table of descriptors starts in the block after that of the super block. -/
def groupDescriptor (group : ℕ) : Buffer β := fun i =>
  disk (blockSize D disk * (1024 / blockSize D disk + 1) + groupDescriptorSize * group + i)

def groupOf (n : ℕ) : ℕ := (n - 1) / sInodesPerGroup D (superBlock disk)
def indexOf (n : ℕ) : ℕ := (n - 1) % sInodesPerGroup D (superBlock disk)

def inodePosition (n : ℕ) : ℕ :=
  bgInodeTable D (groupDescriptor D disk (groupOf D disk n)) * blockSize D disk +
    indexOf D disk n * sInodeSize D (superBlock disk)

def Finds (fs : EXT2 β) (s : σ) (dir : Buffer β) (name : List UInt8) (n : ℕ) : Prop :=
  let data := (D.read s (fs.blockOffset (iBlock D dir 0)) fs.blockSize (D.heap s)).2.1
  iMode D dir &&& 0x4000 ≠ 0 ∧ (scan D data name 10 0).1 ≠ 0 ∧ entryInode D data (scan D data name 10 0).2 = n

structure Locates (fs : EXT2 β) (n : ℕ) : Prop where
  array : groupOf D disk n < 8
  descriptor : ∃ desc, fs.groupDescs[groupOf D disk n]? = some desc ∧
    (∀ i < groupDescriptorSize, desc i = groupDescriptor D disk (groupOf D disk n) i) ∧
    ∀ s inode, ∀ i < inodeSize,
      (readInode D fs s desc (indexOf D disk n) inode).1 i = disk (inodePosition D disk n + i)
  directory : ∀ s dir name, Finds D fs s dir name n → ∃ inode s', getInodeInDir D fs s dir name = some (0, inode, s') ∧
    ∀ i < inodeSize, inode i = disk (inodePosition D disk n + i)
  root : n = 2 → ∀ s inode, ∃ inode' s', getRootInode D fs s inode = some (inode', s') ∧
    ∀ i < inodeSize, inode' i = disk (inodePosition D disk n + i)

def LocatesAll (s : σ) : Prop := ∃ fs s', mount D s = some (fs, s') ∧
  ∀ n, 1 ≤ n → n ≤ sInodesCount D (superBlock disk) → Locates D disk fs n

end Layout

section Mounted

variable (D : BlockDevice σ β) (disk : Buffer β)

def amountGroups : ℕ := sBlocksCount D (superBlock disk) / sBlocksPerGroup D (superBlock disk)

def mounted : EXT2 β where
  superBlock := fun i => if i < superBlockSize then disk (1024 + i) else D.zero
  blockSize := blockSize D disk
  groupDescs := (List.range (amountGroups D disk)).map fun g i =>
    if i < groupDescriptorSize then disk (blockSize D disk * 1 + g * groupDescriptorSize + i) else D.zero

variable {D disk}

lemma uint_mounted (n a : ℕ) (h : a + n ≤ superBlockSize) :
    D.uint n (mounted D disk).superBlock a = D.uint n (superBlock disk) a :=
  uint_congr fun i _ hi => if_pos (by omega)

lemma Valid.blockSize_lt (h : Valid D disk) : blockSize D disk < 2 ^ 32 := by
  have hp : 2 ^ sLogBlockSize D (superBlock disk) ≤ 2 ^ 21 := Nat.pow_le_pow_right (by decide) (by have := h.log; omega)
  rw [blockSize]
  omega

lemma readGroupDescs_eq (hserves : Serves D disk) (size n : ℕ) (s : σ) : ∃ s', readGroupDescs D size n s =
    ((List.range n).map fun g i =>
      if i < groupDescriptorSize then disk (size * 1 + g * groupDescriptorSize + i) else D.zero, s') := by
  induction n with
  | zero => exact ⟨s, rfl⟩
  | succ n ih =>
    obtain ⟨s₁, h₁⟩ := ih
    obtain ⟨s₂, h₂⟩ := hserves s₁ (size * 1 + n * groupDescriptorSize) groupDescriptorSize D.new
    refine ⟨s₂, ?_⟩
    simp only [readGroupDescs, h₁, h₂, List.range_succ, List.map_append, List.map_singleton]
    rfl

variable (hserves : Serves D disk) (h : Valid D disk)
include hserves h

lemma mount_eq (s : σ) : (8 < amountGroups D disk → mount D s = none) ∧
    (amountGroups D disk ≤ 8 → ∃ s', mount D s = some (mounted D disk, s')) := by
  obtain ⟨s₁, hread⟩ := hserves s 1024 superBlockSize D.new
  obtain ⟨j, _, hj⟩ := h.inodeSize
  have hbpg : sBlocksPerGroup D (mounted D disk).superBlock = sBlocksPerGroup D (superBlock disk) :=
    uint_mounted 4 32 (by decide)
  have hcount : sBlocksCount D (mounted D disk).superBlock = sBlocksCount D (superBlock disk) :=
    uint_mounted 4 4 (by decide)
  have hinode : sInodeSize D (mounted D disk).superBlock = 2 ^ j := (uint_mounted 2 88 (by decide)).trans hj
  have hlog : sLogBlockSize D (mounted D disk).superBlock = sLogBlockSize D (superBlock disk) :=
    uint_mounted 4 24 (by decide)
  have hsize : 1024 * 2 ^ sLogBlockSize D (mounted D disk).superBlock % 2 ^ 32 = blockSize D disk := by
    rw [hlog]
    exact Nat.mod_eq_of_lt h.blockSize_lt
  have hzero :
      ¬ (sBlocksPerGroup D (mounted D disk).superBlock = 0 ∨ sInodeSize D (mounted D disk).superBlock = 0) := by
    have hp := h.blocksPerGroup
    have hj := Nat.two_pow_pos j
    omega
  have hamount : sBlocksCount D (mounted D disk).superBlock / sBlocksPerGroup D (mounted D disk).superBlock =
      amountGroups D disk := by rw [hcount, hbpg, amountGroups]
  have hsuper : D.read s 1024 superBlockSize D.new = (0, (mounted D disk).superBlock, s₁) := hread
  constructor
  · intro hmany
    simp only [mount, hsuper, if_neg hzero, hamount, if_pos hmany]
  · intro hfew
    obtain ⟨s₂, hdescs⟩ := readGroupDescs_eq hserves (blockSize D disk) (amountGroups D disk) s₁
    refine ⟨s₂, ?_⟩
    simp only [mount, hsuper, if_neg hzero, hamount, if_neg (not_lt.mpr hfew), hsize, hdescs]
    rfl

end Mounted

structure Supported (D : BlockDevice σ β) (disk : Buffer β) : Prop where
  block : 1 ≤ sLogBlockSize D (superBlock disk)
  whole : sBlocksPerGroup D (superBlock disk) ∣ sBlocksCount D (superBlock disk)
  few : sBlocksCount D (superBlock disk) / sBlocksPerGroup D (superBlock disk) ≤ 8
  inode : sInodeSize D (superBlock disk) = 256
  perGroup : 2 ≤ sInodesPerGroup D (superBlock disk)
  tables : ∀ g < sBlocksCount D (superBlock disk) / sBlocksPerGroup D (superBlock disk),
    bgInodeTable D (groupDescriptor D disk g) * blockSize D disk < 2 ^ 32

section Located

variable {D : BlockDevice σ β} {disk : Buffer β} {n g : ℕ}

lemma blockSize_mod : blockSize D disk % 512 = 0 := by
  rw [blockSize]
  omega

lemma div_blockSize_iff : 1024 / blockSize D disk = 0 ↔ 1 ≤ sLogBlockSize D (superBlock disk) := by
  rw [Nat.div_eq_zero_iff, blockSize]
  cases sLogBlockSize D (superBlock disk) with
  | zero => simp
  | succ k =>
    have := Nat.two_pow_pos k
    rw [pow_succ]
    omega

def loadedDescriptor (D : BlockDevice σ β) (disk : Buffer β) (g : ℕ) : Buffer β := fun i =>
  if i < groupDescriptorSize then disk (blockSize D disk * 1 + g * groupDescriptorSize + i) else D.zero

lemma groupDescs_mounted : (mounted D disk).groupDescs[g]? =
    if g < amountGroups D disk then some (loadedDescriptor D disk g) else none := by
  change ((List.range (amountGroups D disk)).map (loadedDescriptor D disk))[g]? = _
  rw [List.getElem?_map]
  split
  · rename_i hg
    rw [List.getElem?_range hg, Option.map_some]
  · rename_i hg
    rw [List.getElem?_eq_none (by simpa using hg), Option.map_none]

lemma loadedDescriptor_eq (hb : 1 ≤ sLogBlockSize D (superBlock disk)) {i : ℕ} (hi : i < groupDescriptorSize) :
    loadedDescriptor D disk g i = groupDescriptor D disk g i := by
  rw [loadedDescriptor, if_pos hi, groupDescriptor, div_blockSize_iff.mpr hb, Nat.zero_add, Nat.mul_comm g]

lemma bgInodeTable_eq {desc : Buffer β} (h : ∀ i < groupDescriptorSize, desc i = groupDescriptor D disk g i) :
    bgInodeTable D desc = bgInodeTable D (groupDescriptor D disk g) :=
  uint_congr fun i _ hi => h i (by rw [groupDescriptorSize]; omega)

lemma readInode_eq (hserves : Serves D disk) (fs : EXT2 β) (s : σ) (desc inode : Buffer β) (index : ℕ) {i : ℕ}
    (hi : i < inodeSize) : (readInode D fs s desc index inode).1 i =
      disk (fs.blockOffset (bgInodeTable D desc) + inodeSize * index + i) := by
  obtain ⟨s', hread⟩ := hserves s (fs.blockOffset (bgInodeTable D desc) + inodeSize * index) inodeSize inode
  rw [readInode, hread]
  exact if_pos hi

lemma Finds.getInodeInDir {fs : EXT2 β} {s : σ} {dir desc : Buffer β} {name : List UInt8} (h : Finds D fs s dir name n)
    (h₁ : 1 ≤ n) (hn : n < 2 ^ 32) (hper : sInodesPerGroup D fs.superBlock ≠ 0)
    (hdesc : fs.groupDescs[(n - 1) / sInodesPerGroup D fs.superBlock]? = some desc) :
    ∃ s₁, getInodeInDir D fs s dir name =
      some (0, readInode D fs s₁ desc ((n - 1) % sInodesPerGroup D fs.superBlock) dir) := by
  obtain ⟨hmode, hleft, hnumber⟩ := h
  have hindex : (n + 2 ^ 32 - 1) % 2 ^ 32 = n - 1 := by omega
  refine ⟨(D.read s (fs.blockOffset (iBlock D dir 0)) fs.blockSize (D.heap s)).2.2, ?_⟩
  simp only [Ext2.getInodeInDir, if_neg hmode, if_neg hleft, hnumber, hindex, if_neg hper, hdesc, Option.bind_eq_bind,
    Option.bind_some]

variable (h : Valid D disk)
include h

lemma Valid.groupOf_lt (h₁ : 1 ≤ n) (hn : n ≤ sInodesCount D (superBlock disk)) : groupOf D disk n < groups D disk := by
  rw [h.inodes] at hn
  rw [groupOf, Nat.div_lt_iff_lt_mul h.inodesPerGroup]
  omega

/-- With blocks of 2 KiB and more, the driver counts all groups if the last of them is full. -/
lemma Valid.groups_le_iff (hb : 1 ≤ sLogBlockSize D (superBlock disk)) : groups D disk ≤ amountGroups D disk ↔
    sBlocksPerGroup D (superBlock disk) ∣ sBlocksCount D (superBlock disk) := by
  have hpos := h.blocksPerGroup
  have hf := h.firstDataBlock
  rw [div_blockSize_iff.mpr hb] at hf
  rw [groups, amountGroups, hf, Nat.sub_zero, Nat.dvd_iff_mod_eq_zero]
  generalize sBlocksPerGroup D (superBlock disk) = b at hpos
  generalize sBlocksCount D (superBlock disk) = c
  have hdiv := Nat.div_add_mod c b
  have hmod := Nat.mod_lt c hpos
  rw [← Nat.lt_succ_iff, Nat.div_lt_iff_lt_mul hpos, Nat.succ_mul, Nat.mul_comm (c / b)]
  omega

lemma Valid.le_groups (hb : 1 ≤ sLogBlockSize D (superBlock disk)) : amountGroups D disk ≤ groups D disk := by
  have hpos := h.blocksPerGroup
  have hf := h.firstDataBlock
  rw [div_blockSize_iff.mpr hb] at hf
  rw [groups, amountGroups, hf, Nat.sub_zero]
  exact Nat.div_le_div_right (by omega)

lemma Valid.first_of_group (hg : g < groups D disk) (k : ℕ) (hk : k < sInodesPerGroup D (superBlock disk)) :
    g * sInodesPerGroup D (superBlock disk) + k + 1 ≤ sInodesCount D (superBlock disk) ∧
      groupOf D disk (g * sInodesPerGroup D (superBlock disk) + k + 1) = g ∧
      indexOf D disk (g * sInodesPerGroup D (superBlock disk) + k + 1) = k := by
  rw [h.inodes, groupOf, indexOf, Nat.add_sub_cancel, Nat.mul_comm g, Nat.mul_add_div h.inodesPerGroup,
    Nat.mul_add_mod_self_left, Nat.mod_eq_of_lt hk, Nat.div_eq_of_lt hk]
  refine ⟨?_, rfl, rfl⟩
  have := Nat.mul_le_mul_right (sInodesPerGroup D (superBlock disk)) (show g + 1 ≤ groups D disk from hg)
  rw [Nat.succ_mul, Nat.mul_comm g] at this
  omega

variable (hserves : Serves D disk)
include hserves

lemma Supported.readInode (hs : Supported D disk) (h₁ : 1 ≤ n) (hn : n ≤ sInodesCount D (superBlock disk)) :
    groupOf D disk n < amountGroups D disk ∧ ∀ s inode, ∀ i < inodeSize,
      (readInode D (mounted D disk) s (loadedDescriptor D disk (groupOf D disk n)) (indexOf D disk n) inode).1 i =
        disk (inodePosition D disk n + i) := by
  have hg : groupOf D disk n < amountGroups D disk :=
    (h.groupOf_lt h₁ hn).trans_le ((h.groups_le_iff hs.block).mpr hs.whole)
  refine ⟨hg, fun s inode i hi => ?_⟩
  have ht := hs.tables _ hg
  rw [readInode_eq hserves _ _ _ _ _ hi, bgInodeTable_eq fun i hi => loadedDescriptor_eq hs.block hi, inodePosition,
    EXT2.blockOffset, hs.inode, inodeSize, Nat.mul_comm 256, Nat.mul_comm (mounted D disk).blockSize]
  exact congrArg (fun x => disk (x + indexOf D disk n * 256 + i)) (Nat.mod_eq_of_lt ht)

lemma Supported.locates (hs : Supported D disk) (h₁ : 1 ≤ n) (hn : n ≤ sInodesCount D (superBlock disk)) :
    Locates D disk (mounted D disk) n := by
  obtain ⟨hg, hread⟩ := hs.readInode h hserves h₁ hn
  have hper : sInodesPerGroup D (mounted D disk).superBlock = sInodesPerGroup D (superBlock disk) :=
    uint_mounted 4 40 (by decide)
  have hlt : sInodesCount D (superBlock disk) < 256 ^ 4 := uint_lt 4 _ _
  refine ⟨hg.trans_le hs.few, ⟨loadedDescriptor D disk (groupOf D disk n), ?_, fun i hi =>
    loadedDescriptor_eq hs.block hi, hread⟩, ?_, ?_⟩
  · rw [groupDescs_mounted, if_pos hg]
  · intro s dir name hfinds
    have hdesc : (mounted D disk).groupDescs[(n - 1) / sInodesPerGroup D (mounted D disk).superBlock]? =
        some (loadedDescriptor D disk (groupOf D disk n)) := by
      rw [hper]
      exact groupDescs_mounted.trans (if_pos hg)
    obtain ⟨s₁, hget⟩ := hfinds.getInodeInDir h₁ (by omega) (by rw [hper]; exact h.inodesPerGroup.ne') hdesc
    rw [hper] at hget
    exact ⟨_, _, hget, hread s₁ dir⟩
  · rintro rfl s inode
    have hper := hs.perGroup
    have hroot : groupOf D disk 2 = 0 ∧ indexOf D disk 2 = 1 :=
      ⟨Nat.div_eq_of_lt (by omega), Nat.mod_eq_of_lt (by omega)⟩
    rw [hroot.1, hroot.2] at hread
    rw [hroot.1] at hg
    have hget : getRootInode D (mounted D disk) s inode =
        some (Ext2.readInode D (mounted D disk) s (loadedDescriptor D disk 0) 1 inode) := by
      rw [getRootInode, groupDescs_mounted, if_pos hg]
      rfl
    exact ⟨_, _, hget, hread s inode⟩

end Located

section Necessary

variable {D : BlockDevice σ Located} {image : ℕ → UInt8} {n : ℕ} (h : Valid D (located image))
    (hserves : Serves D (located image))

lemma position_eq {p q : ℕ} (h : located image p = located image q) : p = q := congrArg Prod.snd h

include hserves in
lemma Locates.positions (hl : Locates D (located image) (mounted D (located image)) n) (s : σ) :
    groupOf D (located image) n < amountGroups D (located image) ∧
    blockSize D (located image) * 1 = blockSize D (located image) * (1024 / blockSize D (located image) + 1) ∧
    blockSize D (located image) * bgInodeTable D (groupDescriptor D (located image) (groupOf D (located image) n)) %
        2 ^ 32 + 256 * indexOf D (located image) n = inodePosition D (located image) n := by
  obtain ⟨desc, hdesc, hbytes, hread⟩ := hl.descriptor
  rw [groupDescs_mounted] at hdesc
  split at hdesc
  · rename_i hg
    obtain rfl := Option.some.inj hdesc
    refine ⟨hg, ?_, ?_⟩
    · have hfirst := hbytes 0 (by decide)
      rw [loadedDescriptor, if_pos (by decide), groupDescriptor] at hfirst
      have := position_eq hfirst
      rw [groupDescriptorSize] at this
      omega
    · have hbyte := hread s (fun _ => D.zero) 0 (by decide)
      rw [readInode_eq hserves _ _ _ _ _ (by decide), bgInodeTable_eq hbytes] at hbyte
      exact position_eq hbyte
  · cases hdesc

include h hserves in
/-- With one inode in each group, inode 2 is the first of group 1, but the root directory is read after the first of
group 0. -/
lemma Locates.two_le_inodesPerGroup (hl : Locates D (located image) (mounted D (located image)) 2) (s : σ)
    (hg : 0 < amountGroups D (located image)) : 2 ≤ sInodesPerGroup D (superBlock (located image)) := by
  have hper := h.inodesPerGroup
  by_contra hone
  have hindex : indexOf D (located image) 2 = 0 := by
    rw [indexOf, show sInodesPerGroup D (superBlock (located image)) = 1 by omega]
  obtain ⟨inode, s', hget, hbytes⟩ := hl.root rfl s fun _ => D.zero
  rw [getRootInode, groupDescs_mounted, if_pos hg] at hget
  obtain ⟨rfl, _⟩ := Prod.mk.inj (Option.some.inj hget)
  have hplace := position_eq ((readInode_eq hserves _ _ _ _ _ (by decide)).symm.trans (hbytes 0 (by decide)))
  have hmod : blockSize D (located image) % 512 = 0 := blockSize_mod
  have hleft : EXT2.blockOffset (mounted D (located image))
      (bgInodeTable D (loadedDescriptor D (located image) 0)) % 512 = 0 :=
    blockOffset_mod hmod _
  have hright : inodePosition D (located image) 2 % 512 = 0 := by
    rw [inodePosition, hindex, Nat.zero_mul, Nat.add_zero, Nat.mul_mod, hmod, Nat.mul_zero]
  rw [inodeSize] at hplace
  omega

include h hserves in
lemma Valid.supported (s : σ) (hfew : amountGroups D (located image) ≤ 8)
    (hall : ∀ n, 1 ≤ n → n ≤ sInodesCount D (superBlock (located image)) →
      Locates D (located image) (mounted D (located image)) n) : Supported D (located image) := by
  have hroot := h.root
  have hper := h.inodesPerGroup
  have hinodes := h.inodes
  have hgroups : 0 < groups D (located image) := by
    by_contra hz
    rw [Nat.eq_zero_of_not_pos hz, Nat.zero_mul] at hinodes
    omega
  have hpos := fun n h₁ hn => (hall n h₁ hn).positions hserves s
  obtain ⟨_, hblock, hfirst⟩ := hpos 1 le_rfl (by omega)
  have hb : 1 ≤ sLogBlockSize D (superBlock (located image)) := by
    rw [← div_blockSize_iff]
    have hbs : 0 < blockSize D (located image) := Nat.mul_pos (by decide) (Nat.two_pow_pos _)
    have := Nat.eq_of_mul_eq_mul_left hbs hblock
    omega
  have htables : ∀ g < groups D (located image), g < amountGroups D (located image) ∧
      bgInodeTable D (groupDescriptor D (located image) g) * blockSize D (located image) < 2 ^ 32 := by
    intro g hg
    obtain ⟨hn, hgroup, hindex⟩ := h.first_of_group hg 0 hper
    obtain ⟨hlt, _, hplace⟩ := hpos _ (by omega) hn
    rw [inodePosition, hgroup, hindex, Nat.zero_mul, Nat.mul_zero, Nat.add_zero, Nat.add_zero] at hplace
    rw [hgroup] at hlt
    rw [Nat.mul_comm]
    have := Nat.mod_lt (blockSize D (located image) * bgInodeTable D (groupDescriptor D (located image) g))
      (show 0 < 2 ^ 32 by decide)
    rw [Nat.mul_comm (bgInodeTable D _)] at hplace
    exact ⟨hlt, by omega⟩
  have hper₂ := (hall 2 (by decide) hroot).two_le_inodesPerGroup h hserves s (htables 0 hgroups).1
  refine ⟨hb, (h.groups_le_iff hb).mp ?_, hfew, ?_, hper₂, fun g hg => ?_⟩
  · have := (htables (groups D (located image) - 1) (by omega)).1
    omega
  · obtain ⟨hn, hgroup, hindex⟩ := h.first_of_group hgroups 1 hper₂
    obtain ⟨_, _, hplace⟩ := hpos _ (by omega) hn
    have hlow := (htables 0 hgroups).2
    rw [Nat.mul_comm] at hlow
    rw [inodePosition, hgroup, hindex, Nat.mod_eq_of_lt hlow, Nat.mul_comm (bgInodeTable D _)] at hplace
    omega
  · exact (htables g (hg.trans_le (h.le_groups hb))).2

end Necessary

lemma LocatesAll.supported {image : ℕ → UInt8} {D : BlockDevice σ Located} (hserves : Serves D (located image))
    (hvalid : Valid D (located image)) {s : σ} (h : LocatesAll D (located image) s) : Supported D (located image) := by
  obtain ⟨hnone, hsome⟩ := mount_eq hserves hvalid s
  obtain ⟨fs, s', hmount, hall⟩ := h
  have hfew : amountGroups D (located image) ≤ 8 := by
    by_contra hmany
    rw [hnone (by omega)] at hmount
    cases hmount
  obtain ⟨s₁, hs⟩ := hsome hfew
  obtain ⟨rfl, _⟩ := Prod.mk.inj (Option.some.inj (hmount.symm.trans hs))
  exact hvalid.supported hserves s hfew hall

/-- For every valid image: all inodes are found, through descriptors from the table on the disk, if and only if the
image is one that the driver can handle. -/
theorem locatesAll_iff_supported (image : ℕ → UInt8) (D : BlockDevice σ Located) (hD : ServesImage D image)
    (hvalid : Valid D (located image)) (s : σ) : LocatesAll D (located image) s ↔ Supported D (located image) := by
  constructor
  · exact fun h => h.supported hD.serves hvalid
  · intro hs
    obtain ⟨s', hmount⟩ := (mount_eq hD.serves hvalid s).2 hs.few
    exact ⟨_, s', hmount, fun n h₁ hn => hs.locates hvalid hD.serves h₁ hn⟩

theorem locatesAll_two_block_image : LocatesAll (twoBlockDevice 6) (located (twoBlockImage 6)) () := by
  have hvalid : Valid (twoBlockDevice 6) (located (twoBlockImage 6)) :=
    ⟨by decide, ⟨8, by decide, by decide⟩, by decide, by decide, by decide, by decide, by decide, by decide⟩
  refine (locatesAll_iff_supported _ _ (twoBlockDevice_serves 6) hvalid ()).mpr ?_
  refine ⟨by decide, by decide, by decide, by decide, by decide, fun g hg => ?_⟩
  obtain rfl : g = 0 := by
    rw [show sBlocksCount (twoBlockDevice 6) (superBlock (located (twoBlockImage 6))) /
      sBlocksPerGroup (twoBlockDevice 6) (superBlock (located (twoBlockImage 6))) = 1 by decide] at hg
    omega
  decide

/-- The image with inodes of 128 bytes, the size they have in the first revision of ext2. -/
def smallInodeImage : ℕ → UInt8 := ByteMemory.store (twoBlockImage 6) 2 1112 128

def smallInodeDevice : BlockDevice Unit Located := faithful Prod.fst (0, 0) (located smallInodeImage)

theorem not_locatesAll_small_inodes : Valid smallInodeDevice (located smallInodeImage) ∧
    ServesImage smallInodeDevice smallInodeImage ∧ ¬ LocatesAll smallInodeDevice (located smallInodeImage) () := by
  have hvalid : Valid smallInodeDevice (located smallInodeImage) :=
    ⟨by decide, ⟨7, by decide, by decide⟩, by decide, by decide, by decide, by decide, by decide, by decide⟩
  have hserves : Serves smallInodeDevice (located smallInodeImage) := faithful_serves _ _ _
  refine ⟨hvalid, ⟨fun _ => rfl, hserves⟩, fun h => ?_⟩
  have hsize := (h.supported hserves hvalid).inode
  exact absurd hsize (by decide)

end TetraOS.Drivers.Ext2
