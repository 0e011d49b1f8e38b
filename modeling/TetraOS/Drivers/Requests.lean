import TetraOS.Drivers.BlockRead
import TetraOS.Drivers.FileContent
import TetraOS.Drivers.Paths

/-! The requests that the file system sends to the block device. -/

namespace TetraOS.Drivers.Ext2

open Memory Library Library.ByteMemory PhysicalAllocator BlockRead

variable {σ β : Type}

abbrev Request := ℕ × ℕ

section Requests

variable (D : BlockDevice σ β) (fs : EXT2 β)

def mountRequests (s : σ) : List Request :=
  let superBlock := (D.read s 1024 superBlockSize D.new).2.1
  let amountGroups := sBlocksCount D superBlock / sBlocksPerGroup D superBlock
  let blockSize := 1024 * 2 ^ sLogBlockSize D superBlock % 2 ^ 32
  (1024, superBlockSize) :: (List.range amountGroups).map fun i =>
    (blockSize * 1 + i * groupDescriptorSize, groupDescriptorSize)

def inodeRequest (desc : Buffer β) (index : ℕ) : Request :=
  (fs.blockOffset (bgInodeTable D desc) + inodeSize * index, inodeSize)

def rootRequests : List Request := (fs.groupDescs[0]?.map fun desc => inodeRequest D fs desc 1).toList

def dirRequests (s : σ) (dir : Buffer β) (name : List UInt8) : List Request :=
  if iMode D dir &&& 0x4000 = 0 then [] else
  let data := (D.read s (fs.blockOffset (iBlock D dir 0)) fs.blockSize (D.heap s)).2.1
  let (left, offset) := scan D data name 10 0
  (fs.blockOffset (iBlock D dir 0), fs.blockSize) ::
    if left = 0 then [] else
    let number := (entryInode D data offset + 2 ^ 32 - 1) % 2 ^ 32
    let inodesPerGroup := sInodesPerGroup D fs.superBlock
    if inodesPerGroup = 0 then [] else
    (fs.groupDescs[number / inodesPerGroup]?.map fun desc => inodeRequest D fs desc (number % inodesPerGroup)).toList

def namesRequests : List (List UInt8) → Buffer β × σ → List Request
  | [], _ => []
  | name :: names, t => dirRequests D fs t.2 t.1 name ++
      match findInDir D fs t name with
      | none => []
      | some (res, t) => if res < 0 then [] else namesRequests names t

def lookupRequests (s : σ) (path : List UInt8) : List Request :=
  rootRequests D fs ++
    match getRootInode D fs s D.new with
    | none => []
    | some t => namesRequests D fs (lookups path) t

def readFileRequests (s : σ) (path : List UInt8) (size : ℕ) : List Request :=
  lookupRequests D fs s path ++
    match lookup D fs s path with
    | none => []
    | some (_, inode, _) => [(fs.blockOffset (iBlock D inode 0), size)]

end Requests

inductive Call (β : Type) where
  | mount
  | getRootInode (fs : EXT2 β) (inode : Buffer β)
  | getInodeInDir (fs : EXT2 β) (dir : Buffer β) (name : List UInt8)
  | getInodeFromDir (fs : EXT2 β) (dir : Buffer β) (path : List UInt8)
  | getFileSize (fs : EXT2 β) (path : List UInt8)
  | readFile (fs : EXT2 β) (path : List UInt8) (size : ℕ) (data : Buffer β)

namespace Call

variable (D : BlockDevice σ β) (s : σ)

def run : Call β → Option σ
  | mount => (Ext2.mount D s).map fun r => r.2
  | getRootInode fs inode => (Ext2.getRootInode D fs s inode).map fun r => r.2
  | getInodeInDir fs dir name => (Ext2.getInodeInDir D fs s dir name).map fun r => r.2.2
  | getInodeFromDir fs dir path => (Ext2.getInodeFromDir D fs s dir path).map fun r => r.2.2
  | getFileSize fs path => (Ext2.getFileSize D fs s path).map fun r => r.2
  | readFile fs path size data => (Ext2.readFile D fs s path size data).map fun r => r.2.2

def requests : Call β → List Request
  | mount => mountRequests D s
  | getRootInode fs _ => rootRequests D fs
  | getInodeInDir fs dir name => dirRequests D fs s dir name
  | getInodeFromDir fs dir path => namesRequests D fs (lookups path) (dir, s)
  | getFileSize fs path => lookupRequests D fs s path
  | readFile fs path size _ => readFileRequests D fs s path size

def superBlock : Call β → Buffer β
  | mount => (D.read s 1024 superBlockSize D.new).2.1
  | getRootInode fs _ | getInodeInDir fs _ _ | getInodeFromDir fs _ _ | getFileSize fs _ | readFile fs _ _ _ =>
    fs.superBlock

/-- The block size in use is that of the super block, and paths end with their first zero byte. -/
def WellFormed : Call β → Prop
  | mount => True
  | getRootInode fs _ | getInodeInDir fs _ _ => fs.blockSize = 1024 * 2 ^ sLogBlockSize D fs.superBlock % 2 ^ 32
  | getInodeFromDir fs _ path | getFileSize fs path | readFile fs path _ _ =>
    fs.blockSize = 1024 * 2 ^ sLogBlockSize D fs.superBlock % 2 ^ 32 ∧ 0 ∉ path

end Call

def recording (D : BlockDevice σ β) : BlockDevice (σ × List Request) β where
  val := D.val
  zero := D.zero
  heap := fun s => D.heap s.1
  read := fun s offset length buffer =>
    let (r, buffer, s') := D.read s.1 offset length buffer
    (r, buffer, (s', s.2 ++ [(offset, length)]))

section Recording

variable {D : BlockDevice σ β} {fs : EXT2 β} {s : σ} {log : List Request} {dir : Buffer β} {name : List UInt8}

lemma recording_read (offset length : ℕ) (buffer : Buffer β) : (recording D).read (s, log) offset length buffer =
    ((D.read s offset length buffer).1, (D.read s offset length buffer).2.1,
      ((D.read s offset length buffer).2.2, log ++ [(offset, length)])) := rfl

@[simp] lemma new_recording : (recording D).new = D.new := rfl
@[simp] lemma heap_recording : (recording D).heap (s, log) = D.heap s := rfl
@[simp] lemma sBlocksPerGroup_recording : sBlocksPerGroup (recording D) = sBlocksPerGroup D := rfl
@[simp] lemma sInodeSize_recording : sInodeSize (recording D) = sInodeSize D := rfl
@[simp] lemma sBlocksCount_recording : sBlocksCount (recording D) = sBlocksCount D := rfl
@[simp] lemma sLogBlockSize_recording : sLogBlockSize (recording D) = sLogBlockSize D := rfl
@[simp] lemma sInodesPerGroup_recording : sInodesPerGroup (recording D) = sInodesPerGroup D := rfl
@[simp] lemma iMode_recording : iMode (recording D) = iMode D := rfl
@[simp] lemma iBlock_recording : iBlock (recording D) = iBlock D := rfl
@[simp] lemma entryInode_recording : entryInode (recording D) = entryInode D := rfl

@[simp] lemma scan_recording (data : Buffer β) (left offset : ℕ) :
    scan (recording D) data name left offset = scan D data name left offset := by
  induction left generalizing offset with
  | zero => rfl
  | succ left ih =>
    rw [scan, scan, ih]
    rfl

lemma readInode_recording (desc : Buffer β) (index : ℕ) (inode : Buffer β) :
    readInode (recording D) fs (s, log) desc index inode =
      ((readInode D fs s desc index inode).1,
        ((readInode D fs s desc index inode).2, log ++ [inodeRequest D fs desc index])) :=
  rfl

lemma readGroupDescs_recording (blockSize n : ℕ) : readGroupDescs (recording D) blockSize n (s, log) =
    ((readGroupDescs D blockSize n s).1, ((readGroupDescs D blockSize n s).2, log ++ (List.range n).map fun i =>
      (blockSize * 1 + i * groupDescriptorSize, groupDescriptorSize))) := by
  induction n with
  | zero => rw [List.range_zero, List.map_nil, List.append_nil]; rfl
  | succ n ih =>
    rw [readGroupDescs, ih, readGroupDescs, List.range_succ, List.map_append, List.map_singleton, ← List.append_assoc]
    rfl

lemma mount_recording : mount (recording D) (s, log) =
    (mount D s).map fun r => (r.1, (r.2, log ++ mountRequests D s)) := by
  rw [mount, mount, mountRequests, recording_read, new_recording]
  generalize D.read s 1024 superBlockSize D.new = answer
  obtain ⟨r, superBlock, s₁⟩ := answer
  simp only [sBlocksPerGroup_recording, sInodeSize_recording, sBlocksCount_recording, sLogBlockSize_recording,
    readGroupDescs_recording]
  split_ifs
  · rfl
  · rfl
  · rw [Option.map_some, List.append_assoc]
    rfl

lemma getRootInode_recording (inode : Buffer β) : getRootInode (recording D) fs (s, log) inode =
    (getRootInode D fs s inode).map fun r => (r.1, (r.2, log ++ rootRequests D fs)) := by
  rw [getRootInode, getRootInode, rootRequests]
  cases fs.groupDescs[0]? with
  | none => rfl
  | some desc => rfl

lemma getInodeInDir_recording : getInodeInDir (recording D) fs (s, log) dir name =
    (getInodeInDir D fs s dir name).map fun r => (r.1, r.2.1, (r.2.2, log ++ dirRequests D fs s dir name)) := by
  rw [getInodeInDir, getInodeInDir, dirRequests, recording_read, heap_recording, iBlock_recording]
  generalize D.read s (fs.blockOffset (iBlock D dir 0)) fs.blockSize (D.heap s) = answer
  obtain ⟨r, data, s₁⟩ := answer
  simp only [iMode_recording, entryInode_recording, sInodesPerGroup_recording, scan_recording, readInode_recording]
  split_ifs
  · rw [Option.map_some, List.append_nil]
  · rfl
  · rfl
  · generalize fs.groupDescs[((entryInode D data (scan D data name 10 0).2 + 2 ^ 32 - 1) % 2 ^ 32) /
      sInodesPerGroup D fs.superBlock]? = found
    cases found with
    | none => rfl
    | some desc =>
      rw [Option.map_some, Option.bind_eq_bind, Option.bind_some, Option.bind_eq_bind, Option.bind_some,
        Option.map_some, List.append_assoc]
      rfl

lemma lookUpAll_recording (names : List (List UInt8)) (log : List Request) (t : Buffer β × σ) :
    lookUpAll (findInDir (recording D) fs) names (t.1, (t.2, log)) =
      (lookUpAll (findInDir D fs) names t).map fun r => (r.1, r.2.1, (r.2.2, log ++ namesRequests D fs names t)) := by
  induction names generalizing log t with
  | nil => rw [namesRequests, List.append_nil]; rfl
  | cons name names ih =>
    rw [lookUpAll, lookUpAll, namesRequests, findInDir, getInodeInDir_recording, findInDir]
    cases getInodeInDir D fs t.2 t.1 name with
    | none => rfl
    | some r =>
      obtain ⟨res, dir, s⟩ := r
      rw [Option.map_some, Option.bind_eq_bind, Option.bind_some, Option.bind_eq_bind, Option.bind_some]
      dsimp only
      split
      · rw [List.append_nil]
        rfl
      · rw [ih _ (dir, s), List.append_assoc]

variable {path : List UInt8} (hzero : 0 ∉ path)
include hzero

lemma getInodeFromDir_recording : getInodeFromDir (recording D) fs (s, log) dir path =
    (getInodeFromDir D fs s dir path).map fun r =>
      (r.1, r.2.1, (r.2.2, log ++ namesRequests D fs (lookups path) (dir, s))) := by
  rw [getInodeFromDir_eq_lookUpAll hzero, getInodeFromDir_eq_lookUpAll hzero, lookUpAll_recording _ _ (dir, s)]

lemma lookup_recording : lookup (recording D) fs (s, log) path =
    (lookup D fs s path).map fun r => (r.1, r.2.1, (r.2.2, log ++ lookupRequests D fs s path)) := by
  rw [lookup, lookup, lookupRequests, new_recording, getRootInode_recording]
  cases getRootInode D fs s D.new with
  | none => rfl
  | some t =>
    rw [Option.map_some, Option.bind_eq_bind, Option.bind_some, Option.bind_eq_bind, Option.bind_some]
    dsimp only
    rw [getInodeFromDir_recording hzero, List.append_assoc]

lemma readFile_recording (size : ℕ) (data : Buffer β) : readFile (recording D) fs (s, log) path size data =
    (readFile D fs s path size data).map fun r => (r.1, r.2.1, (r.2.2, log ++ readFileRequests D fs s path size)) := by
  rw [readFile, readFile, readFileRequests, lookup_recording hzero]
  cases lookup D fs s path with
  | none => rfl
  | some r =>
    rw [Option.map_some, Option.bind_eq_bind, Option.bind_some, Option.bind_eq_bind, Option.bind_some, Option.map_some]
    dsimp only
    rw [← List.append_assoc]
    rfl

omit hzero in
lemma Call.run_recording {call : Call β} (hcall : call.WellFormed D) : call.run (recording D) (s, log) =
    (call.run D s).map fun s' => (s', log ++ call.requests D s) := by
  cases call with
  | mount => rw [run, run, mount_recording, Option.map_map, Option.map_map]; rfl
  | getRootInode fs inode => rw [run, run, getRootInode_recording, Option.map_map, Option.map_map]; rfl
  | getInodeInDir fs dir name => rw [run, run, getInodeInDir_recording, Option.map_map, Option.map_map]; rfl
  | getInodeFromDir fs dir path =>
    rw [run, run, getInodeFromDir_recording hcall.2, Option.map_map, Option.map_map]; rfl
  | getFileSize fs path =>
    rw [run, run, Ext2.getFileSize, Ext2.getFileSize, lookup_recording hcall.2]
    cases lookup D fs s path with
    | none => rfl
    | some r => rfl
  | readFile fs path size data => rw [run, run, readFile_recording hcall.2, Option.map_map, Option.map_map]; rfl

end Recording

def Fits (r : Request) : Prop := (r.1 + 512 * 2048) % 512 + r.2 % 512 ≤ 512

/-- In every state of the kernel heap, the read covers the request and copies the bytes of the disk. -/
def ServedExactly (r : Request) : Prop :=
  ∀ (img : Image) (m : Memory) (hready : Ready img m) (s : State Frames) (blocks : List Block), HeapRun img m s blocks →
    ∀ (disk : ℕ → UInt8) (readBlocks : ReadBlocks Frames), Fills img hready.room disk readBlocks →
      ∀ b ∈ blocks, r.2 ≤ b.2 → ∀ fuel tempBuffer s₁,
        kalloc (kallocFrame (reserved img)) fuel s (tempSize r.2) = some (tempBuffer, s₁) →
        Exact img disk readBlocks fuel s r.1 r.2 b.1

section Shape

variable {D : BlockDevice σ β} {fs : EXT2 β} {s : σ} {r : Request}

structure Regular (r : Request) : Prop where
  fits : Fits r
  near : r.1 < 2 ^ 40 + 2 ^ 32

lemma Regular.servedExactly (h : Regular r) : ServedExactly r := by
  intro img m hready s blocks hrun disk readBlocks hfills b hb hlength fuel tempBuffer s₁ hk
  have hinv := HeapInv.run hready hrun
  have hlo := hinv.blocks.above b hb
  have hhi := hinv.blocks.below b hb
  have hspace := hinv.heap.space
  have hend := hinv.heap.end_le
  rw [heapLimit_eq] at hend
  have hstart := heapStart_eq
  have hfits : (r.1 + 512 * 2048) % 512 + r.2 % 512 ≤ 512 := h.fits
  have hnear := h.near
  exact read_exact hfills hinv.heap (by omega) (by omega) (by omega) (by omega) hk (by omega)

variable (hblock : fs.blockSize % 512 = 0)
include hblock

lemma regular_block (b length : ℕ) : Regular (fs.blockOffset b, length) := by
  have hmod := blockOffset_mod hblock b
  have hlt := blockOffset_lt fs b
  refine ⟨?_, ?_⟩
  · rw [Fits]
    dsimp only
    omega
  · dsimp only
    omega

lemma regular_inode (desc : Buffer β) {index : ℕ} (hindex : index < 2 ^ 32) :
    Regular (inodeRequest D fs desc index) := by
  have hmod := blockOffset_mod hblock (bgInodeTable D desc)
  have hlt := blockOffset_lt fs (bgInodeTable D desc)
  refine ⟨?_, ?_⟩
  · rw [Fits, inodeRequest, inodeSize]
    omega
  · rw [inodeRequest, inodeSize]
    omega

lemma regular_root (hr : r ∈ rootRequests D fs) : Regular r := by
  rw [rootRequests, Option.mem_toList] at hr
  obtain ⟨desc, _, rfl⟩ := Option.map_eq_some_iff.mp hr
  exact regular_inode hblock desc (by decide)

lemma regular_dir {dir : Buffer β} {name : List UInt8} (hr : r ∈ dirRequests D fs s dir name) : Regular r := by
  rw [dirRequests] at hr
  split at hr
  · cases hr
  dsimp only at hr
  rcases List.mem_cons.mp hr with rfl | hr
  · exact regular_block hblock _ _
  split at hr
  · cases hr
  split at hr
  · cases hr
  rename_i hgroup
  rw [Option.mem_toList] at hr
  obtain ⟨desc, _, rfl⟩ := Option.map_eq_some_iff.mp hr
  exact regular_inode hblock desc ((Nat.mod_lt _ (Nat.pos_of_ne_zero hgroup)).trans (uint_lt 4 _ _))

lemma regular_names {names : List (List UInt8)} {t : Buffer β × σ} (hr : r ∈ namesRequests D fs names t) :
    Regular r := by
  induction names generalizing t with
  | nil => cases hr
  | cons name names ih =>
    rw [namesRequests] at hr
    rcases List.mem_append.mp hr with hr | hr
    · exact regular_dir hblock hr
    · split at hr
      · cases hr
      · split at hr
        · cases hr
        · exact ih hr

lemma regular_lookup {path : List UInt8} (hr : r ∈ lookupRequests D fs s path) : Regular r := by
  rcases List.mem_append.mp hr with hr | hr
  · exact regular_root hblock hr
  · split at hr
    · cases hr
    · exact regular_names hblock hr

lemma regular_readFile {path : List UInt8} {size : ℕ} (hr : r ∈ readFileRequests D fs s path size) : Regular r := by
  rcases List.mem_append.mp hr with hr | hr
  · exact regular_lookup hblock hr
  · split at hr
    · cases hr
    · obtain rfl := List.mem_singleton.mp hr
      exact regular_block hblock _ _

end Shape

lemma blockSize_of_log {log : ℕ} (hlog : log ≤ 6) :
    1024 * 2 ^ log % 2 ^ 32 % 512 = 0 ∧ 1024 * 2 ^ log % 2 ^ 32 ≤ 65536 := by
  have hpow : 2 ^ log ≤ 2 ^ 6 := Nat.pow_le_pow_right (by decide) hlog
  omega

lemma regular_mount {D : BlockDevice σ β} {s : σ} {r : Request}
    (hlog : sLogBlockSize D (D.read s 1024 superBlockSize D.new).2.1 ≤ 6) (hr : r ∈ mountRequests D s) : Regular r := by
  rcases List.mem_cons.mp hr with rfl | hr
  · refine ⟨?_, ?_⟩
    · rw [Fits]
      decide
    · decide
  · obtain ⟨i, hi, rfl⟩ := List.mem_map.mp hr
    obtain ⟨hmod, hle⟩ := blockSize_of_log hlog
    have hcount : sBlocksCount D (D.read s 1024 superBlockSize D.new).2.1 < 256 ^ 4 := uint_lt 4 _ _
    have hgroups := (List.mem_range.mp hi).trans_le (Nat.div_le_self _ _)
    refine ⟨?_, ?_⟩
    · rw [Fits, groupDescriptorSize]
      dsimp only
      omega
    · rw [groupDescriptorSize]
      dsimp only
      omega

/-- For every super block with blocks of up to 64 KiB and whatever else the disk holds: a call sends the requests
listed for it, and each of them is served exactly. -/
theorem requests_served (D : BlockDevice σ β) (s : σ) (call : Call β) (hcall : call.WellFormed D)
    (hlog : sLogBlockSize D (call.superBlock D s) ≤ 6) :
    (∀ log, call.run (recording D) (s, log) = (call.run D s).map fun s' => (s', log ++ call.requests D s)) ∧
    ∀ r ∈ call.requests D s, Fits r ∧ ServedExactly r := by
  refine ⟨fun log => Call.run_recording hcall, fun r hr => ?_⟩
  have hmod := (blockSize_of_log hlog).1
  have hregular : Regular r := by
    cases call with
    | mount => exact regular_mount hlog hr
    | getRootInode fs inode => exact regular_root (by rw [hcall]; exact hmod) hr
    | getInodeInDir fs dir name => exact regular_dir (by rw [hcall]; exact hmod) hr
    | getInodeFromDir fs dir path => exact regular_names (by rw [hcall.1]; exact hmod) hr
    | getFileSize fs path => exact regular_lookup (by rw [hcall.1]; exact hmod) hr
    | readFile fs path size data => exact regular_readFile (by rw [hcall.1]; exact hmod) hr
  exact ⟨hregular.fits, hregular.servedExactly⟩

theorem requests_served_two_block_image :
    (Call.readFile (twoBlockSystem 6) [47, 102] 8192 fun _ => (0, 0)).requests (twoBlockDevice 6) () =
      [(8448, 256), (12288, 4096), (11008, 256), (20480, 8192)] ∧ ServedExactly (20480, 8192) := by
  have hserved := (requests_served (twoBlockDevice 6) () (.readFile (twoBlockSystem 6) [47, 102] 8192 fun _ => (0, 0))
    ⟨by decide, by decide⟩ (by decide)).2
  exact ⟨by decide, (hserved (20480, 8192) (by decide)).2⟩

end TetraOS.Drivers.Ext2
