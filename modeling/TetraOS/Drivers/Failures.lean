import TetraOS.Drivers.FileContent
import TetraOS.Drivers.Paths
import TetraOS.Drivers.BlockRead

/-! What becomes of failures between the device and the callers of the file system: paths that lead nowhere, and
requests that the device answers with an error. -/

namespace TetraOS.Drivers.Ext2

open Library BlockRead

variable {σ β τ : Type}

/-- How a device answers requests: with a status, and with what it leaves in the buffer. The driver waits until
the status is no longer the one it has put there itself. -/
structure Device (τ : Type) where
  heap : τ → Buffer UInt8
  answer : τ → (sector length : ℕ) → Buffer UInt8 → UInt8 × Buffer UInt8 × τ
  done : ∀ t sector length buffer, (answer t sector length buffer).1 ≠ 0x12

namespace Device

variable (A : Device τ)

abbrev Log (τ : Type) := τ × List UInt8

def basicOp (s : Log τ) (sector length : ℕ) (buffer : Buffer UInt8) : ℤ × Buffer UInt8 × Log τ :=
  if length % 512 ≠ 0 then (-1, buffer, s) else
  let (status, bytes, t) := A.answer s.1 (sector % 2 ^ 32) (length % 2 ^ 32) buffer
  (0, fun i => if i < length % 2 ^ 32 then bytes i else buffer i, (t, s.2 ++ [status]))

def read (s : Log τ) (offset length : ℕ) (buffer : Buffer UInt8) : ℤ × Buffer UInt8 × Log τ :=
  let (res, temp, s) := A.basicOp s (diskOffset offset / 512) (tempSize length) (A.heap s.1)
  if res < 0 then (res, buffer, s) else
  (0, fun i => if i < length then temp (tooMuchAtStart offset + i) else buffer i, s)

def virtio : BlockDevice (Log τ) UInt8 where
  val := id
  zero := 0
  heap := fun s => A.heap s.1
  read := A.read

/-- Requests that complete with status 0 have read the sectors of `disk`. -/
def Honest (disk : ℕ → UInt8) : Prop := ∀ t sector length buffer, (A.answer t sector length buffer).1 = 0 →
  ∀ i < length, (A.answer t sector length buffer).2.1 i = disk (512 * sector + i)

end Device

def partition (disk : ℕ → UInt8) : Buffer UInt8 := fun x => disk (x + 512 * 2048)

def openFile (D : BlockDevice σ β) (fs : EXT2 β) (s : σ) (nextDescriptor : ℕ) (path : List UInt8) :
    Option (ℤ × ℕ × σ) := do
  let (_, _, s) ← lookup D fs s path
  some (3, nextDescriptor + 1, s)

section Names

/-- The names between the slashes of a path, after what is already read of the first. -/
def names (acc : List UInt8) : List UInt8 → List (List UInt8)
  | [] => [acc]
  | c :: rest => if c = 47 then acc :: if rest = [] then [] else names [] rest else names (acc ++ [c]) rest

def components : List UInt8 → List (List UInt8)
  | [] => [[]]
  | c :: rest => if c = 47 then names [] rest else names [] (c :: rest)

variable (D : BlockDevice σ β) (disk : Buffer β) (fs : EXT2 β)

def entryOffset (data : Buffer β) : ℕ → ℕ
  | 0 => 0
  | k + 1 => entryOffset data k + recLen D data (entryOffset data k)

structure Entry (data : Buffer β) (name : List UInt8) (k : ℕ) : Prop where
  inside : ∀ j ≤ k, entryOffset D data j + 8 + nameLen D data (entryOffset D data j) ≤ fs.blockSize
  before : ∀ j < k, entryMatches D data (entryOffset D data j) name = false
  here : entryMatches D data (entryOffset D data k) name = true

section Content

variable (dir : Buffer β) (name : List UInt8)

def IsDirectory : Prop := iMode D dir &&& 0xF000 = 0x4000

def dataBlocks : ℕ := (iSize D dir + fs.blockSize - 1) / fs.blockSize

def dataBlock (k : ℕ) : Buffer β := fun i => disk (fs.blockSize * blockNumber D disk fs.blockSize dir k + i)

/-- A live entry of the directory, in any of its blocks, has the name, and inode number `n`. -/
def Named (n : ℕ) : Prop :=
  IsDirectory D dir ∧ n ≠ 0 ∧ ∃ k < dataBlocks D fs dir, ∃ j,
    let block := dataBlock D disk fs dir k
    let offset := entryOffset D block j
    offset + 8 + nameLen D block offset ≤ fs.blockSize ∧ entryInode D block offset = n ∧
      entryMatches D block offset name = true

def inodePlace (n : ℕ) : Option ℕ :=
  let inodesPerGroup := sInodesPerGroup D fs.superBlock
  fs.groupDescs[(n - 1) / inodesPerGroup]?.map fun desc =>
    fs.blockSize * bgInodeTable D desc + sInodeSize D fs.superBlock * ((n - 1) % inodesPerGroup)

/-- Where the driver looks for inode `n`: products of 32 bits, and inodes of 256 bytes. -/
def readPlace (n : ℕ) : Option ℕ :=
  let number := (n + 2 ^ 32 - 1) % 2 ^ 32
  let inodesPerGroup := sInodesPerGroup D fs.superBlock
  if inodesPerGroup = 0 then none else
  fs.groupDescs[number / inodesPerGroup]?.map fun desc =>
    fs.blockOffset (bgInodeTable D desc) + inodeSize * (number % inodesPerGroup)

def rootPlace : Option ℕ :=
  fs.groupDescs[0]?.map fun desc => fs.blockOffset (bgInodeTable D desc) + inodeSize * 1

def inodeRecord (p : ℕ) (old : Buffer β) : Buffer β := fun i => if i < inodeSize then disk (p + i) else old i

/-- The record at `p` also lies where the driver looks for it. -/
def ReadAt (p : ℕ) (place : Option ℕ) : Prop := ∃ q, place = some q ∧ ∀ i < inodeSize, disk (q + i) = disk (p + i)

/-- The directory has inode `n` under the name. Its entry is the first with the name among the ten in the block that the
driver looks at. -/
def Child (n : ℕ) : Prop :=
  let data : Buffer β := fun i => disk (fs.blockOffset (iBlock D dir 0) + i)
  name ≠ [] ∧ Named D disk fs dir name n ∧
    ∃ k < 10, Entry D fs data name k ∧ entryInode D data (entryOffset D data k) = n

end Content

def NamesFrom : Buffer β → List (List UInt8) → Buffer β → Prop
  | dir, [], inode => inode = dir
  | dir, name :: rest, inode => ∃ n p, Named D disk fs dir name n ∧ inodePlace D fs n = some p ∧
      NamesFrom (inodeRecord disk p dir) rest inode

def Names (path : List UInt8) (inode : Buffer β) : Prop :=
  ∃ p, inodePlace D fs 2 = some p ∧ NamesFrom D disk fs (inodeRecord disk p D.new) (components path) inode

/-- On the way to that inode, the driver looks at each entry, and at each place for the right record. -/
def ReachesFrom : Buffer β → List (List UInt8) → Buffer β → Prop
  | dir, [], inode => inode = dir
  | dir, name :: rest, inode => ∃ n p, Child D disk fs dir name n ∧ inodePlace D fs n = some p ∧
      ReadAt disk p (readPlace D fs n) ∧ ReachesFrom (inodeRecord disk p dir) rest inode

def Reaches (path : List UInt8) (inode : Buffer β) : Prop :=
  ∃ p, inodePlace D fs 2 = some p ∧ ReadAt disk p (rootPlace D fs) ∧
    ReachesFrom D disk fs (inodeRecord disk p D.new) (components path) inode

def FindsFrom : σ → Buffer β → List (List UInt8) → Buffer β → σ → Prop
  | s, dir, [], inode, s' => inode = dir ∧ s' = s
  | s, dir, name :: rest, inode, s' => ∃ n p s₁, Child D disk fs dir name n ∧ inodePlace D fs n = some p ∧
      getInodeInDir D fs s dir name = some (0, inodeRecord disk p dir, s₁) ∧
      FindsFrom s₁ (inodeRecord disk p dir) rest inode s'

def Found (s : σ) (path : List UInt8) : Prop := ∃ p s₁ inode s', inodePlace D fs 2 = some p ∧
  getRootInode D fs s D.new = some (inodeRecord disk p D.new, s₁) ∧
  FindsFrom D disk fs s₁ (inodeRecord disk p D.new) (components path) inode s'

variable {D disk fs}

lemma Named.mode {dir : Buffer β} {name : List UInt8} {n : ℕ} (h : Named D disk fs dir name n) :
    iMode D dir &&& 0x4000 ≠ 0 := by
  intro hmode
  have hdir : iMode D dir &&& 0xF000 = 0x4000 := h.1
  have hbits : iMode D dir &&& 0xF000 &&& 0x4000 = iMode D dir &&& 0x4000 := by
    rw [Nat.and_assoc]
    rfl
  rw [hdir, hmode] at hbits
  exact absurd hbits (by decide)

lemma ReachesFrom.names {dir inode : Buffer β} {names : List (List UInt8)} (h : ReachesFrom D disk fs dir names inode) :
    (∀ name ∈ names, name ≠ []) ∧ NamesFrom D disk fs dir names inode := by
  induction names generalizing dir with
  | nil => exact ⟨fun _ hname => absurd hname List.not_mem_nil, h⟩
  | cons name names ih =>
    obtain ⟨n, p, ⟨hname, hnamed, _⟩, hp, _, hrest⟩ := h
    obtain ⟨hall, hnames⟩ := ih hrest
    exact ⟨List.forall_mem_cons.mpr ⟨hname, hall⟩, n, p, hnamed, hp, hnames⟩

lemma FindsFrom.ne_nil {s s' : σ} {dir inode : Buffer β} {names : List (List UInt8)}
    (h : FindsFrom D disk fs s dir names inode s') : ∀ name ∈ names, name ≠ [] := by
  induction names generalizing s dir with
  | nil => exact fun _ hname => absurd hname List.not_mem_nil
  | cons name names ih =>
    obtain ⟨_, _, _, hchild, _, _, hrest⟩ := h
    exact List.forall_mem_cons.mpr ⟨hchild.1, ih hrest⟩

lemma FindsFrom.lookUpAll {s s' : σ} {dir inode : Buffer β} {names : List (List UInt8)}
    (h : FindsFrom D disk fs s dir names inode s') :
    lookUpAll (findInDir D fs) names (dir, s) = some (0, inode, s') := by
  induction names generalizing s dir with
  | nil =>
    obtain ⟨rfl, rfl⟩ := h
    rfl
  | cons name names ih =>
    obtain ⟨n, p, s₁, _, _, hfound, hrest⟩ := h
    rw [Ext2.lookUpAll, findInDir, hfound]
    exact ih hrest

/-- The loop takes the character after a slash as it is. That is a slash only where a name is empty. -/
lemma names_eq_namesFrom {acc rest : List UInt8} (h : ∀ name ∈ names acc rest, name ≠ []) :
    names acc rest = namesFrom acc rest := by
  fun_induction namesFrom acc rest with
  | case1 acc => rfl
  | case2 acc => rfl
  | case3 acc c hc => rw [names, if_neg hc, names]
  | case4 acc d rest ih =>
    rw [names, if_pos rfl, if_neg (List.cons_ne_nil d rest), names] at h ⊢
    by_cases hd : d = 47
    · rw [if_pos hd] at h
      exact absurd rfl (h [] (by simp))
    · rw [if_neg hd, List.nil_append] at h ⊢
      rw [ih fun name hname => h name (List.mem_cons_of_mem _ hname)]
  | case5 acc c d rest hc ih =>
    rw [names, if_neg hc] at h ⊢
    exact ih h

lemma components_eq_lookups {path : List UInt8} (h : ∀ name ∈ components path, name ≠ []) :
    components path = lookups path := by
  cases path with
  | nil => rfl
  | cons c rest =>
    rw [components] at h ⊢
    rw [lookups]
    split_ifs at h ⊢ <;> exact names_eq_namesFrom h

end Names

/-- Failures have been reported: results that stand for success mean that the path was found and that all requests
completed with status 0, and otherwise the result is negative and the caller's buffer as before. -/
structure Reports (A : Device τ) (disk : ℕ → UInt8) (fs : EXT2 UInt8) (t : τ) (nextDescriptor : ℕ)
    (path : List UInt8) (size : ℕ) (data : Buffer UInt8) : Prop where
  readFile_ok : ∀ data' s', readFile A.virtio fs (t, []) path size data = some (0, data', s') →
    Found A.virtio (partition disk) fs (t, []) path ∧ ∀ x ∈ s'.2, x = 0
  readFile_failed : ¬ (Found A.virtio (partition disk) fs (t, []) path ∧
      ∃ res data' s', readFile A.virtio fs (t, []) path size data = some (res, data', s') ∧ ∀ x ∈ s'.2, x = 0) →
    ∃ res s', readFile A.virtio fs (t, []) path size data = some (res, data, s') ∧ res < 0
  openFile_ok : ∀ res n s', openFile A.virtio fs (t, []) nextDescriptor path = some (res, n, s') → 0 ≤ res →
    Found A.virtio (partition disk) fs (t, []) path ∧ ∀ x ∈ s'.2, x = 0
  openFile_failed : ¬ (Found A.virtio (partition disk) fs (t, []) path ∧
      ∃ res n s', openFile A.virtio fs (t, []) nextDescriptor path = some (res, n, s') ∧ ∀ x ∈ s'.2, x = 0) →
    ∃ res n s', openFile A.virtio fs (t, []) nextDescriptor path = some (res, n, s') ∧ res < 0
  getFileSize : ∀ n s', getFileSize A.virtio fs (t, []) path = some (n, s') →
    ∃ inode, Names A.virtio (partition disk) fs path inode ∧ n = iSize A.virtio inode

section Inversion

variable {D : BlockDevice σ β} {fs : EXT2 β} {s s' : σ} {dir dir' : Buffer β} {res : ℤ} {path name : List UInt8}

variable {Q : σ → Prop} (hQ : ∀ s offset length buffer, Q (D.read s offset length buffer).2.2 → Q s)
include hQ

lemma getInodeInDir_back (h : getInodeInDir D fs s dir name = some (res, dir', s')) (hs : Q s') : Q s := by
  rcases getInodeInDir_cases h with ⟨_, _, _, rfl⟩ | ⟨_, r, data, s₁, hread, hcase⟩
  · exact hs
  have hfirst : Q s₁ → Q s := fun h₁ => hQ s _ _ _ (by rw [hread]; exact h₁)
  rcases hcase with ⟨_, _, _, rfl⟩ | ⟨_, number, desc, _, _, _, hinode, _⟩
  · exact hfirst hs
  · apply hfirst
    rw [readInode] at hinode
    exact hQ s₁ _ _ _ (by rw [hinode]; exact hs)

lemma lookUpAll_back {names : List (List UInt8)}
    (h : lookUpAll (findInDir D fs) names (dir, s) = some (res, dir', s')) (hs : Q s') : Q s := by
  induction names generalizing dir s with
  | nil =>
    obtain ⟨_, _, rfl⟩ := by simpa only [lookUpAll, Option.some.injEq, Prod.mk.injEq] using h
    exact hs
  | cons name names ih =>
    rw [lookUpAll, Option.bind_eq_bind] at h
    obtain ⟨⟨r, d, s₁⟩, hin, h⟩ := Option.bind_eq_some_iff.mp h
    apply getInodeInDir_back hQ hin
    dsimp only at h
    split_ifs at h
    · obtain ⟨_, _, rfl⟩ := by simpa only [Option.some.injEq, Prod.mk.injEq] using h
      exact hs
    · exact ih h

lemma getInodeFromDir_back (hzero : 0 ∉ path)
    (h : getInodeFromDir D fs s dir path = some (res, dir', s')) (hs : Q s') : Q s :=
  lookUpAll_back hQ (getInodeFromDir_eq_lookUpAll hzero ▸ h) hs

end Inversion

section Completed

variable {A : Device τ} {disk : ℕ → UInt8} {s : Device.Log τ} {offset length : ℕ} {buffer : Buffer UInt8}

def Completed (s : Device.Log τ) : Prop := ∀ x ∈ s.2, x = 0

lemma virtio_read_eq (A : Device τ) (s : Device.Log τ) (offset length : ℕ) (buffer : Buffer UInt8) :
    ∃ a : UInt8 × Buffer UInt8 × τ,
      a = A.answer s.1 (diskOffset offset / 512 % 2 ^ 32) (tempSize length % 2 ^ 32) (A.heap s.1) ∧
      A.virtio.read s offset length buffer = (0, (fun i => if i < length then
        (if tooMuchAtStart offset + i < tempSize length % 2 ^ 32 then a.2.1 (tooMuchAtStart offset + i)
          else A.heap s.1 (tooMuchAtStart offset + i)) else buffer i), (a.2.2, s.2 ++ [a.1])) := by
  refine ⟨_, rfl, ?_⟩
  have hsize : tempSize length % 512 = 0 := by
    rw [tempSize]
    omega
  simp only [Device.virtio, Device.read, Device.basicOp, hsize, ne_eq, not_true_eq_false, if_false, lt_irrefl]

lemma completed_back (h : Completed (A.virtio.read s offset length buffer).2.2) : Completed s := by
  obtain ⟨a, _, hread⟩ := virtio_read_eq A s offset length buffer
  rw [hread] at h
  exact fun x hx => h x (List.mem_append_left _ hx)

lemma completed_read (hA : A.Honest disk) (hfit : offset % 512 + length % 512 ≤ 512)
    (hoffset : offset < 2 ^ 40 + 2 ^ 32)
    (hlength : length < 2 ^ 32 - 512) {r : ℤ} {buffer' : Buffer UInt8} {s' : Device.Log τ}
    (h : A.virtio.read s offset length buffer = (r, buffer', s')) (hs : Completed s') :
    buffer' = fun i => if i < length then partition disk (offset + i) else buffer i := by
  obtain ⟨a, ha, hread⟩ := virtio_read_eq A s offset length buffer
  rw [h] at hread
  obtain ⟨_, rfl, rfl⟩ := by simpa only [Prod.mk.injEq] using hread
  have hend : offset + 512 * 2048 + length < 2 ^ 64 := by omega
  have hd := diskOffset_eq hend
  have ht := tooMuchAtStart_eq hend
  have hsize := tempSize_eq hend
  have hstatus : a.1 = 0 := hs _ (by simp)
  rw [ha] at hstatus
  funext i
  split
  · rename_i hi
    rw [ht, hsize, if_pos (by omega), ha, hA _ _ _ _ hstatus _ (by omega), hd, partition]
    exact congrArg disk (by omega)
  · rfl

end Completed

section Search

variable {D : BlockDevice σ β} {fs : EXT2 β} {data data' : Buffer β} {name : List UInt8} {k offset : ℕ}

lemma scan_first (hbefore : ∀ j < k, entryMatches D data (entryOffset D data j) name = false)
    (hhere : entryMatches D data (entryOffset D data k) name = true) {j : ℕ} (hj : j ≤ k) (left : ℕ)
    (hleft : k - j < left) :
    scan D data name left (entryOffset D data j) = (left - (k - j), entryOffset D data k) := by
  induction left generalizing j with
  | zero => cases hleft
  | succ left ih =>
    rw [Ext2.scan]
    rcases hj.eq_or_lt with rfl | hlt
    · rw [hhere, if_pos rfl, Nat.sub_self, Nat.sub_zero]
    · rw [hbefore j hlt, if_neg Bool.false_ne_true]
      refine (ih (j := j + 1) hlt (by omega)).trans ?_
      congr 1
      omega

variable (h : ∀ i < fs.blockSize, data' i = data i)
include h

lemma entryMatches_congr (hin : offset + 8 + nameLen D data offset ≤ fs.blockSize) :
    entryMatches D data' offset name = entryMatches D data offset name := by
  have hlen : nameLen D data' offset = nameLen D data offset := uint_congr fun i _ hi => h i (by omega)
  rw [entryMatches, entryMatches, hlen, Bool.eq_iff_iff]
  simp only [Bool.and_eq_true, beq_iff_eq, List.all_eq_true, List.mem_range]
  refine and_congr_right fun hl => forall₂_congr fun i hi => ?_
  rw [entryName, entryName, h _ (by omega)]

lemma entryInode_congr (hin : offset + 8 ≤ fs.blockSize) : entryInode D data' offset = entryInode D data offset :=
  uint_congr fun i _ hi => h i (by omega)

lemma Entry.scan (he : Entry D fs data name k) {j : ℕ} (hj : j ≤ k) (left : ℕ) (hleft : k - j < left) :
    scan D data' name left (entryOffset D data j) = (left - (k - j), entryOffset D data k) := by
  have hoffset : ∀ i ≤ k, entryOffset D data' i = entryOffset D data i := by
    intro i hi
    induction i with
    | zero => rfl
    | succ i ih =>
      have hin := he.inside i (by omega)
      rw [entryOffset, entryOffset, ih (by omega)]
      exact congrArg _ (uint_congr fun x _ hx => h x (by omega))
  have hmatch : ∀ i ≤ k, entryMatches D data' (entryOffset D data' i) name =
      entryMatches D data (entryOffset D data i) name := fun i hi => by
    rw [hoffset i hi, entryMatches_congr h (he.inside i hi)]
  rw [← hoffset j hj, ← hoffset k le_rfl]
  exact scan_first (fun i hi => (hmatch i hi.le).trans (he.before i hi)) ((hmatch k le_rfl).trans he.here) hj left hleft

end Search

section Resolve

variable {A : Device τ} {disk : ℕ → UInt8} {fs : EXT2 UInt8} {s s' : Device.Log τ} {dir dir' inode : Buffer UInt8}
    {res : ℤ} {name path : List UInt8}

lemma completed_readInode (hA : A.Honest disk) (hblock : fs.blockSize % 512 = 0) {desc : Buffer UInt8} {index : ℕ}
    (hindex : index < 2 ^ 32) (h : readInode A.virtio fs s desc index dir = (dir', s')) (hs : Completed s') :
    dir' = inodeRecord (partition disk) (fs.blockOffset (bgInodeTable A.virtio desc) + inodeSize * index) dir := by
  rw [readInode] at h
  have hoff := blockOffset_mod hblock (bgInodeTable A.virtio desc)
  have hlt := blockOffset_lt fs (bgInodeTable A.virtio desc)
  obtain ⟨r, hr⟩ : ∃ r,
      A.virtio.read s (fs.blockOffset (bgInodeTable A.virtio desc) + inodeSize * index) inodeSize dir =
      (r, dir', s') := ⟨_, Prod.ext rfl h⟩
  have hinode : inodeSize * index = 256 * index := rfl
  exact completed_read hA (by rw [inodeSize]; omega) (by omega) (by decide) hr hs

lemma Child.getInodeInDir (hA : A.Honest disk) (hblock : fs.blockSize % 512 = 0) (hsize : fs.blockSize < 2 ^ 32 - 512)
    {n : ℕ} (hc : Child A.virtio (partition disk) fs dir name n)
    (h : getInodeInDir A.virtio fs s dir name = some (res, dir', s')) (hs : Completed s') :
    res = 0 ∧ ∃ q, readPlace A.virtio fs n = some q ∧ dir' = inodeRecord (partition disk) q dir := by
  obtain ⟨_, hnamed, k, hk, he, hnumber⟩ := hc
  rcases getInodeInDir_cases h with ⟨hm, _⟩ | ⟨_, r, data, s₁, hread, hcase⟩
  · exact absurd hm hnamed.mode
  have h₁ : Completed s₁ := by
    rcases hcase with ⟨_, _, _, rfl⟩ | ⟨_, _, _, _, _, _, hinode, _⟩
    · exact hs
    · rw [readInode] at hinode
      exact completed_back (by rw [Prod.ext_iff] at hinode; rw [hinode.2]; exact hs)
  have hoff := blockOffset_mod hblock (iBlock A.virtio dir 0)
  have hlt := blockOffset_lt fs (iBlock A.virtio dir 0)
  have hdata := completed_read hA (by omega) (by omega) (by omega) hread h₁
  have hagree : ∀ i < fs.blockSize, data i = partition disk (fs.blockOffset (iBlock A.virtio dir 0) + i) := by
    intro i hi
    rw [hdata]
    exact if_pos hi
  have hscan := he.scan hagree (Nat.zero_le k) 10 (by omega)
  rw [show entryOffset A.virtio _ 0 = 0 from rfl] at hscan
  rw [hscan] at hcase
  rcases hcase with ⟨hz, _⟩ | ⟨_, number, desc, hn, hdesc, rfl, hinode, hgroup⟩
  · exact absurd hz (by omega)
  have hin := he.inside k le_rfl
  dsimp only at hn
  rw [entryInode_congr hagree (by omega), hnumber] at hn
  refine ⟨rfl,
    fs.blockOffset (bgInodeTable A.virtio desc) + inodeSize * (number % sInodesPerGroup A.virtio fs.superBlock),
    ?_, completed_readInode hA hblock ?_ hinode hs⟩
  · rw [readPlace, ← hn, if_neg hgroup, hdesc, Option.map_some]
  · exact (Nat.mod_lt _ (Nat.pos_of_ne_zero hgroup)).trans (uint_lt 4 _ _)

lemma inodeRecord_eq_iff {image : ℕ → UInt8} {p q : ℕ} :
    inodeRecord image q dir = inodeRecord image p dir ↔ ∀ i < inodeSize, image (q + i) = image (p + i) := by
  constructor
  · intro h i hi
    have hbyte := congrFun h i
    rwa [inodeRecord, inodeRecord, if_pos hi, if_pos hi] at hbyte
  · intro h
    funext i
    rw [inodeRecord, inodeRecord]
    split
    · rename_i hi
      exact h i hi
    · rfl

lemma completed_getRootInode (hA : A.Honest disk) (hblock : fs.blockSize % 512 = 0)
    (h : getRootInode A.virtio fs s dir = some (dir', s')) (hs : Completed s') :
    ∃ q, rootPlace A.virtio fs = some q ∧ dir' = inodeRecord (partition disk) q dir := by
  rw [getRootInode, Option.bind_eq_bind] at h
  obtain ⟨desc, hdesc, h⟩ := Option.bind_eq_some_iff.mp h
  exact ⟨_, by rw [rootPlace, hdesc, Option.map_some], completed_readInode hA hblock (by decide) (Option.some.inj h) hs⟩

variable (hA : A.Honest disk) (hblock : fs.blockSize % 512 = 0) (hsize : fs.blockSize < 2 ^ 32 - 512)
include hA hblock hsize

lemma ReachesFrom.finds {names : List (List UInt8)} (hr : ReachesFrom A.virtio (partition disk) fs dir names inode)
    (h : lookUpAll (findInDir A.virtio fs) names (dir, s) = some (res, dir', s')) (hs : Completed s') :
    dir' = inode ∧ FindsFrom A.virtio (partition disk) fs s dir names inode s' := by
  induction names generalizing dir s with
  | nil =>
    rw [lookUpAll, Option.some.injEq, Prod.mk.injEq, Prod.mk.injEq] at h
    obtain ⟨_, rfl, rfl⟩ := h
    exact ⟨hr.symm, hr, rfl⟩
  | cons name names ih =>
    obtain ⟨n, p, hchild, hp, ⟨q, hq, hagree⟩, hr⟩ := hr
    rw [lookUpAll, Option.bind_eq_bind] at h
    obtain ⟨⟨r, d, s₁⟩, hin, h⟩ := Option.bind_eq_some_iff.mp h
    dsimp only at h
    have h₁ : Completed s₁ := by
      split_ifs at h
      · obtain ⟨_, _, rfl⟩ := by simpa only [Option.some.injEq, Prod.mk.injEq] using h
        exact hs
      · exact lookUpAll_back (fun _ _ _ _ => completed_back) h hs
    obtain ⟨rfl, q', hq', rfl⟩ := hchild.getInodeInDir hA hblock hsize hin h₁
    obtain rfl : q = q' := Option.some.inj (hq.symm.trans hq')
    rw [if_neg (lt_irrefl 0), inodeRecord_eq_iff.mpr hagree] at h
    obtain ⟨hinode, hrest⟩ := ih hr h
    rw [findInDir, inodeRecord_eq_iff.mpr hagree] at hin
    exact ⟨hinode, n, p, s₁, hchild, hp, hin, hrest⟩

lemma FindsFrom.reaches {names : List (List UInt8)}
    (hf : FindsFrom A.virtio (partition disk) fs s dir names inode s') (hs : Completed s') :
    ReachesFrom A.virtio (partition disk) fs dir names inode := by
  induction names generalizing dir s with
  | nil => exact hf.1
  | cons name names ih =>
    obtain ⟨n, p, s₁, hchild, hp, hfound, hrest⟩ := hf
    have h₁ : Completed s₁ := lookUpAll_back (fun _ _ _ _ => completed_back) hrest.lookUpAll hs
    obtain ⟨_, q, hq, hrecord⟩ := hchild.getInodeInDir hA hblock hsize hfound h₁
    exact ⟨n, p, hchild, hp, ⟨q, hq, inodeRecord_eq_iff.mp hrecord.symm⟩, ih hrest⟩

end Resolve

section Reports

variable {A : Device τ} {disk : ℕ → UInt8} {fs : EXT2 UInt8} {t : τ} {nextDescriptor size : ℕ}
    {path : List UInt8} {data inode : Buffer UInt8}

/-- The driver reaches the inode of the path on the disk, and the call returns after requests that all completed with
status 0. -/
def Succeeds (A : Device τ) (disk : ℕ → UInt8) (fs : EXT2 UInt8) (t : τ) (path : List UInt8) (size : ℕ)
    (data : Buffer UInt8) : Prop :=
  (∃ inode, Reaches A.virtio (partition disk) fs path inode) ∧
    ∃ res data' s', readFile A.virtio fs (t, []) path size data = some (res, data', s') ∧ ∀ x ∈ s'.2, x = 0

lemma readFile_cases {D : BlockDevice σ β} {fs : EXT2 β} {s s' : σ} {data data' : Buffer β} {res : ℤ}
    (h : readFile D fs s path size data = some (res, data', s')) : res = 0 ∧ ∃ r inode s₁,
      lookup D fs s path = some (r, inode, s₁) ∧
      ∃ r', D.read s₁ (fs.blockOffset (iBlock D inode 0)) size data = (r', data', s') := by
  rw [readFile, Option.bind_eq_bind] at h
  obtain ⟨⟨r, inode, s₁⟩, hlookup, h⟩ := Option.bind_eq_some_iff.mp h
  simp only [Option.some.injEq, Prod.mk.injEq] at h
  obtain ⟨rfl, rfl, rfl⟩ := h
  exact ⟨rfl, r, inode, s₁, hlookup, _, rfl⟩

lemma mount_blockSize {D : BlockDevice σ β} {fs : EXT2 β} {s s' : σ} (h : mount D s = some (fs, s')) :
    fs.blockSize % 512 = 0 ∧ fs.blockSize < 2 ^ 32 - 512 := by
  obtain ⟨_, superBlock, _, _, _, _, _, _, hsize, _⟩ := mount_cases h
  have hdvd : fs.blockSize % 1024 = 0 := by
    rw [hsize, Nat.mod_mod_of_dvd _ (by decide), Nat.mul_mod_right]
  have hlt : fs.blockSize < 2 ^ 32 := by
    rw [hsize]
    exact Nat.mod_lt _ (by decide)
  constructor <;> omega

variable (hA : A.Honest disk) (hblock : fs.blockSize % 512 = 0) (hsize : fs.blockSize < 2 ^ 32 - 512) (hzero : 0 ∉ path)

lemma Reaches.names {D : BlockDevice σ β} {image : Buffer β} {fs : EXT2 β} {inode : Buffer β}
    (h : Reaches D image fs path inode) : Names D image fs path inode := by
  obtain ⟨p, hp, _, hr⟩ := h
  exact ⟨p, hp, hr.names.2⟩

include hzero

lemma Found.lookup {D : BlockDevice σ β} {image : Buffer β} {fs : EXT2 β} {s : σ} (h : Found D image fs s path) :
    ∃ p s₁ inode s', inodePlace D fs 2 = some p ∧
      getRootInode D fs s D.new = some (inodeRecord image p D.new, s₁) ∧
      FindsFrom D image fs s₁ (inodeRecord image p D.new) (components path) inode s' ∧
      lookup D fs s path = some (0, inode, s') := by
  obtain ⟨p, s₁, inode, s', hp, hroot, hf⟩ := h
  refine ⟨p, s₁, inode, s', hp, hroot, hf, ?_⟩
  have hall := hf.lookUpAll
  rw [components_eq_lookups hf.ne_nil] at hall
  rw [Ext2.lookup, hroot, Option.bind_eq_bind, Option.bind_some]
  exact (getInodeFromDir_eq_lookUpAll hzero).trans hall

include hA hblock hsize

lemma Reaches.found (hr : Reaches A.virtio (partition disk) fs path inode) {r : ℤ} {inode' : Buffer UInt8}
    {s s' : Device.Log τ} (h : lookup A.virtio fs s path = some (r, inode', s')) (hs : Completed s') :
    inode' = inode ∧ Found A.virtio (partition disk) fs s path := by
  obtain ⟨p, hp, ⟨q, hq, hagree⟩, hr⟩ := hr
  rw [Ext2.lookup, Option.bind_eq_bind] at h
  obtain ⟨⟨root, s₁⟩, hroot, h⟩ := Option.bind_eq_some_iff.mp h
  have h₁ : Completed s₁ := getInodeFromDir_back (fun _ _ _ _ => completed_back) hzero h hs
  obtain ⟨q', hq', rfl⟩ := completed_getRootInode hA hblock hroot h₁
  obtain rfl : q = q' := Option.some.inj (hq.symm.trans hq')
  rw [inodeRecord_eq_iff.mpr hagree] at hroot h
  dsimp only at h
  rw [getInodeFromDir_eq_lookUpAll hzero, ← components_eq_lookups hr.names.1] at h
  obtain ⟨hinode, hf⟩ := hr.finds hA hblock hsize h hs
  exact ⟨hinode, p, s₁, inode, s', hp, hroot, hf⟩

lemma Found.reaches {s s' : Device.Log τ} {r : ℤ} {inode' : Buffer UInt8}
    (h : Found A.virtio (partition disk) fs s path) (hlookup : Ext2.lookup A.virtio fs s path = some (r, inode', s'))
    (hs : Completed s') : Reaches A.virtio (partition disk) fs path inode' := by
  obtain ⟨p, s₁, inode, s'', hp, hroot, hf, hfound⟩ := h.lookup hzero
  rw [hlookup, Option.some.injEq, Prod.mk.injEq, Prod.mk.injEq] at hfound
  obtain ⟨_, rfl, rfl⟩ := hfound
  have h₁ : Completed s₁ := lookUpAll_back (fun _ _ _ _ => completed_back) hf.lookUpAll hs
  obtain ⟨q, hq, hrecord⟩ := completed_getRootInode hA hblock hroot h₁
  exact ⟨p, hp, ⟨q, hq, inodeRecord_eq_iff.mp hrecord.symm⟩, hf.reaches hA hblock hsize hs⟩

lemma Succeeds.reports (h : Succeeds A disk fs t path size data) :
    Reports A disk fs t nextDescriptor path size data := by
  obtain ⟨⟨inode, hn⟩, res, data', s', hread, hs⟩ := h
  obtain ⟨_, r, inode', s₁, hlookup, r', hr'⟩ := readFile_cases hread
  have h₁ : Completed s₁ := completed_back (by rw [hr']; exact hs)
  obtain ⟨rfl, hfound⟩ := hn.found hA hblock hsize hzero hlookup h₁
  have hopen : openFile A.virtio fs (t, []) nextDescriptor path = some (3, nextDescriptor + 1, s₁) := by
    rw [openFile, hlookup]
    rfl
  refine ⟨fun d s h => ?_, fun h => ?_, fun r n s h _ => ?_, fun h => ?_, fun n s h => ?_⟩
  · rw [hread, Option.some.injEq, Prod.mk.injEq, Prod.mk.injEq] at h
    exact ⟨hfound, h.2.2 ▸ hs⟩
  · exact absurd ⟨hfound, _, _, _, hread, hs⟩ h
  · rw [hopen, Option.some.injEq, Prod.mk.injEq, Prod.mk.injEq] at h
    exact ⟨hfound, h.2.2 ▸ h₁⟩
  · exact absurd ⟨hfound, _, _, _, hopen, h₁⟩ h
  · rw [Ext2.getFileSize, hlookup, Option.bind_eq_bind, Option.bind_some, Option.some.injEq, Prod.mk.injEq] at h
    exact ⟨_, hn.names, h.1.symm⟩

lemma Reports.succeeds (h : Reports A disk fs t nextDescriptor path size data) :
    Succeeds A disk fs t path size data := by
  have hok : Found A.virtio (partition disk) fs (t, []) path ∧ ∃ res data' s',
      readFile A.virtio fs (t, []) path size data = some (res, data', s') ∧ ∀ x ∈ s'.2, x = 0 := by
    by_contra hc
    obtain ⟨res, s', hread, hneg⟩ := h.readFile_failed hc
    exact absurd (readFile_cases hread).1 hneg.ne
  obtain ⟨hfound, res, data', s', hread, hs⟩ := hok
  obtain ⟨_, r, inode, s₁, hlookup, r', hr'⟩ := readFile_cases hread
  have h₁ : Completed s₁ := completed_back (by rw [hr']; exact hs)
  exact ⟨⟨inode, hfound.reaches hA hblock hsize hzero hlookup h₁⟩, res, data', s', hread, hs⟩

end Reports

/-- The driver drops the results of the lookup and the statuses of the requests, so that failures are reported
exactly when there are none, and the size is that of the right inode where the record is read from the right place. -/
theorem reports_iff_succeeds (A : Device τ) (disk : ℕ → UInt8) (hA : A.Honest disk) (fs : EXT2 UInt8)
    (s₀ s₁ : Device.Log τ) (hmount : mount A.virtio s₀ = some (fs, s₁)) (t : τ) (nextDescriptor : ℕ)
    (path : List UInt8) (hpath : 0 ∉ path) (size : ℕ) (data : Buffer UInt8) :
    Reports A disk fs t nextDescriptor path size data ↔ Succeeds A disk fs t path size data := by
  obtain ⟨hblock, hsize⟩ := mount_blockSize hmount
  exact ⟨fun h => h.succeeds hA hblock hsize hpath, fun h => h.reports hA hblock hsize hpath⟩

def reliable (disk : ℕ → UInt8) : Device Unit where
  heap := fun _ _ => 0
  answer := fun _ sector _ _ => (0, fun i => disk (512 * sector + i), ())
  done := fun _ _ _ _ => (by decide : (0 : UInt8) ≠ 0x12)

lemma reliable_honest (disk : ℕ → UInt8) : (reliable disk).Honest disk := fun _ _ _ _ _ _ _ => rfl

def twoBlockDisk : ℕ → UInt8 := fun x => twoBlockImage 6 (x - 512 * 2048)

def twoBlockMounted : EXT2 UInt8 where
  superBlock := ((reliable twoBlockDisk).virtio.read ((), []) 1024 92 (reliable twoBlockDisk).virtio.new).2.1
  blockSize := 4096
  groupDescs := [((reliable twoBlockDisk).virtio.read ((), [0]) 4096 32 (reliable twoBlockDisk).virtio.new).2.1]

lemma twoBlockMounted_eq :
    mount (reliable twoBlockDisk).virtio ((), []) = some (twoBlockMounted, ((), [0, 0])) := by rfl

lemma twoBlock_entry : Entry (reliable twoBlockDisk).virtio twoBlockMounted
    (fun i => partition twoBlockDisk (4096 * 3 + i)) [102] 2 := by
  refine ⟨?_, ?_, by decide⟩
  · intro j hj
    interval_cases j <;> decide
  · intro j hj
    interval_cases j <;> decide

def twoBlockRecord (p : ℕ) : Buffer UInt8 :=
  inodeRecord (partition twoBlockDisk) p (reliable twoBlockDisk).virtio.new

lemma twoBlock_child :
    Child (reliable twoBlockDisk).virtio (partition twoBlockDisk) twoBlockMounted (twoBlockRecord 8448) [102] 12 :=
  ⟨by decide, ⟨rfl, by decide, 0, by decide, 2, by decide, by decide, by decide⟩, 2, by decide, twoBlock_entry,
    by decide⟩

theorem reports_existing_file : mount (reliable twoBlockDisk).virtio ((), []) = some (twoBlockMounted, ((), [0, 0])) ∧
    Reports (reliable twoBlockDisk) twoBlockDisk twoBlockMounted () 3 [47, 102] 8192 fun _ => 0 := by
  refine ⟨twoBlockMounted_eq, ?_⟩
  refine (reports_iff_succeeds _ _ (reliable_honest _) _ _ _ twoBlockMounted_eq () 3 [47, 102]
    (by decide) 8192 _).mpr ⟨⟨_, 8448, by decide, ⟨8448, by decide, fun _ _ => rfl⟩, 12, 11008, twoBlock_child,
      by decide, ⟨11008, by decide, fun _ _ => rfl⟩, rfl⟩, 0, _, ((), [0, 0, 0, 0]), rfl, by simp⟩

/-- There is no `g`: `read_file` returns 0 with the block of the root directory, and `get_file_size` the size of
that. -/
theorem not_reports_missing_file :
    mount (reliable twoBlockDisk).virtio ((), []) = some (twoBlockMounted, ((), [0, 0])) ∧
    (readFile (reliable twoBlockDisk).virtio twoBlockMounted ((), []) [47, 103] 8192 fun _ => 0).map Prod.fst = some 0 ∧
    (getFileSize (reliable twoBlockDisk).virtio twoBlockMounted ((), []) [47, 103]).map Prod.fst = some 4096 ∧
    ¬ Reports (reliable twoBlockDisk) twoBlockDisk twoBlockMounted () 3 [47, 103] 8192 fun _ => 0 := by
  refine ⟨twoBlockMounted_eq, by decide, by decide, fun h => ?_⟩
  have hread : (readFile (reliable twoBlockDisk).virtio twoBlockMounted ((), []) [47, 103] 8192 fun _ => 0).isSome := by
    decide
  obtain ⟨⟨res, data', s'⟩, hread⟩ := Option.isSome_iff_exists.mp hread
  obtain ⟨rfl, _⟩ := readFile_cases hread
  obtain ⟨hfound, _⟩ := h.readFile_ok data' s' hread
  obtain ⟨_, _, _, _, _, _, _, hlookup⟩ := hfound.lookup (by decide)
  have hfailed :
      (lookup (reliable twoBlockDisk).virtio twoBlockMounted ((), []) [47, 103]).map Prod.fst = some (-1) := by
    decide
  rw [hlookup] at hfailed
  cases hfailed

end TetraOS.Drivers.Ext2
