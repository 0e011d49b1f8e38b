import TetraOS.Drivers.Directory
import TetraOS.Library.ByteLists

/-! A file system as it is meant: inodes that are files or folders, and folders that name inodes. On a disk that stores
one, the driver resolves the paths to the inodes they lead to. -/

namespace TetraOS.Drivers.Ext2

open Library ByteMemory

section Tree

structure DirEntry where
  inode : ℕ
  recLen : ℕ
  fileType : UInt8
  name : List UInt8
  inode_pos : 0 < inode
  inode_lt : inode < 2 ^ 32
  recLen_lt : recLen < 2 ^ 16
  name_lt : name.length < 2 ^ 8
  fits : 8 + name.length ≤ recLen

inductive Node where
  | file (content : List UInt8)
  | folder (entries : List DirEntry)

abbrev FileSystem := ℕ → Option Node

/-- The driver only looks at the first ten entries of a folder. -/
def child (entries : List DirEntry) (name : List UInt8) : Option DirEntry := (entries.take 10).find? (·.name = name)

def FileSystem.resolve (g : FileSystem) : ℕ → List (List UInt8) → Option ℕ
  | n, [] => some n
  | n, name :: names =>
    match g n with
    | some (.folder entries) => (child entries name).bind fun e => g.resolve e.inode names
    | _ => none

end Tree

section Stored

def DirEntry.encode (e : DirEntry) : List UInt8 :=
  bytes 4 e.inode ++ bytes 2 e.recLen ++ bytes 1 e.name.length ++ [e.fileType] ++ e.name ++
    List.replicate (e.recLen - (8 + e.name.length)) 0

lemma DirEntry.length_encode (e : DirEntry) : e.encode.length = e.recLen := by
  have hfits := e.fits
  simp only [DirEntry.encode, List.length_append, length_bytes, List.length_singleton, List.length_replicate]
  omega

def encodeFolder (entries : List DirEntry) : List UInt8 := entries.flatMap DirEntry.encode

variable {σ β : Type} (D : BlockDevice σ β) (disk : Buffer β) (fs : EXT2 β)

def record (p : ℕ) : Buffer β := fun i => disk (p + i)

def image : Memory := fun x => D.val (disk x)

/-- The node of an inode record. A file is in blocks that follow each other, and the entries of a folder fill one block
to its end. -/
def StoredAt (p : ℕ) : Node → Prop
  | .file content => iMode D (record disk p) &&& 0x4000 = 0 ∧ iSize D (record disk p) = content.length ∧
      Holds (image D disk) (fs.blockSize * iBlock D (record disk p) 0) content
  | .folder entries => iMode D (record disk p) &&& 0x4000 ≠ 0 ∧ (encodeFolder entries).length = fs.blockSize ∧
      Holds (image D disk) (fs.blockSize * iBlock D (record disk p) 0) (encodeFolder entries)

/-- The disk stores the file system `g`, in inodes of 256 bytes, and the blocks of its folders and files start below
4 GiB. -/
structure Stores (g : FileSystem) : Prop where
  inodeSize : sInodeSize D fs.superBlock = inodeSize
  groups : 1 < sInodesPerGroup D fs.superBlock
  tables : ∀ desc ∈ fs.groupDescs, fs.blockSize * bgInodeTable D desc < 2 ^ 32
  root : (g 2).isSome
  closed : ∀ n entries, g n = some (.folder entries) → ∀ e ∈ entries, (g e.inode).isSome
  node : ∀ n node, g n = some node → ∃ p, inodePlace D fs n = some p ∧
    fs.blockSize * iBlock D (record disk p) 0 < 2 ^ 32 ∧ StoredAt D disk fs p node

end Stored

section Scan

variable {σ β : Type} {D : BlockDevice σ β} {data : Buffer β} {name : List UInt8} {a : ℕ} {e : DirEntry}

lemma entry_of_holds (name : List UInt8) (h : Holds (image D data) a e.encode) :
    entryInode D data a = e.inode ∧ recLen D data a = e.recLen ∧
      entryMatches D data a name = decide (e.name = name) := by
  simp only [DirEntry.encode, holds_append, length_bytes, List.length_append, List.length_singleton] at h
  obtain ⟨⟨⟨⟨⟨hinode, hrec⟩, hlen⟩, _⟩, hname⟩, _⟩ := h
  have hnameLen : nameLen D data a = e.name.length := load_of_holds hlen e.name_lt
  have hbyte : ∀ i (hi : i < e.name.length), entryName D data a i = e.name[i] := holds_iff.mp hname
  refine ⟨load_of_holds hinode e.inode_lt, load_of_holds hrec e.recLen_lt, ?_⟩
  rw [entryMatches, hnameLen, Bool.eq_iff_iff, Bool.and_eq_true, beq_iff_eq, List.all_eq_true, decide_eq_true_iff]
  constructor
  · rintro ⟨hlength, hall⟩
    refine List.ext_getElem hlength.symm fun i hi hi' => ?_
    have hi := hall i (List.mem_range.mpr hi')
    rw [beq_iff_eq, List.getD_eq_getElem _ _ hi', hbyte] at hi
    exact hi.symm
  · rintro rfl
    refine ⟨rfl, fun i hi => ?_⟩
    rw [beq_iff_eq, hbyte i (List.mem_range.mp hi), List.getD_eq_getElem]

lemma scan_found {entries : List DirEntry} {left : ℕ} (h : Holds (image D data) a (encodeFolder entries))
    (hfind : (entries.take left).find? (·.name = name) = some e) :
    (scan D data name left a).1 ≠ 0 ∧ entryInode D data (scan D data name left a).2 = e.inode := by
  induction left generalizing entries a with
  | zero => cases hfind
  | succ left ih =>
    cases entries with
    | nil => cases hfind
    | cons first entries =>
      rw [encodeFolder, List.flatMap_cons, holds_append, DirEntry.length_encode] at h
      obtain ⟨hinode, hrec, hmatch⟩ := entry_of_holds name h.1
      rw [scan, hmatch]
      rw [List.take_succ_cons, List.find?_cons] at hfind
      by_cases hname : first.name = name
      · rw [decide_eq_true hname] at hfind ⊢
        cases hfind
        exact ⟨Nat.succ_ne_zero left, hinode⟩
      · rw [decide_eq_false hname] at hfind ⊢
        rw [if_neg Bool.false_ne_true, hrec]
        exact ih h.2 hfind

lemma scan_zeros (hname : name ≠ []) (hzero : ∀ i < 8, D.val (data (a + i)) = 0) (left : ℕ) :
    (scan D data name left a).1 = 0 := by
  have hzeros : Zero (image D data) a 8 := fun x hx hx' => by
    rw [← Nat.add_sub_of_le hx]
    exact hzero (x - a) (by omega)
  have hlen : nameLen D data a = 0 := hzeros.load (Nat.le_add_right _ _) (by omega)
  have hrec : recLen D data a = 0 := hzeros.load (Nat.le_add_right _ _) (by omega)
  induction left with
  | zero => rfl
  | succ left ih =>
    have hmatch : entryMatches D data a name = false := by
      rw [entryMatches, hlen, beq_false_of_ne fun h => hname (List.length_eq_zero_iff.mp h), Bool.false_and]
    rw [scan, hmatch, if_neg Bool.false_ne_true, hrec]
    exact ih

lemma scan_none {entries : List DirEntry} {left : ℕ} (hname : name ≠ [])
    (h : Holds (image D data) a (encodeFolder entries))
    (hzero : ∀ i < 8, D.val (data (a + (encodeFolder entries).length + i)) = 0)
    (hfind : (entries.take left).find? (·.name = name) = none) : (scan D data name left a).1 = 0 := by
  induction left generalizing entries a with
  | zero => rfl
  | succ left ih =>
    cases entries with
    | nil => exact scan_zeros hname hzero _
    | cons first entries =>
      rw [encodeFolder, List.flatMap_cons, List.length_append, DirEntry.length_encode, ← Nat.add_assoc] at hzero
      rw [encodeFolder, List.flatMap_cons, holds_append, DirEntry.length_encode] at h
      obtain ⟨_, hrec, hmatch⟩ := entry_of_holds name h.1
      rw [List.take_succ_cons, List.find?_cons] at hfind
      cases hfirst : decide (first.name = name) with
      | true =>
        rw [hfirst] at hfind
        cases hfind
      | false =>
        rw [hfirst] at hfind
        rw [scan, hmatch, hfirst, if_neg Bool.false_ne_true, hrec]
        exact ih h.2 hzero hfind

end Scan

section Resolution

variable {σ β : Type} {D : BlockDevice σ β} {disk : Buffer β} {fs : EXT2 β} {g : FileSystem} {n p : ℕ}
    {dir : Buffer β} {name : List UInt8} {entries : List DirEntry} {e : DirEntry}

def IsRecord (disk : Buffer β) (p : ℕ) (inode : Buffer β) : Prop := ∀ i < inodeSize, inode i = record disk p i

lemma isRecord_read (disk : Buffer β) (p : ℕ) (dir : Buffer β) :
    IsRecord disk p fun i => if i < inodeSize then disk (p + i) else dir i := fun _ hi => if_pos hi

lemma IsRecord.iMode (h : IsRecord disk p dir) : iMode D dir = iMode D (record disk p) :=
  uint_congr fun i _ hi => h i (hi.trans (by decide))

lemma IsRecord.iSize (h : IsRecord disk p dir) : iSize D dir = iSize D (record disk p) :=
  uint_congr fun i _ hi => h i (hi.trans (by decide))

lemma IsRecord.iBlock (h : IsRecord disk p dir) : iBlock D dir 0 = iBlock D (record disk p) 0 :=
  uint_congr fun i _ hi => h i (hi.trans (by decide))

lemma Stores.readPlace_eq (h : Stores D disk fs g) (hpos : 0 < n) (hlt : n < 2 ^ 32) :
    readPlace D fs n = inodePlace D fs n := by
  have hgroups := h.groups
  have hnumber : (n + 2 ^ 32 - 1) % 2 ^ 32 = n - 1 := by omega
  rw [readPlace, inodePlace, hnumber, h.inodeSize, if_neg (by omega)]
  cases hdesc : fs.groupDescs[(n - 1) / sInodesPerGroup D fs.superBlock]? with
  | none => rfl
  | some desc =>
    have hlow := h.tables desc (List.mem_of_getElem? hdesc)
    rw [Option.map_some, Option.map_some, EXT2.blockOffset, Nat.mod_eq_of_lt hlow]

lemma Stores.firstBlock (h : Stores D disk fs g) (hn : g n = some (.folder entries))
    (hplace : inodePlace D fs n = some p) (hdir : IsRecord disk p dir) (s : σ) :
    iMode D dir &&& 0x4000 ≠ 0 ∧ (encodeFolder entries).length = fs.blockSize ∧
      Holds (image D (firstBlock D disk fs s dir)) 0 (encodeFolder entries) := by
  obtain ⟨p', hp', hlow, hmode, htiles, hholds⟩ := h.node n _ hn
  obtain rfl : p = p' := Option.some.inj (hplace.symm.trans hp')
  refine ⟨hdir.iMode ▸ hmode, htiles, holds_iff.mpr fun i hi => ?_⟩
  have hbyte := holds_iff.mp hholds i hi
  rw [← hbyte, image, Ext2.firstBlock, if_pos (by omega), hdir.iBlock, EXT2.blockOffset, Nat.mod_eq_of_lt hlow,
    Nat.zero_add]
  rfl

lemma child_mem (h : child entries name = some e) : e ∈ entries :=
  List.mem_of_mem_take (List.mem_of_find?_eq_some h)

variable (hstores : Stores D disk fs g) (hserves : Serves D disk)
include hstores hserves

lemma getInodeInDir_child (hn : g n = some (.folder entries)) (hplace : inodePlace D fs n = some p)
    (hdir : IsRecord disk p dir) (hchild : child entries name = some e) (s : σ) :
    ∃ p' dir' s', inodePlace D fs e.inode = some p' ∧ IsRecord disk p' dir' ∧
      getInodeInDir D fs s dir name = some (0, dir', s') := by
  obtain ⟨hmode, _, hholds⟩ := hstores.firstBlock hn hplace hdir s
  obtain ⟨hleft, hinode⟩ := scan_found hholds hchild
  obtain ⟨node, hnode⟩ := Option.isSome_iff_exists.mp (hstores.closed n entries hn e (child_mem hchild))
  obtain ⟨p', hp', _⟩ := hstores.node e.inode node hnode
  obtain ⟨s₁, s₂, heq⟩ := getInodeInDir_eq fs hserves hmode s name
  refine ⟨p', _, s₂, hp', isRecord_read disk p' dir, ?_⟩
  rw [heq]
  dsimp only
  rw [if_neg hleft, hinode, hstores.readPlace_eq e.inode_pos e.inode_lt, hp', Option.map_some]

lemma getInodeInDir_none (hheap : ∀ s i, D.val (D.heap s i) = 0) (hname : name ≠ [])
    (hn : g n = some (.folder entries)) (hplace : inodePlace D fs n = some p) (hdir : IsRecord disk p dir)
    (hchild : child entries name = none) (s : σ) : ∃ s', getInodeInDir D fs s dir name = some (-1, dir, s') := by
  obtain ⟨hmode, htiles, hholds⟩ := hstores.firstBlock hn hplace hdir s
  have hzero : ∀ i < 8, D.val (Ext2.firstBlock D disk fs s dir (0 + (encodeFolder entries).length + i)) = 0 := by
    intro i _
    rw [Ext2.firstBlock, if_neg (by omega)]
    exact hheap s _
  obtain ⟨s₁, s₂, heq⟩ := getInodeInDir_eq fs hserves hmode s name
  refine ⟨s₁, ?_⟩
  rw [heq]
  exact if_pos (scan_none hname hholds hzero hchild)

lemma lookUpAll_resolves {names : List (List UInt8)} {n' : ℕ} (hplace : inodePlace D fs n = some p)
    (hdir : IsRecord disk p dir) (hresolve : g.resolve n names = some n') (s : σ) :
    ∃ p' dir' s', inodePlace D fs n' = some p' ∧ IsRecord disk p' dir' ∧
      lookUpAll (findInDir D fs) names (dir, s) = some (0, dir', s') := by
  induction names generalizing n p dir s with
  | nil =>
    cases hresolve
    exact ⟨p, dir, s, hplace, hdir, rfl⟩
  | cons name names ih =>
    rw [FileSystem.resolve] at hresolve
    cases hn : g n with
    | none =>
      rw [hn] at hresolve
      cases hresolve
    | some node =>
      rw [hn] at hresolve
      cases node with
      | file content => cases hresolve
      | folder entries =>
        obtain ⟨e, hchild, hrest⟩ := Option.bind_eq_some_iff.mp hresolve
        obtain ⟨p₁, dir₁, s₁, hp₁, hdir₁, hin⟩ := getInodeInDir_child hstores hserves hn hplace hdir hchild s
        obtain ⟨p', dir', s', hp', hdir', hall⟩ := ih hp₁ hdir₁ hrest s₁
        refine ⟨p', dir', s', hp', hdir', ?_⟩
        rw [lookUpAll, findInDir, hin]
        exact hall

lemma lookUpAll_fails (hheap : ∀ s i, D.val (D.heap s i) = 0) {names : List (List UInt8)}
    (hnames : ∀ name ∈ names, name ≠ []) (hsome : (g n).isSome) (hplace : inodePlace D fs n = some p)
    (hdir : IsRecord disk p dir) (hresolve : g.resolve n names = none) (s : σ) :
    ∃ dir' s', lookUpAll (findInDir D fs) names (dir, s) = some (-1, dir', s') := by
  induction names generalizing n p dir s with
  | nil => cases hresolve
  | cons name names ih =>
    obtain ⟨node, hn⟩ := Option.isSome_iff_exists.mp hsome
    rw [FileSystem.resolve, hn] at hresolve
    have hmissed : (∃ s', getInodeInDir D fs s dir name = some (-1, dir, s')) →
        ∃ dir' s', lookUpAll (findInDir D fs) (name :: names) (dir, s) = some (-1, dir', s') := by
      rintro ⟨s', hin⟩
      refine ⟨dir, s', ?_⟩
      rw [lookUpAll, findInDir, hin]
      rfl
    cases node with
    | file content =>
      obtain ⟨p', hp', _, hmode, _⟩ := hstores.node n _ hn
      obtain rfl : p = p' := Option.some.inj (hplace.symm.trans hp')
      refine hmissed ⟨s, ?_⟩
      rw [getInodeInDir, if_pos (hdir.iMode.symm ▸ hmode)]
    | folder entries =>
      cases hchild : child entries name with
      | none =>
        have hname := hnames name List.mem_cons_self
        exact hmissed (getInodeInDir_none hstores hserves hheap hname hn hplace hdir hchild s)
      | some e =>
        obtain ⟨p₁, dir₁, s₁, hp₁, hdir₁, hin⟩ := getInodeInDir_child hstores hserves hn hplace hdir hchild s
        have hbind : (child entries name).bind (fun e => g.resolve e.inode names) = none := hresolve
        have hrest : g.resolve e.inode names = none := by rwa [hchild, Option.bind_some] at hbind
        obtain ⟨dir', s', hall⟩ := ih (fun name' hname' => hnames name' (List.mem_cons_of_mem _ hname'))
          (hstores.closed n entries hn e (child_mem hchild)) hp₁ hdir₁ hrest s₁
        refine ⟨dir', s', ?_⟩
        rw [lookUpAll, findInDir, hin]
        exact hall

lemma getRootInode_eq (s : σ) (inode : Buffer β) : ∃ p dir s', inodePlace D fs 2 = some p ∧ IsRecord disk p dir ∧
    getRootInode D fs s inode = some (dir, s') := by
  have hgroups := hstores.groups
  obtain ⟨node, hnode⟩ := Option.isSome_iff_exists.mp hstores.root
  obtain ⟨p, hp, _⟩ := hstores.node 2 node hnode
  have hplace := hp
  rw [← hstores.readPlace_eq (by decide) (by decide), readPlace, if_neg (by omega)] at hplace
  rw [show (2 + 2 ^ 32 - 1) % 2 ^ 32 = 1 from rfl, Nat.div_eq_of_lt hgroups, Nat.mod_eq_of_lt hgroups] at hplace
  obtain ⟨desc, hdesc, hoffset⟩ := Option.map_eq_some_iff.mp hplace
  obtain ⟨s', hread⟩ := hserves s p inodeSize inode
  refine ⟨p, _, s', hp, isRecord_read disk p inode, ?_⟩
  rw [getRootInode, hdesc, Option.bind_eq_bind, Option.bind_some, readInode, hoffset, hread]

end Resolution

section Paths

variable {σ β : Type} {D : BlockDevice σ β} {disk : Buffer β} {fs : EXT2 β} {g : FileSystem}

structure IsPath (path : List UInt8) (names : List (List UInt8)) : Prop where
  ne_nil : names ≠ []
  isName : ∀ name ∈ names, name ≠ [] ∧ 47 ∉ name ∧ 0 ∉ name
  eq_joined : ∃ leading trailing, path = joined names leading trailing

lemma lookup_eq (hstores : Stores D disk fs g) (hserves : Serves D disk) {path : List UInt8}
    {names : List (List UInt8)} (hpath : IsPath path names) (s : σ) : ∃ p dir s₁, inodePlace D fs 2 = some p ∧
      IsRecord disk p dir ∧ lookup D fs s path = lookUpAll (findInDir D fs) names (dir, s₁) := by
  obtain ⟨p, dir, s₁, hp, hdir, hroot⟩ := getRootInode_eq hstores hserves s D.new
  obtain ⟨leading, trailing, rfl⟩ := hpath.eq_joined
  have hzero := zero_notMem_joined (fun name h => (hpath.isName name h).2.2) leading trailing
  have hlookups := lookups_joined hpath.ne_nil (fun name h => ⟨(hpath.isName name h).1, (hpath.isName name h).2.1⟩)
    leading trailing
  refine ⟨p, dir, s₁, hp, hdir, ?_⟩
  rw [lookup, hroot, Option.bind_eq_bind, Option.bind_some]
  dsimp only
  rw [getInodeFromDir_eq_lookUpAll hzero, hlookups]

end Paths

section Example

def rootEntries : List DirEntry :=
  [⟨2, 12, 2, [46], by decide, by decide, by decide, by decide, by decide⟩,
    ⟨2, 12, 2, [46, 46], by decide, by decide, by decide, by decide, by decide⟩,
    ⟨12, 4072, 1, [102], by decide, by decide, by decide, by decide, by decide⟩]

def smallTree : FileSystem := fun n =>
  if n = 2 then some (.folder rootEntries) else if n = 12 then some (.file [104, 105]) else none

def treeImage : Memory := fun x =>
  if 12288 ≤ x ∧ x < 16384 then (encodeFolder rootEntries).getD (x - 12288) 0
  else if 20480 ≤ x ∧ x < 20482 then [104, 105].getD (x - 20480) 0
  else store (twoBlockImage 6) 4 11012 2 x

def treeDevice : BlockDevice Unit UInt8 := faithful id 0 treeImage

def treeSystem : EXT2 UInt8 where
  superBlock := (treeDevice.read () 1024 92 treeDevice.new).2.1
  blockSize := 4096
  groupDescs := [(treeDevice.read () 4096 32 treeDevice.new).2.1]

lemma treeDevice_serves : Serves treeDevice treeImage := faithful_serves id 0 treeImage

lemma length_encodeFolder (entries : List DirEntry) :
    (encodeFolder entries).length = (entries.map DirEntry.recLen).sum := by
  rw [encodeFolder, List.length_flatMap]
  exact congrArg List.sum (List.map_congr_left fun e _ => e.length_encode)

lemma rootFolder_stored : StoredAt treeDevice treeImage treeSystem 8448 (.folder rootEntries) := by
  refine ⟨by decide, length_encodeFolder rootEntries, holds_iff.mpr fun i hi => ?_⟩
  have hlt : i < 4096 := lt_of_lt_of_eq hi (length_encodeFolder rootEntries)
  rw [show treeSystem.blockSize * iBlock treeDevice (record treeImage 8448) 0 = 12288 by decide]
  change treeImage (12288 + i) = _
  rw [treeImage, if_pos (by omega), Nat.add_sub_cancel_left, List.getD_eq_getElem]

lemma file_stored : StoredAt treeDevice treeImage treeSystem 11008 (.file [104, 105]) :=
  ⟨by decide, by decide, by decide, by decide, trivial⟩

lemma smallTree_cases {n : ℕ} {node : Node} (h : smallTree n = some node) :
    (n = 2 ∧ node = .folder rootEntries) ∨ (n = 12 ∧ node = .file [104, 105]) := by
  rw [smallTree] at h
  split_ifs at h with h2 h12
  · exact Or.inl ⟨h2, (Option.some.inj h).symm⟩
  · exact Or.inr ⟨h12, (Option.some.inj h).symm⟩

lemma smallTree_stored : Stores treeDevice treeImage treeSystem smallTree where
  inodeSize := by decide
  groups := by decide
  tables desc hdesc := by
    rw [List.mem_singleton.mp hdesc]
    decide
  root := rfl
  closed n entries hn e he := by
    rcases smallTree_cases hn with ⟨_, hfolder⟩ | ⟨_, hfile⟩
    · cases hfolder
      simp only [rootEntries, List.mem_cons, List.not_mem_nil, or_false] at he
      rcases he with rfl | rfl | rfl <;> rfl
    · cases hfile
  node n node hn := by
    rcases smallTree_cases hn with ⟨rfl, rfl⟩ | ⟨rfl, rfl⟩
    · exact ⟨8448, by decide, by decide, rootFolder_stored⟩
    · exact ⟨11008, by decide, by decide, file_stored⟩

lemma isPath_file : IsPath [47, 102] [[102]] := ⟨by decide, by simp, true, false, by decide⟩

lemma isPath_missing : IsPath [102, 47, 46] [[102], [46]] := ⟨by decide, by simp, false, false, by decide⟩

end Example

/-- On a disk that stores a file system, a path that leads to a file has the file's size, and reading it gives the
first bytes of the file. -/
theorem path_reads {σ β : Type} (D : BlockDevice σ β) (disk : Buffer β) (hserves : Serves D disk) (fs : EXT2 β)
    (g : FileSystem) (hstores : Stores D disk fs g) (path : List UInt8) (names : List (List UInt8))
    (hpath : IsPath path names) (n : ℕ) (content : List UInt8) (hresolve : g.resolve 2 names = some n)
    (hfile : g n = some (.file content)) (s : σ) :
    (∃ inode s', lookup D fs s path = some (0, inode, s')) ∧
    (∃ s', getFileSize D fs s path = some (content.length, s')) ∧
    ∀ size ≤ content.length, ∀ data : Buffer β, ∃ data' s', readFile D fs s path size data = some (0, data', s') ∧
      ∀ i < size, D.val (data' i) = content.getD i 0 := by
  obtain ⟨p, dir, s₁, hp, hdir, hlookup⟩ := lookup_eq hstores hserves hpath s
  obtain ⟨p', inode, s', hp', hinode, hall⟩ := lookUpAll_resolves hstores hserves hp hdir hresolve s₁
  rw [hall] at hlookup
  obtain ⟨q, hq, hlow, hmode, hsize, hholds⟩ := hstores.node n _ hfile
  obtain rfl : p' = q := Option.some.inj (hp'.symm.trans hq)
  refine ⟨⟨inode, s', hlookup⟩, ⟨s', ?_⟩, fun size hle data => ?_⟩
  · rw [getFileSize, hlookup, Option.bind_eq_bind, Option.bind_some]
    dsimp only
    rw [hinode.iSize, hsize]
  · obtain ⟨s'', hread⟩ := readFile_eq hserves hlookup size data
    refine ⟨_, s'', hread, fun i hi => ?_⟩
    have hbyte := holds_iff.mp hholds i (by omega)
    rw [List.getD_eq_getElem _ _ (by omega), ← hbyte, if_pos hi, hinode.iBlock, EXT2.blockOffset, Nat.mod_eq_of_lt hlow]
    rfl

theorem path_reads_small : ∃ data' s',
    readFile treeDevice treeSystem () [47, 102] 2 (fun _ => 0) = some (0, data', s') ∧
      data' 0 = 104 ∧ data' 1 = 105 := by
  obtain ⟨_, _, hread⟩ := path_reads treeDevice treeImage treeDevice_serves treeSystem smallTree smallTree_stored
    [47, 102] [[102]] isPath_file 12 [104, 105] (by decide) rfl ()
  obtain ⟨data', s', hresult, hbytes⟩ := hread 2 le_rfl fun _ => 0
  exact ⟨data', s', hresult, hbytes 0 (by decide), hbytes 1 (by decide)⟩

/-- A path that leads nowhere in the file system is answered with -1, where the heap is zero-filled. -/
theorem path_missed {σ β : Type} (D : BlockDevice σ β) (disk : Buffer β) (hserves : Serves D disk)
    (hheap : ∀ s i, D.val (D.heap s i) = 0) (fs : EXT2 β) (g : FileSystem) (hstores : Stores D disk fs g)
    (path : List UInt8) (names : List (List UInt8)) (hpath : IsPath path names) (hresolve : g.resolve 2 names = none)
    (s : σ) : ∃ inode s', lookup D fs s path = some (-1, inode, s') := by
  obtain ⟨p, dir, s₁, hp, hdir, hlookup⟩ := lookup_eq hstores hserves hpath s
  rw [hlookup]
  exact lookUpAll_fails hstores hserves hheap (fun name h => (hpath.isName name h).1) hstores.root hp hdir hresolve s₁

theorem path_missed_small : ∃ inode s', lookup treeDevice treeSystem () [102, 47, 46] = some (-1, inode, s') :=
  path_missed treeDevice treeImage treeDevice_serves (fun _ _ => rfl) treeSystem smallTree smallTree_stored
    [102, 47, 46] [[102], [46]] isPath_missing (by decide) ()

end TetraOS.Drivers.Ext2
