import TetraOS.Drivers.Requests

/-! The offsets of blocks. A block size and a block number are `uint32_t`, and so is their product, before it becomes
the offset of a read. -/

namespace TetraOS.Drivers.Ext2

open Library

variable {σ β : Type}

/-- What a request is for: bytes of the disk by the number of a block and the distance from its start. -/
structure Place where
  block : ℕ
  inside : ℕ
  length : ℕ

namespace Place

variable (fs : EXT2 β) (p : Place)

def sent : Request := (fs.blockOffset p.block + p.inside, p.length)
def exact : Request := (fs.blockSize * p.block + p.inside, p.length)

end Place

section Places

variable (D : BlockDevice σ β) (fs : EXT2 β)

def tablePlace (desc : Buffer β) (index : ℕ) : Place := ⟨bgInodeTable D desc, inodeSize * index, inodeSize⟩

def rootPlaces : List Place := (fs.groupDescs[0]?.map fun desc => tablePlace D desc 1).toList

def dirPlaces (s : σ) (dir : Buffer β) (name : List UInt8) : List Place :=
  if iMode D dir &&& 0x4000 = 0 then [] else
  let data := (D.read s (fs.blockOffset (iBlock D dir 0)) fs.blockSize (D.heap s)).2.1
  let (left, offset) := scan D data name 10 0
  ⟨iBlock D dir 0, 0, fs.blockSize⟩ ::
    if left = 0 then [] else
    let number := (entryInode D data offset + 2 ^ 32 - 1) % 2 ^ 32
    let inodesPerGroup := sInodesPerGroup D fs.superBlock
    if inodesPerGroup = 0 then [] else
    (fs.groupDescs[number / inodesPerGroup]?.map fun desc => tablePlace D desc (number % inodesPerGroup)).toList

def namesPlaces : List (List UInt8) → Buffer β × σ → List Place
  | [], _ => []
  | name :: names, t => dirPlaces D fs t.2 t.1 name ++
      match findInDir D fs t name with
      | none => []
      | some (res, t) => if res < 0 then [] else namesPlaces names t

def lookupPlaces (s : σ) (path : List UInt8) : List Place :=
  rootPlaces D fs ++
    match getRootInode D fs s D.new with
    | none => []
    | some t => namesPlaces D fs (lookups path) t

def readFilePlaces (s : σ) (path : List UInt8) (size : ℕ) : List Place :=
  lookupPlaces D fs s path ++
    match lookup D fs s path with
    | none => []
    | some (_, inode, _) => [⟨iBlock D inode 0, 0, size⟩]

end Places

namespace Call

/-- The file system that a call works on; `mount` has none yet. -/
def system : Call β → Option (EXT2 β)
  | mount => none
  | getRootInode fs _ | getInodeInDir fs _ _ | getInodeFromDir fs _ _ | getFileSize fs _ | readFile fs _ _ _ => some fs

def places (D : BlockDevice σ β) (s : σ) : Call β → List Place
  | mount => []
  | getRootInode fs _ => rootPlaces D fs
  | getInodeInDir fs dir name => dirPlaces D fs s dir name
  | getInodeFromDir fs dir path => namesPlaces D fs (lookups path) (dir, s)
  | getFileSize fs path => lookupPlaces D fs s path
  | readFile fs path size _ => readFilePlaces D fs s path size

end Call

def Call.Exact (D : BlockDevice σ β) (s : σ) (fs : EXT2 β) (call : Call β) : Prop :=
  ∀ p ∈ call.places D s, p.sent fs = p.exact fs

section Sent

variable {D : BlockDevice σ β} {fs : EXT2 β} {s : σ}

lemma inodeRequest_eq (found : Option (Buffer β)) (index : ℕ) :
    (found.map fun desc => inodeRequest D fs desc index).toList =
      (found.map fun desc => tablePlace D desc index).toList.map (Place.sent fs) := by
  cases found with
  | none => rfl
  | some desc => rfl

lemma rootRequests_eq : rootRequests D fs = (rootPlaces D fs).map (Place.sent fs) := inodeRequest_eq _ 1

lemma dirRequests_eq (dir : Buffer β) (name : List UInt8) :
    dirRequests D fs s dir name = (dirPlaces D fs s dir name).map (Place.sent fs) := by
  rw [dirRequests, dirPlaces]
  split
  · rfl
  · dsimp only
    rw [List.map_cons]
    congr 1
    split
    · rfl
    · split
      · rfl
      · exact inodeRequest_eq _ _

lemma namesRequests_eq (names : List (List UInt8)) (t : Buffer β × σ) :
    namesRequests D fs names t = (namesPlaces D fs names t).map (Place.sent fs) := by
  induction names generalizing t with
  | nil => rfl
  | cons name names ih =>
    rw [namesRequests, namesPlaces, List.map_append, dirRequests_eq]
    congr 1
    cases findInDir D fs t name with
    | none => rfl
    | some r =>
      obtain ⟨res, t⟩ := r
      dsimp only
      split
      · rfl
      · exact ih t

lemma lookupRequests_eq (path : List UInt8) :
    lookupRequests D fs s path = (lookupPlaces D fs s path).map (Place.sent fs) := by
  rw [lookupRequests, lookupPlaces, List.map_append, rootRequests_eq]
  congr 1
  cases getRootInode D fs s D.new with
  | none => rfl
  | some t => exact namesRequests_eq (lookups path) t

lemma readFileRequests_eq (path : List UInt8) (size : ℕ) :
    readFileRequests D fs s path size = (readFilePlaces D fs s path size).map (Place.sent fs) := by
  rw [readFileRequests, readFilePlaces, List.map_append, lookupRequests_eq]
  congr 1
  cases lookup D fs s path with
  | none => rfl
  | some r => rfl

lemma Call.requests_eq {call : Call β} (hfs : call.system = some fs) :
    call.requests D s = (call.places D s).map (Place.sent fs) := by
  cases call with
  | mount => cases hfs
  | getRootInode => obtain rfl := Option.some.inj hfs; exact rootRequests_eq
  | getInodeInDir _ dir name => obtain rfl := Option.some.inj hfs; exact dirRequests_eq dir name
  | getInodeFromDir _ dir path => obtain rfl := Option.some.inj hfs; exact namesRequests_eq _ _
  | getFileSize _ path => obtain rfl := Option.some.inj hfs; exact lookupRequests_eq path
  | readFile _ path size => obtain rfl := Option.some.inj hfs; exact readFileRequests_eq path size

lemma sent_eq_exact_iff {p : Place} : p.sent fs = p.exact fs ↔ fs.blockSize * p.block < 2 ^ 32 := by
  rw [Place.sent, Place.exact, Prod.mk.injEq, Nat.add_right_cancel_iff, EXT2.blockOffset,
    Nat.mod_eq_iff_lt (by decide : 2 ^ 32 ≠ 0)]
  exact and_iff_left rfl

end Sent

/-- For every file system and whatever the disk holds: the offsets of a call are exact if and only if the products have
32 bits. -/
theorem offsets_exact_iff (D : BlockDevice σ β) (s : σ) (call : Call β) (fs : EXT2 β) (hfs : call.system = some fs)
    (hcall : call.WellFormed D) :
    (∀ log, call.run (recording D) (s, log) =
      (call.run D s).map fun s' => (s', log ++ (call.places D s).map (Place.sent fs))) ∧
    (call.Exact D s fs ↔ ∀ p ∈ call.places D s, fs.blockSize * p.block < 2 ^ 32) := by
  refine ⟨fun log => ?_, ?_⟩
  · rw [Call.run_recording hcall, Call.requests_eq hfs]
  · simp only [Call.Exact, sent_eq_exact_iff]

theorem offsets_exact_two_block_image :
    (Call.readFile (twoBlockSystem 6) [47, 102] 8192 fun _ => (0, 0)).Exact (twoBlockDevice 6) () (twoBlockSystem 6) :=
  (offsets_exact_iff (twoBlockDevice 6) () (.readFile (twoBlockSystem 6) [47, 102] 8192 fun _ => (0, 0)) _ rfl
    ⟨by decide, by decide⟩).2.mpr (by decide)

/-- The super block, the first group descriptor and the root directory of an image of 16 GiB with blocks of 64 KiB. -/
def largeImage : ℕ → UInt8 :=
  let words := [
    (1024, 4, 32), (1028, 4, 262144), (1048, 4, 6), (1056, 4, 131072), (1064, 4, 16), (1080, 2, 0xEF53), (1100, 4, 1),
    (1108, 4, 11), (1112, 2, 256),
    (65544, 4, 2),
    (131328, 2, 0x41ED), (131332, 4, 65536), (131368, 4, 65536)]
  words.foldr (fun w m => ByteMemory.store m w.2.1 w.1 w.2.2) (fun _ => 0)

def largeDevice : BlockDevice Unit UInt8 := faithful id 0 largeImage

def largeSystem : EXT2 UInt8 where
  superBlock := (largeDevice.read () 1024 92 largeDevice.new).2.1
  blockSize := 65536
  groupDescs := [(largeDevice.read () 65536 32 largeDevice.new).2.1, (largeDevice.read () 65568 32 largeDevice.new).2.1]

def largeRoot : Buffer UInt8 := (largeDevice.read () 131328 256 largeDevice.new).2.1

/-- The root directory is in block 65536 of 262144, and the start of the disk is read in its place. -/
theorem offsets_not_exact_large_image : mount largeDevice () = some (largeSystem, ()) ∧
    getRootInode largeDevice largeSystem () largeDevice.new = some (largeRoot, ()) ∧
    iBlock largeDevice largeRoot 0 < sBlocksCount largeDevice largeSystem.superBlock ∧
    (Call.getInodeInDir largeSystem largeRoot [102]).requests largeDevice () = [(0, 65536)] ∧
    (Call.getInodeInDir largeSystem largeRoot [102]).places largeDevice () = [⟨65536, 0, 65536⟩] ∧
    ¬ (Call.getInodeInDir largeSystem largeRoot [102]).Exact largeDevice () largeSystem := by
  have hplaces : (Call.getInodeInDir largeSystem largeRoot [102]).places largeDevice () = [⟨65536, 0, 65536⟩] := by rfl
  refine ⟨by rfl, by rfl, by decide, by rfl, hplaces, fun h => ?_⟩
  rw [Call.Exact, hplaces] at h
  have hsmall := sent_eq_exact_iff.mp (h _ (List.mem_singleton_self _))
  exact absurd hsmall (by decide)

end TetraOS.Drivers.Ext2
