import TetraOS.Drivers.Failures

/-! The search of a directory, compared with what the directory holds: entries that follow each other in each of its
data blocks, of which those with the inode number 0 are deleted. -/

namespace TetraOS.Drivers.Ext2

open Library

variable {σ β : Type}

section Content

variable (D : BlockDevice σ β) (disk : Buffer β) (fs : EXT2 β) (s : σ) (dir : Buffer β) (name : List UInt8)

def Tiled (block : Buffer β) : Prop := ∀ j, entryOffset D block j < fs.blockSize →
  0 < recLen D block (entryOffset D block j) ∧ entryOffset D block (j + 1) ≤ fs.blockSize

structure LookupExact : Prop where
  found : (∃ n, Named D disk fs dir name n) → ∃ n p inode s', Named D disk fs dir name n ∧ inodePlace D fs n = some p ∧
    getInodeInDir D fs s dir name = some (0, inode, s') ∧ ∀ i < inodeSize, inode i = disk (p + i)
  missed : ¬ (∃ n, Named D disk fs dir name n) → ∃ s', getInodeInDir D fs s dir name = some (-1, dir, s')

def firstBlock : Buffer β := fun i =>
  if i < fs.blockSize then disk (fs.blockOffset (iBlock D dir 0) + i) else D.heap s i

def First (data : Buffer β) (k : ℕ) : Prop :=
  (∀ j < k, entryMatches D data (entryOffset D data j) name = false) ∧
    entryMatches D data (entryOffset D data k) name = true

/-- Among the ten entries that the driver looks at, the first with the name leads to an inode that the directory
names, or neither they nor the directory have the name. -/
def FirstIsNamed : Prop :=
  let data := firstBlock D disk fs s dir
  iMode D dir &&& 0x4000 = 0 ∨
  ((∀ k < 10, ¬ First D name data k) ∧ ∀ n, ¬ Named D disk fs dir name n) ∨
  ∃ k < 10, First D name data k ∧ ∃ n, Named D disk fs dir name n ∧ (inodePlace D fs n).isSome ∧
    readPlace D fs (entryInode D data (entryOffset D data k)) = inodePlace D fs n

end Content

section Search

variable {D : BlockDevice σ β} {disk : Buffer β} {fs : EXT2 β} {s : σ} {dir data : Buffer β} {name : List UInt8}
    {k n : ℕ}

lemma First.unique {k' : ℕ} (h : First D name data k) (h' : First D name data k') : k = k' := by
  rcases lt_trichotomy k k' with hlt | rfl | hlt
  · exact absurd ((h'.1 k hlt).symm.trans h.2) Bool.false_ne_true
  · rfl
  · exact absurd ((h.1 k' hlt).symm.trans h'.2) Bool.false_ne_true

lemma exists_first (name : List UInt8) (data : Buffer β) (n : ℕ) : (∃ k < n, First D name data k) ∨
    ∀ j < n, entryMatches D data (entryOffset D data j) name = false := by
  induction n with
  | zero => exact Or.inr fun j hj => absurd hj (Nat.not_lt_zero j)
  | succ n ih =>
    rcases ih with ⟨k, hk, hfirst⟩ | hbefore
    · exact Or.inl ⟨k, hk.trans (Nat.lt_succ_self n), hfirst⟩
    · cases hhere : entryMatches D data (entryOffset D data n) name with
      | true => exact Or.inl ⟨n, Nat.lt_succ_self n, hbefore, hhere⟩
      | false =>
        refine Or.inr fun j hj => ?_
        rcases Nat.lt_succ_iff_lt_or_eq.mp hj with hlt | rfl
        · exact hbefore j hlt
        · exact hhere

lemma entryOffset_mono (D : BlockDevice σ β) (data : Buffer β) : Monotone (entryOffset D data) :=
  monotone_nat_of_le_succ fun _ => Nat.le_add_right _ _

lemma tiled_of_last {m : ℕ} (hlast : entryOffset D data m = fs.blockSize)
    (h : ∀ j < m, 0 < recLen D data (entryOffset D data j)) : Tiled D fs data := by
  intro j hj
  have hlt : j < m := by
    by_contra hm
    have := entryOffset_mono D data (not_lt.mp hm)
    omega
  exact ⟨h j hlt, hlast ▸ entryOffset_mono D data hlt⟩

lemma scan_missed {left j : ℕ}
    (h : ∀ i, j ≤ i → i < j + left → entryMatches D data (entryOffset D data i) name = false) :
    scan D data name left (entryOffset D data j) = (0, entryOffset D data (j + left)) := by
  induction left generalizing j with
  | zero => rfl
  | succ left ih =>
    rw [scan, h j le_rfl (by omega), if_neg Bool.false_ne_true]
    refine (ih (j := j + 1) fun i hi hi' => h i (by omega) (by omega)).trans ?_
    rw [Nat.add_right_comm, Nat.add_assoc]

variable (fs) (hserves : Serves D disk) (hmode : iMode D dir &&& 0x4000 ≠ 0)
include hserves hmode

lemma getInodeInDir_eq (s : σ) (name : List UInt8) : ∃ s₁ s₂, getInodeInDir D fs s dir name =
    let data := firstBlock D disk fs s dir
    if (scan D data name 10 0).1 = 0 then some (-1, dir, s₁)
    else (readPlace D fs (entryInode D data (scan D data name 10 0).2)).map
      fun p => (0, (fun i => if i < inodeSize then disk (p + i) else dir i), s₂) := by
  obtain ⟨s₁, hread⟩ := hserves s (fs.blockOffset (iBlock D dir 0)) fs.blockSize (D.heap s)
  rw [getInodeInDir, if_neg hmode, hread]
  dsimp only
  rw [show (fun i => if i < fs.blockSize then disk (fs.blockOffset (iBlock D dir 0) + i) else D.heap s i) =
    firstBlock D disk fs s dir from rfl]
  generalize (entryInode D (firstBlock D disk fs s dir) (scan D (firstBlock D disk fs s dir) name 10 0).2) = n
  cases hdesc : fs.groupDescs[(n + 2 ^ 32 - 1) % 2 ^ 32 / sInodesPerGroup D fs.superBlock]? with
  | none => exact ⟨s₁, s₁, by rw [readPlace, hdesc, Option.map_none, Option.bind_eq_bind, Option.bind_none,
      ite_self, ite_self, Option.map_none]⟩
  | some desc =>
    obtain ⟨s₂, hinode⟩ := hserves s₁ (fs.blockOffset (bgInodeTable D desc) +
      inodeSize * ((n + 2 ^ 32 - 1) % 2 ^ 32 % sInodesPerGroup D fs.superBlock)) inodeSize dir
    refine ⟨s₁, s₂, ?_⟩
    rw [readPlace, hdesc, Option.map_some, Option.bind_eq_bind, Option.bind_some, readInode, hinode]
    by_cases hgroup : sInodesPerGroup D fs.superBlock = 0
    · rw [if_pos hgroup, if_pos hgroup, Option.map_none]
    · rw [if_neg hgroup, if_neg hgroup, Option.map_some]

lemma getInodeInDir_missed (h : ∀ k < 10, ¬ First D name (firstBlock D disk fs s dir) k) :
    ∃ s', getInodeInDir D fs s dir name = some (-1, dir, s') := by
  have hnone := (exists_first name (firstBlock D disk fs s dir) 10).resolve_left fun ⟨k, hk, hfirst⟩ => h k hk hfirst
  have hscan : scan D (firstBlock D disk fs s dir) name 10 0 = _ :=
    scan_missed (j := 0) fun i _ hi => hnone i (by omega)
  obtain ⟨s₁, s₂, heq⟩ := getInodeInDir_eq fs hserves hmode s name
  rw [heq]
  dsimp only
  rw [hscan, if_pos rfl]
  exact ⟨s₁, rfl⟩

lemma getInodeInDir_first (hk : k < 10) (h : First D name (firstBlock D disk fs s dir) k) :
    ∃ s', getInodeInDir D fs s dir name =
      (readPlace D fs (entryInode D (firstBlock D disk fs s dir) (entryOffset D (firstBlock D disk fs s dir) k))).map
        fun p => (0, (fun i => if i < inodeSize then disk (p + i) else dir i), s') := by
  have hscan : scan D (firstBlock D disk fs s dir) name 10 0 = _ := scan_first h.1 h.2 (Nat.zero_le k) 10 (by omega)
  obtain ⟨s₁, s₂, heq⟩ := getInodeInDir_eq fs hserves hmode s name
  rw [heq]
  dsimp only
  rw [hscan, if_neg (by omega)]
  exact ⟨s₂, rfl⟩

end Search

section Exact

variable {D : BlockDevice σ Located} {image : ℕ → UInt8} {fs : EXT2 Located} {s : σ} {dir : Buffer Located}
    {name : List UInt8}

lemma LookupExact.firstIsNamed (hserves : Serves D (located image)) (h : LookupExact D (located image) fs s dir name) :
    FirstIsNamed D (located image) fs s dir name := by
  by_cases hmode : iMode D dir &&& 0x4000 = 0
  · exact Or.inl hmode
  right
  by_cases hfirst : ∃ k < 10, First D name (firstBlock D (located image) fs s dir) k
  · obtain ⟨k, hk, hfirst⟩ := hfirst
    obtain ⟨s', hresult⟩ := getInodeInDir_first fs hserves hmode hk hfirst
    refine Or.inr ⟨k, hk, hfirst, ?_⟩
    have hnamed : ∃ n, Named D (located image) fs dir name n := by
      by_contra hnone
      obtain ⟨s'', hmissed⟩ := h.missed hnone
      rw [hresult] at hmissed
      obtain ⟨p, _, hp⟩ := Option.map_eq_some_iff.mp hmissed
      exact absurd (Prod.mk.inj hp).1 (by decide)
    obtain ⟨n, p, inode, s'', hn, hplace, hfound, hbytes⟩ := h.found hnamed
    rw [hresult] at hfound
    obtain ⟨q, hq, hinode⟩ := Option.map_eq_some_iff.mp hfound
    simp only [Prod.mk.injEq] at hinode
    have hbyte : located image (q + 0) = located image (p + 0) := by
      rw [← hbytes 0 (by decide), ← hinode.2.1]
      exact (if_pos (by decide)).symm
    have hqp : q = p := congrArg Prod.snd hbyte
    exact ⟨n, hn, by rw [hplace]; rfl, by rw [hq, hplace, hqp]⟩
  · have hnone : ∀ k < 10, ¬ First D name (firstBlock D (located image) fs s dir) k := fun k hk hh => hfirst ⟨k, hk, hh⟩
    refine Or.inl ⟨hnone, fun n hn => ?_⟩
    obtain ⟨s', hresult⟩ := getInodeInDir_missed fs hserves hmode hnone
    obtain ⟨_, _, _, _, _, _, hfound, _⟩ := h.found ⟨n, hn⟩
    rw [hresult] at hfound
    exact absurd (Prod.mk.inj (Option.some.inj hfound)).1 (by decide)

end Exact

lemma FirstIsNamed.lookupExact {D : BlockDevice σ β} {disk : Buffer β} {fs : EXT2 β} {s : σ} {dir : Buffer β}
    {name : List UInt8} (hserves : Serves D disk) (h : FirstIsNamed D disk fs s dir name) :
    LookupExact D disk fs s dir name := by
  rcases h with hmode | hcase
  · refine ⟨fun ⟨n, hn⟩ => absurd hmode hn.mode, fun _ => ⟨s, ?_⟩⟩
    rw [getInodeInDir, if_pos hmode]
  by_cases hmode : iMode D dir &&& 0x4000 = 0
  · refine ⟨fun ⟨n, hn⟩ => absurd hmode hn.mode, fun _ => ⟨s, ?_⟩⟩
    rw [getInodeInDir, if_pos hmode]
  rcases hcase with ⟨hnone, hunnamed⟩ | ⟨k, hk, hfirst, n, hn, hsome, hplace⟩
  · exact ⟨fun ⟨n, hn⟩ => absurd hn (hunnamed n), fun _ => getInodeInDir_missed fs hserves hmode hnone⟩
  · obtain ⟨p, hp⟩ := Option.isSome_iff_exists.mp hsome
    obtain ⟨s', hresult⟩ := getInodeInDir_first fs hserves hmode hk hfirst
    rw [hplace, hp] at hresult
    exact ⟨fun _ => ⟨n, p, _, s', hn, hp, hresult, fun i hi => if_pos hi⟩, fun hnone => absurd ⟨n, hn⟩ hnone⟩

/-- For every disk, whether the entries of its directories are well formed or not. -/
theorem lookupExact_iff_firstIsNamed (image : ℕ → UInt8) (D : BlockDevice σ Located) (hD : ServesImage D image)
    (fs : EXT2 Located) (s : σ) (dir : Buffer Located) (name : List UInt8) :
    LookupExact D (located image) fs s dir name ↔ FirstIsNamed D (located image) fs s dir name :=
  ⟨fun h => h.firstIsNamed hD.serves, fun h => h.lookupExact hD.serves⟩

theorem lookupExact_small_directory : LookupExact (twoBlockDevice 6) (located (twoBlockImage 6)) (twoBlockSystem 6) ()
    twoBlockRoot [102] :=
  (lookupExact_iff_firstIsNamed _ _ (twoBlockDevice_serves 6) _ _ _ _).mpr (Or.inr (Or.inr
    ⟨2, by decide, ⟨by decide, by decide⟩, 12,
      ⟨rfl, by decide, 0, by decide, 2, by decide, by decide, by decide⟩, by decide, by decide⟩))

/-- The image where the root directory has a second block, block 7, with an entry `g` for the same file. -/
def longDirectoryImage : ℕ → UInt8 :=
  [(8452, 4, 8192), (8492, 4, 7), (28672, 4, 12), (28676, 2, 4096), (28678, 1, 1), (28679, 1, 1),
    (28680, 1, 103)].foldr (fun w m => ByteMemory.store m w.2.1 w.1 w.2.2) (twoBlockImage 6)

def longDirectoryDevice : BlockDevice Unit Located :=
  { faithful Prod.fst (0, 0) (located longDirectoryImage) with heap := fun _ _ => (0xFF, 0) }

def longDirectorySystem : EXT2 Located where
  superBlock := (longDirectoryDevice.read () 1024 92 longDirectoryDevice.new).2.1
  blockSize := 4096
  groupDescs := [(longDirectoryDevice.read () 4096 32 longDirectoryDevice.new).2.1]

def longDirectory : Buffer Located := (longDirectoryDevice.read () 8448 256 longDirectoryDevice.new).2.1

theorem not_lookupExact_second_block :
    mount longDirectoryDevice () = some (longDirectorySystem, ()) ∧
    getRootInode longDirectoryDevice longDirectorySystem () longDirectoryDevice.new = some (longDirectory, ()) ∧
    (∀ k < dataBlocks longDirectoryDevice longDirectorySystem longDirectory,
      Tiled longDirectoryDevice longDirectorySystem
        (dataBlock longDirectoryDevice (located longDirectoryImage) longDirectorySystem longDirectory k)) ∧
    Named longDirectoryDevice (located longDirectoryImage) longDirectorySystem longDirectory [103] 12 ∧
    (getInodeInDir longDirectoryDevice longDirectorySystem () longDirectory [103]).map Prod.fst = some (-1) ∧
    ¬ LookupExact longDirectoryDevice (located longDirectoryImage) longDirectorySystem () longDirectory [103] := by
  have hnamed : Named longDirectoryDevice (located longDirectoryImage) longDirectorySystem longDirectory [103] 12 :=
    ⟨rfl, by decide, 1, by decide, 0, by decide, by decide, by decide⟩
  have hresult : (getInodeInDir longDirectoryDevice longDirectorySystem () longDirectory [103]).map Prod.fst =
      some (-1) := by decide
  refine ⟨by rfl, by rfl, fun k hk => ?_, hnamed, hresult, fun h => ?_⟩
  · have hk' : k = 0 ∨ k = 1 := by
      change k < 2 at hk
      omega
    rcases hk' with rfl | rfl
    · exact tiled_of_last (m := 3) (by decide) (by decide)
    · exact tiled_of_last (m := 1) (by decide) (by decide)
  · obtain ⟨n, p, inode, s', _, _, hfound, _⟩ := h.found ⟨12, hnamed⟩
    rw [hfound] at hresult
    exact absurd (Option.some.inj hresult) (show ¬ (0 : ℤ) = -1 by decide)

section Reads

variable (D : BlockDevice σ β) (fs : EXT2 β) (s : σ) (dir data : Buffer β) (name : List UInt8)

def nameReads (offset : ℕ) : List UInt8 → ℕ → List ℕ
  | [], _ => []
  | c :: rest, i => (offset + 8 + i) :: if c = entryName D data offset i then nameReads offset rest (i + 1) else []

/-- What `matches` looks at: the header of the entry, and the characters up to the first that differs. -/
def matchReads (offset : ℕ) : List ℕ :=
  (List.range 8).map (offset + ·) ++ if name.length = nameLen D data offset then nameReads D data offset name 0 else []

/-- The names are compared once more when the counter has reached its bound. -/
def scanReads : ℕ → ℕ → List ℕ
  | 0, offset => matchReads D data name offset
  | left + 1, offset => matchReads D data name offset ++
      if entryMatches D data offset name then [] else scanReads left (offset + recLen D data offset)

def dirReads : List ℕ :=
  if iMode D dir &&& 0x4000 = 0 then [] else
  scanReads D (D.read s (fs.blockOffset (iBlock D dir 0)) fs.blockSize (D.heap s)).2.1 name 10 0

def InBlock : Prop := ∀ a ∈ dirReads D fs s dir name, a < fs.blockSize

/-- Entry `k` is the first with the name, or the eleventh of which none before has it. -/
def Last (k : ℕ) : Prop :=
  (∀ j < k, entryMatches D data (entryOffset D data j) name = false) ∧
    (k < 10 ∧ entryMatches D data (entryOffset D data k) name = true ∨ k = 10)

def LastInBlock : Prop :=
  let data := (D.read s (fs.blockOffset (iBlock D dir 0)) fs.blockSize (D.heap s)).2.1
  iMode D dir &&& 0x4000 = 0 ∨ ∃ k, Last D data name k ∧ entryOffset D data k + 8 ≤ fs.blockSize ∧
    ∀ j ≤ k, name.length = nameLen D data (entryOffset D data j) → ∀ i < name.length,
      (∀ i' < i, name.getD i' 0 = entryName D data (entryOffset D data j) i') →
      entryOffset D data j + 8 + i < fs.blockSize

variable {D fs s dir data name} {offset a k : ℕ}

lemma mem_nameReads {rest : List UInt8} {start : ℕ} : a ∈ nameReads D data offset rest start ↔
    ∃ i < rest.length, (∀ i' < i, rest.getD i' 0 = entryName D data offset (start + i')) ∧
      a = offset + 8 + (start + i) := by
  induction rest generalizing start with
  | nil => simp [nameReads]
  | cons c rest ih =>
    rw [nameReads, List.mem_cons]
    constructor
    · rintro (rfl | hrest)
      · exact ⟨0, Nat.succ_pos _, fun i' hi' => absurd hi' (Nat.not_lt_zero i'), rfl⟩
      · split at hrest
        · rename_i hc
          obtain ⟨i, hi, hall, rfl⟩ := ih.mp hrest
          refine ⟨i + 1, Nat.succ_lt_succ hi, fun i' hi' => ?_, by omega⟩
          cases i' with
          | zero => exact hc
          | succ i' =>
            rw [List.getD_cons_succ, hall i' (by omega)]
            exact congrArg _ (by omega)
        · cases hrest
    · rintro ⟨i, hi, hall, rfl⟩
      cases i with
      | zero => exact Or.inl rfl
      | succ i =>
        right
        have hc : c = entryName D data offset start := hall 0 (Nat.succ_pos i)
        rw [if_pos hc]
        refine ih.mpr ⟨i, Nat.lt_of_succ_lt_succ hi, fun i' hi' => ?_, by omega⟩
        have hnext := hall (i' + 1) (Nat.succ_lt_succ hi')
        rw [List.getD_cons_succ] at hnext
        rw [hnext]
        exact congrArg _ (by omega)

lemma mem_matchReads : a ∈ matchReads D data name offset ↔ (offset ≤ a ∧ a < offset + 8) ∨
    (name.length = nameLen D data offset ∧ ∃ i < name.length,
      (∀ i' < i, name.getD i' 0 = entryName D data offset i') ∧ a = offset + 8 + i) := by
  rw [matchReads, List.mem_append]
  refine or_congr ?_ ?_
  · rw [List.mem_map]
    constructor
    · rintro ⟨i, hi, rfl⟩
      rw [List.mem_range] at hi
      omega
    · exact fun ⟨hle, hlt⟩ => ⟨a - offset, List.mem_range.mpr (by omega), by omega⟩
  · split
    · rename_i hlen
      rw [mem_nameReads]
      simp only [Nat.zero_add, hlen, true_and]
    · rename_i hlen
      simp [hlen]

lemma mem_scanReads {left j : ℕ} : a ∈ scanReads D data name left (entryOffset D data j) ↔
    ∃ k, j ≤ k ∧ k ≤ j + left ∧ (∀ i, j ≤ i → i < k → entryMatches D data (entryOffset D data i) name = false) ∧
      a ∈ matchReads D data name (entryOffset D data k) := by
  induction left generalizing j with
  | zero =>
    rw [scanReads]
    constructor
    · exact fun h => ⟨j, le_rfl, le_rfl, fun i hi hi' => absurd hi (not_le.mpr hi'), h⟩
    · rintro ⟨k, hj, hk, _, h⟩
      obtain rfl : k = j := by omega
      exact h
  | succ left ih =>
    rw [scanReads, List.mem_append]
    constructor
    · rintro (h | h)
      · exact ⟨j, le_rfl, by omega, fun i hi hi' => absurd hi (not_le.mpr hi'), h⟩
      · split at h
        · cases h
        · rename_i hne
          obtain ⟨k, hj, hk, hbefore, h⟩ := (ih (j := j + 1)).mp h
          refine ⟨k, by omega, by omega, fun i hi hi' => ?_, h⟩
          rcases hi.eq_or_lt with rfl | hlt
          · exact Bool.eq_false_of_not_eq_true hne
          · exact hbefore i hlt hi'
    · rintro ⟨k, hj, hk, hbefore, h⟩
      rcases hj.eq_or_lt with rfl | hlt
      · exact Or.inl h
      · right
        rw [if_neg (by rw [hbefore j le_rfl hlt]; exact Bool.false_ne_true)]
        exact (ih (j := j + 1)).mpr ⟨k, hlt, by omega, fun i hi hi' => hbefore i (by omega) hi', h⟩

lemma exists_last_entry (data : Buffer β) (name : List UInt8) : ∃ k ≤ 10, Last D data name k := by
  rcases exists_first (D := D) name data 10 with ⟨k, hk, hbefore, hhere⟩ | hnone
  · exact ⟨k, hk.le, hbefore, Or.inl ⟨hk, hhere⟩⟩
  · exact ⟨10, le_rfl, hnone, Or.inr rfl⟩

lemma Last.le {j : ℕ} (h : Last D data name k) (hj : j ≤ 10)
    (hbefore : ∀ i < j, entryMatches D data (entryOffset D data i) name = false) : j ≤ k := by
  by_contra hlt
  rcases h.2 with ⟨_, hhere⟩ | rfl
  · exact Bool.false_ne_true ((hbefore k (not_le.mp hlt)).symm.trans hhere)
  · exact hlt hj

/-- The scan depends on nothing but what it looks at. -/
theorem scan_congr {data' : Buffer β} {left : ℕ} (h : ∀ a ∈ scanReads D data name left offset, data' a = data a) :
    scan D data' name left offset = scan D data name left offset := by
  induction left generalizing offset with
  | zero => rfl
  | succ left ih =>
    have hfirst : ∀ a ∈ matchReads D data name offset, data' a = data a := fun a ha =>
      h a (by rw [scanReads]; exact List.mem_append_left _ ha)
    have hheader : ∀ a, offset ≤ a → a < offset + 8 → data' a = data a := fun a hle hlt =>
      hfirst a (mem_matchReads.mpr (Or.inl ⟨hle, hlt⟩))
    have hrec : recLen D data' offset = recLen D data offset :=
      uint_congr fun a _ _ => hheader a (by omega) (by omega)
    have hlen : nameLen D data' offset = nameLen D data offset :=
      uint_congr fun a _ _ => hheader a (by omega) (by omega)
    have hmatch : entryMatches D data' offset name = entryMatches D data offset name := by
      rw [entryMatches, entryMatches, hlen]
      by_cases hname : name.length = nameLen D data offset
      · rw [beq_iff_eq.mpr hname, Bool.true_and, Bool.true_and, Bool.eq_iff_iff]
        simp only [List.all_eq_true, List.mem_range, beq_iff_eq]
        -- the first character in which one of the two entries differs is looked at
        constructor
        · intro hall i hi
          induction i using Nat.strong_induction_on with
          | _ i hbefore =>
            have hread := hfirst _ (mem_matchReads.mpr (Or.inr ⟨hname, i, hi, fun i' hi' =>
              hbefore i' hi' (by omega), rfl⟩))
            rw [hall i hi, entryName, entryName, hread]
        · intro hall i hi
          have hread := hfirst _ (mem_matchReads.mpr (Or.inr ⟨hname, i, hi, fun i' hi' => hall i' (by omega), rfl⟩))
          rw [hall i hi, entryName, entryName, hread]
      · rw [beq_eq_false_iff_ne.mpr hname, Bool.false_and, Bool.false_and]
    rw [scan, scan, hmatch, hrec]
    split
    · rfl
    · rename_i hne
      exact ih fun a ha => h a (by rw [scanReads, if_neg hne]; exact List.mem_append_right _ ha)

/-- For every content of the block and of the heap behind it. -/
theorem inBlock_iff_lastInBlock (D : BlockDevice σ β) (fs : EXT2 β) (s : σ) (dir : Buffer β) (name : List UInt8) :
    InBlock D fs s dir name ↔ LastInBlock D fs s dir name := by
  rw [InBlock, LastInBlock, dirReads]
  by_cases hmode : iMode D dir &&& 0x4000 = 0
  · simp [hmode]
  rw [if_neg hmode, or_iff_right hmode]
  generalize (D.read s (fs.blockOffset (iBlock D dir 0)) fs.blockSize (D.heap s)).2.1 = data
  constructor
  · intro h
    obtain ⟨k, hk, hlast⟩ := exists_last_entry (D := D) data name
    have hvisited : ∀ j ≤ k, ∀ a ∈ matchReads D data name (entryOffset D data j), a < fs.blockSize :=
      fun j hj a ha => h a ((mem_scanReads (j := 0)).mpr
        ⟨j, Nat.zero_le j, by omega, fun i _ hi => hlast.1 i (by omega), ha⟩)
    refine ⟨k, hlast, ?_, fun j hj hlen i hi hall => ?_⟩
    · have hend := hvisited k le_rfl (entryOffset D data k + 7) (mem_matchReads.mpr (Or.inl ⟨by omega, by omega⟩))
      omega
    · exact hvisited j hj _ (mem_matchReads.mpr (Or.inr ⟨hlen, i, hi, hall, rfl⟩))
  · rintro ⟨k, hlast, hend, hnames⟩ a ha
    obtain ⟨j, _, hj, hbefore, ha⟩ := (mem_scanReads (j := 0)).mp ha
    have hjk := hlast.le (by omega) fun i hi => hbefore i (Nat.zero_le i) hi
    rcases mem_matchReads.mp ha with ⟨_, hlt⟩ | ⟨hlen, i, hi, hall, rfl⟩
    · have := entryOffset_mono D data hjk
      omega
    · exact hnames j hjk hlen i hi hall

/-- The root directory ends with its third entry, and has no `g`: the search goes on behind the block. -/
theorem not_inBlock_absent_name : mount (twoBlockDevice 6) () = some (twoBlockSystem 6, ()) ∧
    getRootInode (twoBlockDevice 6) (twoBlockSystem 6) () (twoBlockDevice 6).new = some (twoBlockRoot, ()) ∧
    ¬ InBlock (twoBlockDevice 6) (twoBlockSystem 6) () twoBlockRoot [103] := by
  refine ⟨by rfl, by rfl, fun h => ?_⟩
  have hread : 4096 ∈ dirReads (twoBlockDevice 6) (twoBlockSystem 6) () twoBlockRoot [103] := by decide
  exact absurd (h 4096 hread) (by decide)

end Reads

end TetraOS.Drivers.Ext2
