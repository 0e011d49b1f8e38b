import TetraOS.Processes.LowerHalf

/-! The image that `submit_new_process` builds, compared with what the program headers of the file say. -/

namespace TetraOS.Processes

open Memory Library.ByteMemory Library.TableTree VirtualPage

section File

variable (file : ℕ → UInt8)

def phoff : ℕ := load file 8 32
def phnum : ℕ := load file 2 56
def headerOffset (i : ℕ) : ℕ := phoff file + sizeofPhdr * i
def headerType (i : ℕ) : ℕ := load file 4 (headerOffset file i)

def segmentAt (i : ℕ) : Segment where
  offset := load file 8 (headerOffset file i + 8)
  vaddr := load file 8 (headerOffset file i + 16)
  filesz := load file 8 (headerOffset file i + 32)
  memsz := load file 8 (headerOffset file i + 40)

def segmentsFrom : (n i : ℕ) → List Segment
  | 0, _ => []
  | n + 1, i => if headerType file i = 1 then segmentAt file i :: segmentsFrom n (i + 1) else segmentsFrom n (i + 1)

def segments : List Segment := segmentsFrom file (phnum file) 0

end File

def dataEnd (segs : List Segment) (e : ℕ) : ℕ := segs.foldl (fun e g => max e (g.vaddr + g.memsz)) e

def heapPage (segs : List Segment) : ℕ := dataEnd segs 0 / 4096 + 1

def segmentFrames (g : Segment) : ℕ := 4 * (g.memsz / 4096 + 1)

def segmentsFrames (segs : List Segment) : ℕ := (segs.map segmentFrames).sum

structure Lower (size : ℕ) (g : Segment) : Prop where
  inside : g.offset + g.filesz ≤ size
  start : g.vaddr < 2 ^ 47
  stop : g.vaddr + g.memsz ≤ 2 ^ 47
  filesz : g.filesz ≤ g.memsz

section Congruence

variable {file : ℕ → UInt8} {size : ℕ} {m m' : Space} {g : Segment} {segs : List Segment}

lemma loaded_congr (hm : ∀ x < 2 ^ 47, m x = m' x) {x : ℕ} (hx : x < 2 ^ 47) :
    g.loaded file m x = g.loaded file m' x := by
  rw [Segment.loaded, Segment.loaded, Space.copyIn, Space.copyIn, Space.mapZero, Space.mapZero, hm x hx]

lemma loadable_congr (hg : Lower size g) (hm : ∀ x < 2 ^ 47, m x = m' x) : g.Loadable m ↔ g.Loadable m' := by
  have hstop := hg.stop
  have hsz := hg.filesz
  rw [Segment.loadable_iff, Segment.loadable_iff]
  refine forall₂_congr fun j hj => ?_
  rw [hm _ (by omega)]

lemma loadedAll_congr (hm : ∀ x < 2 ^ 47, m x = m' x) {x : ℕ} (hx : x < 2 ^ 47) :
    loadedAll file segs m x = loadedAll file segs m' x := by
  induction segs generalizing m m' with
  | nil => exact hm x hx
  | cons g segs ih => exact ih fun y hy => loaded_congr hm hy

lemma loadableAll_congr (hsegs : ∀ g ∈ segs, Lower size g) (hm : ∀ x < 2 ^ 47, m x = m' x) :
    LoadableAll file segs m ↔ LoadableAll file segs m' := by
  induction segs generalizing m m' with
  | nil => exact Iff.rfl
  | cons g segs ih =>
    rw [LoadableAll, LoadableAll, loadable_congr (hsegs g List.mem_cons_self) hm,
      ih (fun h hh => hsegs h (List.mem_cons_of_mem _ hh)) fun y hy => loaded_congr hm hy]

end Congruence

section Headers

variable {α : Type} {S : FrameSource α} {s s' : State α} {file : ℕ → UInt8} {size contents : ℕ}

structure Holds (s : State α) (file : ℕ → UInt8) (size contents : ℕ) : Prop where
  start : heapStart ≤ contents
  stop : contents + size ≤ s.freeList
  bytes : ∀ i < size, view s (contents + i) = file i

lemma Holds.keep (h : Holds s file size contents) {m : Space} {n : ℕ} (he : Effect S s s' m n) :
    Holds s' file size contents := by
  have hstart := h.start
  have hstop := h.stop
  refine ⟨hstart, hstop.trans he.freeList, fun i hi => ?_⟩
  rw [he.kept _ (by omega) (by omega), h.bytes i hi]

lemma Holds.loadBytes (h : Holds s file size contents) (hs : Kernel S s) {n a : ℕ} (ha : a + n ≤ size) :
    loadBytes s n (contents + a) = some (load file n a) := by
  have hstart := h.start
  have hstop := h.stop
  have hin : ∀ x, contents + a ≤ x → x < contents + a + n → InHeap x ∧ Mapped s x := fun x hx hx' =>
    inHeap_of_freeList hs (by omega) (by omega)
  rw [loadBytes_eq hs.tree (fun x hx hx' => hs.usable (hin x hx hx').1) (fun x hx hx' => (hin x hx hx').2)]
  refine congrArg some (load_shift fun i hi => ?_)
  rw [Nat.add_assoc, h.bytes _ (by omega)]

lemma Holds.lt (h : Holds s file size contents) (hs : Kernel S s) : contents + size < 2 ^ 64 := by
  have hstop := h.stop
  have hsp := hs.space
  have hend := hs.end_le
  rw [heapLimit_eq] at hend
  omega

lemma Holds.fields (h : Holds s file size contents) (hs : Kernel S s) {i : ℕ}
    (hi : headerOffset file i + sizeofPhdr ≤ size) :
    pType s (contents + headerOffset file i) = some (headerType file i) ∧
      pMemsz s (contents + headerOffset file i) = some (segmentAt file i).memsz ∧
      pVaddr s (contents + headerOffset file i) = some (segmentAt file i).vaddr ∧
      pOffset s (contents + headerOffset file i) = some (segmentAt file i).offset ∧
      pFilesz s (contents + headerOffset file i) = some (segmentAt file i).filesz := by
  simp only [sizeofPhdr] at hi
  refine ⟨h.loadBytes hs (by omega), ?_, ?_, ?_, ?_⟩ <;>
    simp only [pMemsz, pVaddr, pOffset, pFilesz, Nat.add_assoc] <;> exact h.loadBytes hs (by omega)

lemma Holds.header_address (h : Holds s file size contents) (hs : Kernel S s) {n i : ℕ}
    (hi : headerOffset file (i + (n + 1)) ≤ size) :
    headerOffset file i + sizeofPhdr ≤ size ∧ headerOffset file (i + 1 + n) ≤ size ∧
      (contents + phoff file + sizeofPhdr * i) % 2 ^ 64 = contents + headerOffset file i := by
  have hlt := h.lt hs
  simp only [headerOffset, sizeofPhdr] at hi ⊢
  refine ⟨by omega, by omega, ?_⟩
  rw [← Nat.add_assoc]
  exact Nat.mod_eq_of_lt (by omega)

end Headers

section Loop

variable {α : Type} {S : FrameSource α} {s : State α} {file : ℕ → UInt8} {size contents : ℕ}

lemma loadSegment_skip (hs : Kernel S s) (hh : Holds s file size contents) {i e : ℕ}
    (hi : headerOffset file i + sizeofPhdr ≤ size) (htype : headerType file i ≠ 1) :
    loadSegment S.kallocFrame contents (contents + headerOffset file i) e s = some (e, s) := by
  simp only [loadSegment, (hh.fields hs hi).1, Option.bind_eq_bind, Option.bind_some]
  exact if_pos htype

lemma loadSegment_maps (hs : Kernel S s) (hh : Holds s file size contents) {i e : ℕ}
    (hi : headerOffset file i + sizeofPhdr ≤ size) (htype : headerType file i = 1) (hg : Lower size (segmentAt file i))
    (hl : segmentFrames (segmentAt file i) ≤ S.left s.mem s.frames) :
    ∃ s₁, Effect S s s₁ (Space.mapZero (loadByte s) (segmentAt file i).page) (segmentFrames (segmentAt file i)) ∧
      loadSegment S.kallocFrame contents (contents + headerOffset file i) e s =
        (memcpy s₁ (segmentAt file i).vaddr (contents + (segmentAt file i).offset)
          (segmentAt file i).filesz).bind fun t =>
          (pVaddr t (contents + headerOffset file i)).bind fun v =>
            (pMemsz t (contents + headerOffset file i)).bind fun m =>
              some (if e < (v + m) % 2 ^ 64 then (v + m) % 2 ^ 64 else e, t) := by
  have hin := hg.inside
  have hstart := hg.start
  have hlt := hh.lt hs
  obtain ⟨htype', hmem, hvaddr, _, _⟩ := hh.fields hs hi
  have hpage : ((segmentAt file i).vaddr - (segmentAt file i).vaddr % 4096) / 4096 = (segmentAt file i).page := by
    rw [Segment.page]
    omega
  obtain ⟨s₁, hs₁, he₁⟩ := mapPages_effect (v := (segmentAt file i).vaddr - (segmentAt file i).vaddr % 4096)
    (by omega) hs hl
  rw [hpage] at he₁
  obtain ⟨_, _, _, hoffset, hfilesz⟩ := (hh.keep he₁).fields he₁.kernel hi
  have hadd : (segmentAt file i).vaddr - (segmentAt file i).vaddr % 4096 + (segmentAt file i).vaddr % 4096 =
      (segmentAt file i).vaddr := by omega
  have hsrc : (contents + (segmentAt file i).offset) % 2 ^ 64 = contents + (segmentAt file i).offset :=
    Nat.mod_eq_of_lt (by omega)
  refine ⟨s₁, he₁, ?_⟩
  simp only [loadSegment, htype', htype, hmem, hvaddr, pageSize, hs₁, hoffset, hfilesz, hadd, hsrc,
    Option.bind_eq_bind, Option.bind_some, ne_eq, not_true_eq_false, if_false]

lemma loadSegment_effect (hs : Kernel S s) (hh : Holds s file size contents) {i e : ℕ}
    (hi : headerOffset file i + sizeofPhdr ≤ size) (htype : headerType file i = 1) (hg : Lower size (segmentAt file i))
    (hl : segmentFrames (segmentAt file i) ≤ S.left s.mem s.frames) :
    ((segmentAt file i).Loadable (loadByte s) → ∃ s',
      loadSegment S.kallocFrame contents (contents + headerOffset file i) e s =
        some (max e ((segmentAt file i).vaddr + (segmentAt file i).memsz), s') ∧
      Effect S s s' ((segmentAt file i).loaded file (loadByte s)) (segmentFrames (segmentAt file i))) ∧
    (¬ (segmentAt file i).Loadable (loadByte s) →
      loadSegment S.kallocFrame contents (contents + headerOffset file i) e s = none) := by
  have hin := hg.inside
  have hstop := hg.stop
  have hsz := hg.filesz
  have hcs := hh.start
  obtain ⟨s₁, he₁, hbody⟩ := loadSegment_maps (e := e) hs hh hi htype hg hl
  have hh₁ := hh.keep he₁
  have hstop₁ := hh₁.stop
  have hfields := fun t (ht : Kernel S t) (hht : Holds t file size contents) => hht.fields ht hi
  generalize segmentAt file i = g at *
  have hbytes : ∀ i < g.filesz, view s₁ (contents + g.offset + i) = file (g.offset + i) := by
    intro i hi
    rw [Nat.add_assoc, hh₁.bytes _ (by omega)]
  have hiff : Space.MappedOn (loadByte s₁) g.vaddr g.filesz ↔ g.Loadable (loadByte s) := by
    refine forall₂_congr fun j hj => ?_
    rw [he₁.lower _ (by omega)]
  constructor
  · intro hloadable
    obtain ⟨s₂, hs₂, he₂⟩ := memcpy_effect he₁.kernel (by omega : heapStart ≤ contents + g.offset) (by omega) (by omega)
      (hiff.mpr hloadable)
    have he := he₁.trans he₂
    obtain ⟨_, hmem₂, hvaddr₂, _, _⟩ := hfields s₂ he.kernel (hh.keep he)
    refine ⟨s₂, ?_, he.of_eq ?_ (by rw [segmentFrames, Nat.add_zero])⟩
    · have hmax : (if e < g.vaddr + g.memsz then g.vaddr + g.memsz else e) = max e (g.vaddr + g.memsz) := by
        split <;> omega
      rw [hbody, hs₂, Option.bind_some, hvaddr₂, Option.bind_some, hmem₂, Option.bind_some,
        Nat.mod_eq_of_lt (by omega : g.vaddr + g.memsz < 2 ^ 64), hmax]
    · intro x hx
      rw [Segment.loaded, Space.copyIn, Space.copyIn, he₁.lower x hx]
      by_cases hxg : g.vaddr ≤ x ∧ x < g.vaddr + g.filesz
      · rw [if_pos hxg, if_pos hxg, hbytes _ (by omega)]
      · rw [if_neg hxg, if_neg hxg]
  · intro hnot
    rw [hbody, memcpy_eq_none he₁.kernel (by omega) (by omega) (by omega) fun hm => hnot (hiff.mp hm)]
    rfl

lemma loadSegments_effect {n i e : ℕ} (hs : Kernel S s) (hh : Holds s file size contents)
    (hi : headerOffset file (i + n) ≤ size) (hlow : ∀ g ∈ segmentsFrom file n i, Lower size g)
    (hl : segmentsFrames (segmentsFrom file n i) ≤ S.left s.mem s.frames) :
    (LoadableAll file (segmentsFrom file n i) (loadByte s) → ∃ s',
      loadSegments S.kallocFrame contents (contents + phoff file) n i e s =
        some (dataEnd (segmentsFrom file n i) e, s') ∧
      Effect S s s' (loadedAll file (segmentsFrom file n i) (loadByte s)) (segmentsFrames (segmentsFrom file n i))) ∧
    (¬ LoadableAll file (segmentsFrom file n i) (loadByte s) →
      loadSegments S.kallocFrame contents (contents + phoff file) n i e s = none) := by
  induction n generalizing i e s with
  | zero => exact ⟨fun _ => ⟨s, rfl, Effect.refl hs⟩, fun hn => absurd trivial hn⟩
  | succ n ih =>
    obtain ⟨hi', hnext, haddr⟩ := hh.header_address hs hi
    rw [loadSegments, haddr]
    by_cases htype : headerType file i = 1
    · rw [segmentsFrom, if_pos htype] at hlow hl ⊢
      simp only [segmentsFrames, List.map_cons, List.sum_cons] at hl
      obtain ⟨hload, hfault⟩ := loadSegment_effect (e := e) hs hh hi' htype (hlow _ List.mem_cons_self) (by omega)
      have hlow' : ∀ g ∈ segmentsFrom file n (i + 1), Lower size g := fun g hg => hlow g (List.mem_cons_of_mem _ hg)
      by_cases hg : (segmentAt file i).Loadable (loadByte s)
      · obtain ⟨s₁, hs₁, he₁⟩ := hload hg
        have hleft := he₁.left
        have hih := ih (e := max e ((segmentAt file i).vaddr + (segmentAt file i).memsz)) he₁.kernel (hh.keep he₁)
          hnext hlow' (by simp only [segmentsFrames]; omega)
        have hiff : LoadableAll file (segmentsFrom file n (i + 1)) (loadByte s₁) ↔
            LoadableAll file (segmentsFrom file n (i + 1)) ((segmentAt file i).loaded file (loadByte s)) :=
          loadableAll_congr hlow' he₁.lower
        rw [hs₁]
        refine ⟨fun hall => ?_, fun hnot => hih.2 fun hall => hnot ⟨hg, hiff.mp hall⟩⟩
        obtain ⟨s', hs', he'⟩ := hih.1 (hiff.mpr hall.2)
        refine ⟨s', hs', (he₁.trans he').of_eq (fun x hx => loadedAll_congr he₁.lower hx) ?_⟩
        simp only [segmentsFrames, List.map_cons, List.sum_cons, le_refl]
      · rw [hfault hg]
        exact ⟨fun hall => absurd hall.1 hg, fun _ => rfl⟩
    · rw [segmentsFrom, if_neg htype] at hlow hl ⊢
      rw [loadSegment_skip hs hh hi' htype]
      exact ih hs hh hnext hlow hl

end Loop

/-- The file is an ELF file of the lower half that leaves room for the heap page. -/
structure LowerElf (file : ℕ → UInt8) (size : ℕ) : Prop where
  header : 64 ≤ size
  table : headerOffset file (phnum file) ≤ size
  each : ∀ g ∈ segments file, Lower size g
  heap : 4096 * heapPage (segments file) < 2 ^ 47

/-- The file is an ELF file of the lower half whose segments occupy different pages, none of them that of the
stack, and that leaves room for the heap page. -/
structure Executable (file : ℕ → UInt8) (size : ℕ) : Prop where
  header : 64 ≤ size
  table : headerOffset file (phnum file) ≤ size
  inside : ∀ g ∈ segments file, g.offset + g.filesz ≤ size
  lower : ∀ g ∈ segments file, g.vaddr < 2 ^ 47 ∧ g.vaddr + g.memsz ≤ 2 ^ 47
  wellFormed : WellFormed (segments file)
  stack : ∀ g ∈ segments file, ∀ j < g.memsz, (g.vaddr + j) / 4096 ≠ stackPage / 4096
  heap : 4096 * heapPage (segments file) < 2 ^ 47

/-- What is assumed of `get_file_size` and `read_file`: they deliver the file into the block that they are given,
leave the lower half alone, and take at most `cost` frames each. -/
structure Reads {α : Type} (S : FrameSource α) (fs : FileSystem α) (file : ℕ → UInt8) (size cost : ℕ) : Prop where
  small : size < 2 ^ 32
  getFileSize : ∀ s, Kernel S s → cost ≤ S.left s.mem s.frames →
    ∃ s', fs.getFileSize s = some (size, s') ∧ Effect S s s' (loadByte s) cost
  readFile : ∀ s data, Kernel S s → cost ≤ S.left s.mem s.frames → heapStart ≤ data → data + size ≤ s.freeList →
    ∃ res s', fs.readFile s size data = some (res, s') ∧ Kernel S s' ∧ (∀ x < 2 ^ 47, loadByte s' x = loadByte s x) ∧
      s.freeList ≤ s'.freeList ∧ S.left s.mem s.frames ≤ S.left s'.mem s'.frames + cost ∧
      ∀ i < size, view s' (data + i) = file i

def framesNeeded (file : ℕ → UInt8) (size cost : ℕ) : ℕ :=
  1 + cost + 4 * (size / 4096 + 2) + cost + segmentsFrames (segments file) + 40

section Submit

variable {α : Type} {S : FrameSource α} {s : State α} {file : ℕ → UInt8} {size cost contents : ℕ}

lemma le_dataEnd {segs : List Segment} {e : ℕ} :
    e ≤ dataEnd segs e ∧ ∀ g ∈ segs, g.vaddr + g.memsz ≤ dataEnd segs e := by
  induction segs generalizing e with
  | nil => exact ⟨le_rfl, fun g hg => absurd hg List.not_mem_nil⟩
  | cons k segs ih =>
    obtain ⟨h₁, h₂⟩ := ih (e := max e (k.vaddr + k.memsz))
    rw [dataEnd, List.foldl_cons, ← dataEnd]
    refine ⟨(le_max_left _ _).trans h₁, fun g hg => ?_⟩
    rcases List.mem_cons.mp hg with rfl | hg
    · exact (le_max_right _ _).trans h₁
    · exact h₂ g hg

lemma page_ne_heapPage {segs : List Segment} {g : Segment} (hg : g ∈ segs) {j : ℕ} (hj : j < g.memsz) :
    (g.vaddr + j) / 4096 ≠ heapPage segs := by
  have := (le_dataEnd (e := 0)).2 g hg
  rw [heapPage]
  omega

-- A relation between states that `kalloc` keeps is kept by its four calls.
lemma allocProcess_rel {fuel : ℕ} {R : State α → State α → Prop} (htrans : ∀ s s' s'', R s s' → R s' s'' → R s s'')
    (hkalloc : ∀ s s' size p, Kernel S s → size < 2 ^ 62 → kalloc S.kallocFrame fuel s size = some (p, s') → R s s')
    {s s' : State α} (hs : Kernel S s) (ha : allocProcess S.kallocFrame fuel s = some s') : R s s' := by
  have hstep : ∀ s s' size p, Kernel S s → size < 2 ^ 62 → kalloc S.kallocFrame fuel s size = some (p, s') →
      Kernel S s' ∧ R s s' := fun s s' size p hs hsize hk =>
    ⟨(hs.kalloc (by omega) hk).1, hkalloc s s' size p hs hsize hk⟩
  obtain ⟨⟨_, s₁⟩, hk₁, ha⟩ := Option.bind_eq_some_iff.mp ha
  obtain ⟨⟨_, s₂⟩, hk₂, ha⟩ := Option.bind_eq_some_iff.mp ha
  obtain ⟨⟨_, s₃⟩, hk₃, ha⟩ := Option.bind_eq_some_iff.mp ha
  obtain ⟨⟨_, s₄⟩, hk₄, ha⟩ := Option.bind_eq_some_iff.mp ha
  obtain rfl := Option.some.inj ha
  obtain ⟨hs₁, hr₁⟩ := hstep _ _ _ _ hs (by norm_num) hk₁
  obtain ⟨hs₂, hr₂⟩ := hstep _ _ _ _ hs₁ (by norm_num) hk₂
  obtain ⟨hs₃, hr₃⟩ := hstep _ _ _ _ hs₂ (by norm_num) hk₃
  obtain ⟨_, hr₄⟩ := hstep _ _ _ _ hs₃ (by norm_num) hk₄
  exact htrans _ _ _ (htrans _ _ _ hr₁ hr₂) (htrans _ _ _ hr₃ hr₄)

lemma allocProcess_effect (hs : Kernel S s) {fuel : ℕ} (hfuel : 2 < fuel) (hl : 32 ≤ S.left s.mem s.frames) :
    ∃ s', allocProcess S.kallocFrame fuel s = some s' ∧ Effect S s s' (loadByte s) 32 := by
  obtain ⟨s₁, hk₁, _, he₁⟩ := kalloc_effect hs (by norm_num : 48 < 2 ^ 62) hfuel (by omega)
  have hl₁ := he₁.left
  obtain ⟨s₂, hk₂, _, he₂⟩ := kalloc_effect he₁.kernel (by norm_num : 8 < 2 ^ 62) hfuel (by omega)
  have hl₂ := he₂.left
  obtain ⟨s₃, hk₃, _, he₃⟩ := kalloc_effect he₂.kernel (by norm_num : 11 < 2 ^ 62) hfuel (by omega)
  have hl₃ := he₃.left
  obtain ⟨s₄, hk₄, _, he₄⟩ := kalloc_effect he₃.kernel (by norm_num : 24 < 2 ^ 62) hfuel (by omega)
  refine ⟨s₄, ?_, (((he₁.trans he₂).trans he₃).trans he₄).of_eq (fun x hx => ?_) (by omega)⟩
  · simp only [allocProcess, hk₁, hk₂, hk₃, hk₄, Option.bind_eq_bind, Option.bind_some]
  · rw [he₃.lower x hx, he₂.lower x hx, he₁.lower x hx]

def submitted (file : ℕ → UInt8) (m : Space) : Space :=
  ((loadedAll file (segments file) m).mapZero (heapPage (segments file))).mapZero (stackPage / 4096)

lemma Executable.lowerElf (hx : Executable file size) : LowerElf file size :=
  ⟨hx.header, hx.table, fun g hg => ⟨hx.inside g hg, (hx.lower g hg).1, (hx.lower g hg).2, hx.wellFormed.filesz g hg⟩,
    hx.heap⟩

lemma readFile_effect {fs : FileSystem α} (hs : Kernel S s) (hr : Reads S fs file size cost) {fuel : ℕ}
    (hfuel : size / 4096 + 2 < fuel) (hl : framesNeeded file size cost ≤ S.left s.mem s.frames) :
    ∃ f s₁ s₂ s₃ res s₄, s.kallocFrame S.kallocFrame = some (f, s₁) ∧ fs.getFileSize s₁ = some (size, s₂) ∧
      kalloc S.kallocFrame fuel s₂ size = some (s₂.freeList + 16, s₃) ∧
      fs.readFile s₃ size (s₂.freeList + 16) = some (res, s₄) ∧ Kernel S s₄ ∧ Holds s₄ file size (s₂.freeList + 16) ∧
      (∀ x < 2 ^ 47, loadByte s₄ x = loadByte s x) ∧
      S.left s.mem s.frames + segmentsFrames (segments file) + 40 ≤
        S.left s₄.mem s₄.frames + framesNeeded file size cost := by
  rw [framesNeeded] at hl ⊢
  have hsmall := hr.small
  obtain ⟨f, s₁, hk, he₁⟩ := kallocFrame_effect hs (by omega)
  have hl₁ := he₁.left
  obtain ⟨s₂, hsize, he₂⟩ := hr.getFileSize s₁ he₁.kernel (by omega)
  have hl₂ := he₂.left
  obtain ⟨s₃, halloc, hfl, he₃⟩ := kalloc_effect he₂.kernel (by omega) hfuel (by omega)
  have hl₃ := he₃.left
  have hst := he₂.kernel.start
  obtain ⟨res, s₄, hread, h₄, hlow, hfl₄, hl₄, hbytes⟩ := hr.readFile s₃ (s₂.freeList + 16) he₃.kernel (by omega)
    (by omega) hfl.ge
  refine ⟨f, s₁, s₂, s₃, res, s₄, hk, hsize, halloc, hread, h₄, ⟨by omega, by omega, hbytes⟩, ?_, by omega⟩
  intro x hx
  rw [hlow x hx, he₃.lower x hx, he₂.lower x hx, he₁.lower x hx]

structure Submits (S : FrameSource α) (fuel : ℕ) (file : ℕ → UInt8) (n : ℕ) (s s₆ s₇ s' : State α) : Prop where
  before : Kernel S s₆
  stack : mapFrame S.kallocFrame stackPage s₆ = some s₇
  mapped : Kernel S s₇
  process : allocProcess S.kallocFrame fuel s₇ = some s'
  kernel : Kernel S s'
  lower : ∀ x < 2 ^ 47, loadByte s' x = submitted file (loadByte s) x
  left : S.left s.mem s.frames ≤ S.left s'.mem s'.frames + n

lemma process_effect {fuel : ℕ} (hs : Kernel S s) (hh : Holds s file size contents) (hx : LowerElf file size)
    (hfuel : 2 < fuel) (hl : 40 ≤ S.left s.mem s.frames) :
    ∃ s₁ s₂ s', mapFrame S.kallocFrame (4096 * heapPage (segments file)) s = some s₁ ∧
      mapFrame S.kallocFrame stackPage s₁ = some s₂ ∧ eEntry s₂ contents = some (load file 8 24) ∧
      allocProcess S.kallocFrame fuel s₂ = some s' ∧ Kernel S s₁ ∧ Kernel S s₂ ∧
      Effect S s s' (Space.mapZero (Space.mapZero (loadByte s) (heapPage (segments file))) (stackPage / 4096)) 40 := by
  have hheader := hx.header
  obtain ⟨s₁, hmap₁, he₁⟩ := mapFrame_effect hs hx.heap (by omega)
  have hl₁ := he₁.left
  obtain ⟨s₂, hmap₂, he₂⟩ := mapFrame_effect he₁.kernel (v := stackPage) (by decide) (by omega)
  have hl₂ := he₂.left
  have hentry : eEntry s₂ contents = some (load file 8 24) :=
    (hh.keep (he₁.trans he₂)).loadBytes he₂.kernel (by omega)
  obtain ⟨s', halloc, he'⟩ := allocProcess_effect he₂.kernel hfuel (by omega)
  refine ⟨s₁, s₂, s', hmap₁, hmap₂, hentry, halloc, he₁.kernel, he₂.kernel,
    ((he₁.trans he₂).trans he').of_eq (fun x hx' => ?_) (by omega)⟩
  rw [he₂.lower x hx', Space.mapZero, he₁.lower x hx', Space.mapZero, Nat.mul_div_cancel_left _ (by decide : 0 < 4096)]
  rfl

lemma submit_parts {fs : FileSystem α} (hs : Kernel S s) (hr : Reads S fs file size cost) (hx : LowerElf file size)
    {fuel : ℕ} (hfuel : size / 4096 + 2 < fuel) (hl : framesNeeded file size cost ≤ S.left s.mem s.frames)
    (scheduler : Scheduler) :
    (LoadableAll file (segments file) (loadByte s) → ∃ scheduler' s₆ s₇ s',
      submitNewProcess S.kallocFrame fs fuel scheduler s = some (scheduler', s') ∧
      Submits S fuel file (framesNeeded file size cost) s s₆ s₇ s') ∧
    (¬ LoadableAll file (segments file) (loadByte s) →
      submitNewProcess S.kallocFrame fs fuel scheduler s = none) := by
  obtain ⟨f, s₁, s₂, s₃, res, s₄, hk, hsize, halloc, hread, h₄, hh₄, hlow₄, hl₄⟩ := readFile_effect hs hr hfuel hl
  generalize s₂.freeList + 16 = contents at *
  have hheader := hx.header
  have htable := hx.table
  have hlt := hh₄.lt h₄
  have hphoff : ePhoff s₄ contents = some (phoff file) := hh₄.loadBytes h₄ (by omega)
  have hphnum : ePhnum s₄ contents = some (phnum file) := hh₄.loadBytes h₄ (by omega)
  have hadd : (contents + phoff file) % 2 ^ 64 = contents + phoff file := by
    rw [headerOffset] at htable
    exact Nat.mod_eq_of_lt (by omega)
  obtain ⟨hload, hfault⟩ := loadSegments_effect (e := 0) (i := 0) (n := phnum file) h₄ hh₄
    (by rw [Nat.zero_add]; exact htable) hx.each (by rw [← segments]; omega)
  rw [← segments] at hload hfault
  have hiff : LoadableAll file (segments file) (loadByte s₄) ↔ LoadableAll file (segments file) (loadByte s) :=
    loadableAll_congr hx.each hlow₄
  constructor
  · intro hall
    obtain ⟨s₅, hloop, he₅⟩ := hload (hiff.mpr hall)
    have hl₅ := he₅.left
    have hheap := hx.heap
    have hend : (dataEnd (segments file) 0 + 4096 - dataEnd (segments file) 0 % 4096) % 2 ^ 64 =
        4096 * heapPage (segments file) := by
      rw [heapPage] at hheap ⊢
      omega
    obtain ⟨s₆, s₇, s₈, hmap₆, hmap₇, hentry, halloc₈, h₆, h₇, he₈⟩ :=
      process_effect he₅.kernel (hh₄.keep he₅) hx (by omega : 2 < fuel) (by omega)
    have hl₈ := he₈.left
    let process : Process := ⟨scheduler.nextId, load file 8 24, stackPage + 4000, 4096 * heapPage (segments file)⟩
    refine ⟨⟨scheduler.nextId + 1, scheduler.processes ++ [process]⟩, s₆, s₇, s₈, ?_,
      ⟨h₆, hmap₇, h₇, halloc₈, he₈.kernel, ?_, by omega⟩⟩
    · simp only [submitNewProcess, hk, hsize, halloc, hread, hphoff, hphnum, hadd, hloop, pageSize, hend, hmap₆, hmap₇,
        hentry, halloc₈, Option.bind_eq_bind, Option.bind_some]
      rfl
    · intro x hx'
      rw [he₈.lower x hx', Space.mapZero, Space.mapZero, he₅.lower x hx', loadedAll_congr hlow₄ hx']
      rfl
  · intro hnot
    simp only [submitNewProcess, hk, hsize, halloc, hread, hphoff, hphnum, hadd, Option.bind_eq_bind, Option.bind_some,
      hfault fun hall => hnot (hiff.mp hall), Option.bind_none]

end Submit

end TetraOS.Processes
