import TetraOS.Memory.EntryStores
import TetraOS.Processes.ProcessImage

/-! What `submit_new_process` does to the kernel half of the address space, for every file that it may be given. -/

namespace TetraOS.Processes

open Memory Library.ByteMemory Library.TableTree VirtualPage PhysicalAllocator

variable {α : Type}

section Stores

variable (k : FrameAlloc α)

/-- The stores of `map_page` in each part of `submit_new_process`, up to the first fault. -/
def mapFrameStores (v : ℕ) (s : State α) : List (EntryStore α) :=
  (s.kallocFrame k).elim [] fun (frame, s) => mapPageStores k s v frame 0x1F

def mapPagesStores (v : ℕ) : ℕ → State α → List (EntryStore α)
  | 0, _ => []
  | n + 1, s => mapFrameStores k v s ++ (mapFrame k v s).elim [] fun s => mapPagesStores v n s

def loadSegmentStores (header : ℕ) (s : State α) : List (EntryStore α) :=
  (pType s header).elim [] fun type => if type ≠ 1 then [] else
  (pMemsz s header).elim [] fun memsz => (pVaddr s header).elim [] fun vaddr =>
  mapPagesStores k (vaddr - vaddr % pageSize) (memsz / pageSize + 1) s

def loadSegmentsStores (contents headers : ℕ) : (n i dataEnd : ℕ) → State α → List (EntryStore α)
  | 0, _, _, _ => []
  | n + 1, i, dataEnd, s => loadSegmentStores k ((headers + sizeofPhdr * i) % 2 ^ 64) s ++
    (loadSegment k contents ((headers + sizeofPhdr * i) % 2 ^ 64) dataEnd s).elim [] fun (dataEnd, s) =>
      loadSegmentsStores contents headers n (i + 1) dataEnd s

/-- The file in memory: where it is, its program headers and their number, and the state before the loop. -/
def readProgram (fs : FileSystem α) (fuel : ℕ) (s : State α) : Option (ℕ × ℕ × ℕ × State α) := do
  let (_, s) ← s.kallocFrame k
  let (fileSize, s) ← fs.getFileSize s
  let (contents, s) ← kalloc k fuel s fileSize
  let (_, s) ← fs.readFile s fileSize contents
  let programHeadersOffset ← ePhoff s contents
  let programHeadersAmount ← ePhnum s contents
  some (contents, (contents + programHeadersOffset) % 2 ^ 64, programHeadersAmount, s)

def heapAddress (dataEnd : ℕ) : ℕ := (dataEnd + pageSize - dataEnd % pageSize) % 2 ^ 64

def submitStores (fs : FileSystem α) (fuel : ℕ) (s : State α) : List (EntryStore α) :=
  (readProgram k fs fuel s).elim [] fun (contents, headers, n, s) => loadSegmentsStores k contents headers n 0 0 s ++
    (loadSegments k contents headers n 0 0 s).elim [] fun (dataEnd, s) => mapFrameStores k (heapAddress dataEnd) s ++
      (mapFrame k (heapAddress dataEnd) s).elim [] fun s => mapFrameStores k stackPage s

def HeaderLow (header : ℕ) (s : State α) : Prop :=
  ∀ memsz vaddr, pType s header = some 1 → pMemsz s header = some memsz → pVaddr s header = some vaddr →
    (mapFrame k (vaddr - vaddr % pageSize) s).isSome → LowHalf vaddr

def HeadersLow (contents headers : ℕ) : (n i dataEnd : ℕ) → State α → Prop
  | 0, _, _, _ => True
  | n + 1, i, dataEnd, s => HeaderLow k ((headers + sizeofPhdr * i) % 2 ^ 64) s ∧
    ∀ dataEnd' s', loadSegment k contents ((headers + sizeofPhdr * i) % 2 ^ 64) dataEnd s = some (dataEnd', s') →
      HeadersLow contents headers n (i + 1) dataEnd' s'

/-- The program headers and the heap page after the last segment stay in the lower half. -/
def ProgramLow (fs : FileSystem α) (fuel : ℕ) (s : State α) : Prop :=
  ∀ contents headers n s', readProgram k fs fuel s = some (contents, headers, n, s') →
    HeadersLow k contents headers n 0 0 s' ∧
    ∀ dataEnd s'', loadSegments k contents headers n 0 0 s' = some (dataEnd, s'') →
      (mapFrame k (heapAddress dataEnd) s'').isSome → LowHalf (heapAddress dataEnd)

/-- Every entry goes to a page table, no entry changes what is seen in the kernel half, and after the call the kernel
half is as it was but for the pages that `kalloc` has added to the heap. -/
structure Contained (fs : FileSystem α) (fuel : ℕ) (scheduler : Scheduler) (s : State α) : Prop where
  tables : ∀ st ∈ submitStores k fs fuel s, st.OnTable
  stores : ∀ st ∈ submitStores k fs fuel s, st.KeepsKernelHalf
  returned : ∀ scheduler' s', submitNewProcess k fs fuel scheduler s = some (scheduler', s') → ∀ x, virtualOffset ≤ x →
    ¬ (s.virtualAllocEnd ≤ x ∧ x < s'.virtualAllocEnd) → translate s' x = translate s x

end Stores

structure Grown (s s' : State α) : Prop where
  end_le : s.virtualAllocEnd ≤ s'.virtualAllocEnd
  upper : ∀ x, virtualOffset ≤ x → ¬ (s.virtualAllocEnd ≤ x ∧ x < s'.virtualAllocEnd) → translate s' x = translate s x

/-- What is assumed of `get_file_size` and `read_file`: whatever the file holds, they touch the kernel half only by
allocating from the heap and by filling the block that they are given. -/
structure Undisturbing (S : FrameSource α) (fs : FileSystem α) : Prop where
  getFileSize : ∀ s size s', Kernel S s → fs.getFileSize s = some (size, s') →
    size < 2 ^ 32 ∧ Kernel S s' ∧ Grown s s'
  readFile : ∀ s size data res s', Kernel S s → heapStart ≤ data → data + size ≤ s.freeList →
    fs.readFile s size data = some (res, s') → Kernel S s' ∧ Grown s s'

section Grown

variable {S : FrameSource α} {s s' s'' : State α}

lemma Grown.refl (s : State α) : Grown s s := ⟨le_rfl, fun _ _ _ => rfl⟩

lemma Grown.trans (h : Grown s s') (h' : Grown s' s'') : Grown s s'' := by
  have h₁ := h.end_le
  have h₂ := h'.end_le
  refine ⟨h₁.trans h₂, fun x hx hn => ?_⟩
  rw [h'.upper x hx (by omega), h.upper x hx (by omega)]

lemma grown_of_walk (h : Kernel S s) (h' : Kernel S s') (hend : s.virtualAllocEnd ≤ s'.virtualAllocEnd)
    (hsatp : s'.satp = s.satp) (hw : ∀ x, virtualOffset ≤ x → x < 2 ^ 64 → Outside x →
      ¬ (s.virtualAllocEnd ≤ x ∧ x < s'.virtualAllocEnd) →
      walk (slot s'.mem) s.satp (path x) = walk (slot s.mem) s.satp (path x)) : Grown s s' := by
  refine ⟨hend, fun x hx hn => translate_upper_congr h.tree h'.tree (fun _ => trivial) hx fun ho hlt => ?_⟩
  rw [hsatp, hw x hx hlt ho hn]

lemma not_heapPath_of_lowHalf {v : ℕ} (hv : LowHalf v) : ¬ HeapPath (path v) := by
  rintro ⟨b, ⟨h₁, h₂⟩, hp⟩
  rw [heapStart_eq] at h₁
  rw [heapLimit_eq] at h₂
  exact hv.path_ne (by simp only [virtualOffset]; omega) (by omega) hp.symm

variable (h : Kernel S s)
include h

lemma kallocFrame_grown {f : ℕ} (hk : s.kallocFrame S.kallocFrame = some (f, s')) : Kernel S s' ∧ Grown s s' := by
  obtain ⟨h', hsatp, _, hend, hw, _⟩ := h.kallocFrame hk
  exact ⟨h', grown_of_walk h h' hend.ge hsatp fun x _ _ ho _ => hw _ (inside_path ho)⟩

lemma kalloc_grown {fuel size p : ℕ} (hsize : size < 2 ^ 62) (hk : kalloc S.kallocFrame fuel s size = some (p, s')) :
    Kernel S s' ∧ Grown s s' := by
  obtain ⟨h', _, _, hkeep⟩ := h.kalloc (by omega) hk
  refine ⟨h', grown_of_walk h h' hkeep.end_le hkeep.satp fun x hx hlt ho hn => hkeep.walk x ho ?_⟩
  rintro ⟨y, hy, hy', hp⟩
  have hst := h.start
  have hsp := h.space
  have hal := h.aligned
  have hal' := h'.aligned
  have hend := h'.end_le
  rw [heapStart_eq] at hst
  rw [heapLimit_eq] at hend
  simp only [virtualOffset] at hx
  rw [VirtualPage.path_eq_iff, pageOf, pageOf] at hp
  omega

lemma allocProcess_grown {fuel : ℕ} (ha : allocProcess S.kallocFrame fuel s = some s') : Grown s s' := by
  refine allocProcess_rel (R := Grown) ?_ ?_ h ha
  · exact fun s s' s'' hg hg' => hg.trans hg'
  · exact fun s s' size p hs hsize hk => (kalloc_grown hs hsize hk).2

/-- A copy that starts in the lower half faults before it leaves it. -/
lemma memcpy_grown {dest src n : ℕ} (hdest : LowHalf dest) (hc : memcpy s dest src n = some s') :
    (n = 0 ∨ dest + n ≤ 2 ^ 47) ∧ Kernel S s' ∧ Grown s s' := by
  induction n generalizing s' with
  | zero =>
    obtain rfl := Option.some.inj hc
    exact ⟨Or.inl rfl, h, Grown.refl s⟩
  | succ n ih =>
    obtain ⟨s₁, hc₁, hc⟩ := Option.bind_eq_some_iff.mp hc
    obtain ⟨b, _, hc⟩ := Option.bind_eq_some_iff.mp hc
    obtain ⟨hn, h₁, hg₁⟩ := ih hc₁
    obtain ⟨p, ht, _⟩ := Option.map_eq_some_iff.mp hc
    have hlow : dest + n < 2 ^ 47 := by
      have hcan : Canonical (dest + n) := by
        by_contra hcan
        rw [Memory.translate, if_neg hcan] at ht
        cases ht
      rw [LowHalf] at hdest
      rcases hcan with hcan | hcan <;> omega
    have hst := h₁.start
    have hlim := lower_le_heapStart
    obtain ⟨h', hsame, _⟩ := h₁.storeByte (outside_of_lower hlow) trivial (Or.inl (by omega)) hc
    exact ⟨Or.inr (by omega), h', hg₁.trans (grown_of_walk h₁ h' hsame.virtualAllocEnd.ge hsame.satp
      fun x _ _ ho _ => hsame.walk _ (inside_path ho))⟩

lemma mapFrame_grown {v : ℕ} (hv : LowHalf v) (hm : mapFrame S.kallocFrame v s = some s') :
    Kernel S s' ∧ Grown s s' := by
  obtain ⟨h', n, hnew⟩ := mapFrame_mapsNew h hv.outside (not_heapPath_of_lowHalf hv) hm
  refine ⟨h', grown_of_walk h h' hnew.virtualAllocEnd.ge hnew.satp fun x hx hlt ho _ => ?_⟩
  exact hnew.other _ (inside_path ho) (not_prefix_path (hv.path_ne hx hlt))

end Grown

def Proper (stores : List (EntryStore α)) : Prop := ∀ st ∈ stores, st.OnTable ∧ st.KeepsKernelHalf

section Proper

variable {S : FrameSource α} {s s' : State α} {v : ℕ}

lemma proper_nil : Proper ([] : List (EntryStore α)) := fun _ hst => absurd hst List.not_mem_nil

lemma proper_append {l l' : List (EntryStore α)} : Proper (l ++ l') ↔ Proper l ∧ Proper l' := List.forall_mem_append

lemma lowHalf_page_iff : LowHalf (v - v % pageSize) ↔ LowHalf v := by
  simp only [LowHalf, pageSize]
  omega

variable (h : Kernel S s)
include h

lemma mapFrameStores_proper (hv : LowHalf v) : Proper (mapFrameStores S.kallocFrame v s) := by
  rw [mapFrameStores]
  cases hk : s.kallocFrame S.kallocFrame with
  | none => exact proper_nil
  | some r =>
    obtain ⟨f, s₁⟩ := r
    obtain ⟨n, rfl, _, hfresh, h₁, _⟩ := h.tree.kallocFrame hk
    intro st hst
    have hstored := mapPageStores_stored h₁ hfresh hv.outside (by decide) (fun _ => by decide) st hst
    exact ⟨hstored.onTable hv.outside, hstored.keepsKernelHalf (fun _ => trivial) hv⟩

lemma lowHalf_of_proper (hm : (mapFrame S.kallocFrame v s).isSome) (hp : Proper (mapFrameStores S.kallocFrame v s)) :
    LowHalf v := by
  obtain ⟨s', hm⟩ := Option.isSome_iff_exists.mp hm
  obtain ⟨⟨f, s₁⟩, hk, hm⟩ := Option.bind_eq_some_iff.mp hm
  obtain ⟨n, rfl, _, hfresh, h₁, _⟩ := h.tree.kallocFrame hk
  rw [mapFrameStores, hk] at hp
  by_contra hv
  by_cases ho : Outside v
  · obtain ⟨st, hst, hnot⟩ := exists_not_keepsKernelHalf h₁ hfresh ho hv (by decide) (by decide) trivial
      (fun _ => trivial) hm
    exact hnot (hp st hst).2
  · obtain ⟨st, hst, hnot⟩ := exists_not_onTable h₁ ho hm
    exact hnot (hp st hst).1

lemma mapFrameStores_proper_of_eq_none (hm : mapFrame S.kallocFrame v s = none) :
    Proper (mapFrameStores S.kallocFrame v s) := by
  rw [mapFrameStores]
  cases hk : s.kallocFrame S.kallocFrame with
  | none => exact proper_nil
  | some r =>
    obtain ⟨f, s₁⟩ := r
    obtain ⟨n, rfl, _, hfresh, h₁, _⟩ := h.tree.kallocFrame hk
    rw [mapFrame, hk] at hm
    change mapPage S.kallocFrame s₁ v (4096 * n) 0x1F = none at hm
    by_cases ho : Outside v
    · intro st hst
      have hstored := mapPageStores_stored h₁ hfresh ho (by decide) (fun _ => by decide) st hst
      exact ⟨hstored.onTable ho, hstored.keepsKernelHalf_of_depth (fun _ => trivial) (depth_lt_of_eq_none hm hst)⟩
    · change Proper (mapPageStores S.kallocFrame s₁ v (4096 * n) 0x1F)
      rw [mapPageStores_direct_of_eq_none h₁ ho hm]
      exact proper_nil

lemma mapFrameStores_proper_iff : Proper (mapFrameStores S.kallocFrame v s) ↔
    ((mapFrame S.kallocFrame v s).isSome → LowHalf v) := by
  refine ⟨fun hp hm => lowHalf_of_proper h hm hp, fun hv => ?_⟩
  cases hm : mapFrame S.kallocFrame v s with
  | none => exact mapFrameStores_proper_of_eq_none h hm
  | some s' => exact mapFrameStores_proper h (hv (by rw [hm]; rfl))

lemma mapPages_proper (hv : LowHalf v) (n : ℕ) : Proper (mapPagesStores S.kallocFrame v n s) ∧
    ∀ s', mapPages S.kallocFrame v n s = some s' → Kernel S s' ∧ Grown s s' := by
  induction n generalizing s with
  | zero =>
    refine ⟨proper_nil, fun s' hs' => ?_⟩
    obtain rfl := Option.some.inj hs'
    exact ⟨h, Grown.refl s⟩
  | succ n ih =>
    rw [mapPagesStores, mapPages]
    cases hm : mapFrame S.kallocFrame v s with
    | none =>
      refine ⟨proper_append.mpr ⟨mapFrameStores_proper h hv, proper_nil⟩, fun s' hs' => ?_⟩
      cases hs'
    | some s₁ =>
      obtain ⟨h₁, hg₁⟩ := mapFrame_grown h hv hm
      obtain ⟨hstores, hreturn⟩ := ih h₁
      refine ⟨proper_append.mpr ⟨mapFrameStores_proper h hv, hstores⟩, fun s' hs' => ?_⟩
      obtain ⟨h', hg'⟩ := hreturn s' hs'
      exact ⟨h', hg₁.trans hg'⟩

end Proper

section Rounds

variable {S : FrameSource α} {s s' : State α} {contents headers header dataEnd dataEnd' : ℕ}

variable (h : Kernel S s)
include h

lemma headerLow_of_proper (hp : Proper (loadSegmentStores S.kallocFrame header s)) :
    HeaderLow S.kallocFrame header s := by
  intro memsz vaddr htype hmemsz hvaddr hm
  simp only [loadSegmentStores, htype, hmemsz, hvaddr, Option.elim_some, ne_eq, not_true_eq_false, if_false] at hp
  exact lowHalf_page_iff.mp (lowHalf_of_proper h hm (proper_append.mp hp).1)

lemma loadSegmentStores_proper (hlow : HeaderLow S.kallocFrame header s) :
    Proper (loadSegmentStores S.kallocFrame header s) := by
  rw [loadSegmentStores]
  cases htype : pType s header with
  | none => exact proper_nil
  | some type =>
    rw [Option.elim_some]
    split
    · exact proper_nil
    rename_i hone
    rw [not_not] at hone
    subst hone
    cases hmemsz : pMemsz s header with
    | none => exact proper_nil
    | some memsz =>
      cases hvaddr : pVaddr s header with
      | none => exact proper_nil
      | some vaddr =>
        simp only [Option.elim_some]
        cases hm : mapFrame S.kallocFrame (vaddr - vaddr % pageSize) s with
        | none =>
          rw [mapPagesStores, hm]
          exact proper_append.mpr ⟨mapFrameStores_proper_of_eq_none h hm, proper_nil⟩
        | some s₁ =>
          have hv := hlow memsz vaddr htype hmemsz hvaddr (by rw [hm]; rfl)
          exact (mapPages_proper h (lowHalf_page_iff.mpr hv) _).1

lemma loadSegment_grown (hlow : HeaderLow S.kallocFrame header s)
    (hk : loadSegment S.kallocFrame contents header dataEnd s = some (dataEnd', s')) : Kernel S s' ∧ Grown s s' := by
  obtain ⟨type, htype, hk⟩ := Option.bind_eq_some_iff.mp hk
  split at hk
  · obtain ⟨_, rfl⟩ := Prod.mk.inj (Option.some.inj hk)
    exact ⟨h, Grown.refl s⟩
  rename_i hone
  rw [not_not] at hone
  subst hone
  obtain ⟨memsz, hmemsz, hk⟩ := Option.bind_eq_some_iff.mp hk
  obtain ⟨vaddr, hvaddr, hk⟩ := Option.bind_eq_some_iff.mp hk
  obtain ⟨s₁, hm, hk⟩ := Option.bind_eq_some_iff.mp hk
  obtain ⟨offset, _, hk⟩ := Option.bind_eq_some_iff.mp hk
  obtain ⟨filesz, _, hk⟩ := Option.bind_eq_some_iff.mp hk
  obtain ⟨s₂, hcopy, hk⟩ := Option.bind_eq_some_iff.mp hk
  obtain ⟨_, _, hk⟩ := Option.bind_eq_some_iff.mp hk
  obtain ⟨_, _, hk⟩ := Option.bind_eq_some_iff.mp hk
  obtain ⟨_, rfl⟩ := Prod.mk.inj (Option.some.inj hk)
  have hv : LowHalf vaddr := by
    obtain ⟨s', hs', _⟩ := Option.bind_eq_some_iff.mp hm
    exact hlow memsz vaddr htype hmemsz hvaddr (by rw [hs']; rfl)
  obtain ⟨h₁, hg₁⟩ := (mapPages_proper h (lowHalf_page_iff.mpr hv) _).2 s₁ hm
  rw [Nat.sub_add_cancel (Nat.mod_le _ _)] at hcopy
  obtain ⟨_, h₂, hg₂⟩ := memcpy_grown h₁ hv hcopy
  exact ⟨h₂, hg₁.trans hg₂⟩

lemma loadSegments_proper_iff {n i : ℕ} :
    Proper (loadSegmentsStores S.kallocFrame contents headers n i dataEnd s) ↔
      HeadersLow S.kallocFrame contents headers n i dataEnd s := by
  induction n generalizing i dataEnd s with
  | zero => exact ⟨fun _ => trivial, fun _ => proper_nil⟩
  | succ n ih =>
    rw [loadSegmentsStores, HeadersLow, proper_append]
    have hround : Proper (loadSegmentStores S.kallocFrame ((headers + sizeofPhdr * i) % 2 ^ 64) s) ↔
        HeaderLow S.kallocFrame ((headers + sizeofPhdr * i) % 2 ^ 64) s :=
      ⟨headerLow_of_proper h, loadSegmentStores_proper h⟩
    rw [hround]
    refine and_congr_right fun hlow => ?_
    cases hk : loadSegment S.kallocFrame contents ((headers + sizeofPhdr * i) % 2 ^ 64) dataEnd s with
    | none => exact ⟨fun _ _ _ hh => (by cases hh), fun _ => proper_nil⟩
    | some r =>
      obtain ⟨e, s₁⟩ := r
      rw [Option.elim_some, ih (loadSegment_grown h hlow hk).1]
      refine ⟨?_, fun hh => hh e s₁ rfl⟩
      rintro hh e' s' heq
      obtain ⟨rfl, rfl⟩ := Prod.mk.inj (Option.some.inj heq)
      exact hh

lemma loadSegments_grown {n i : ℕ} (hlow : HeadersLow S.kallocFrame contents headers n i dataEnd s)
    (hk : loadSegments S.kallocFrame contents headers n i dataEnd s = some (dataEnd', s')) :
    Kernel S s' ∧ Grown s s' := by
  induction n generalizing i dataEnd s with
  | zero =>
    obtain ⟨_, rfl⟩ := Prod.mk.inj (Option.some.inj hk)
    exact ⟨h, Grown.refl s⟩
  | succ n ih =>
    obtain ⟨⟨e, s₁⟩, hk₁, hk⟩ := Option.bind_eq_some_iff.mp hk
    obtain ⟨h₁, hg₁⟩ := loadSegment_grown h hlow.1 hk₁
    obtain ⟨h', hg'⟩ := ih h₁ (hlow.2 e s₁ hk₁) hk
    exact ⟨h', hg₁.trans hg'⟩

end Rounds

section Submit

variable {S : FrameSource α} {s s' : State α} {fs : FileSystem α} {fuel contents headers n : ℕ}
    {scheduler scheduler' : Scheduler}

lemma readProgram_cases {k : FrameAlloc α} (hk : readProgram k fs fuel s = some (contents, headers, n, s')) :
    ∃ f t₁ size t₂ t₃ res offset, s.kallocFrame k = some (f, t₁) ∧ fs.getFileSize t₁ = some (size, t₂) ∧
      kalloc k fuel t₂ size = some (contents, t₃) ∧ fs.readFile t₃ size contents = some (res, s') ∧
      ePhoff s' contents = some offset ∧ ePhnum s' contents = some n ∧ headers = (contents + offset) % 2 ^ 64 := by
  simp only [readProgram, Option.bind_eq_bind, Option.bind_eq_some_iff, Option.some.injEq, Prod.mk.injEq] at hk
  obtain ⟨⟨f, t₁⟩, h₁, ⟨size, t₂⟩, h₂, ⟨p, t₃⟩, h₃, ⟨res, t₄⟩, h₄, offset, h₅, m, h₆, rfl, rfl, rfl, rfl⟩ := hk
  exact ⟨f, t₁, size, t₂, t₃, res, offset, h₁, h₂, h₃, h₄, h₅, h₆, rfl⟩

lemma submitNewProcess_cases {k : FrameAlloc α}
    (hk : submitNewProcess k fs fuel scheduler s = some (scheduler', s')) :
    ∃ contents headers n s₁ dataEnd s₂ s₃ s₄, readProgram k fs fuel s = some (contents, headers, n, s₁) ∧
      loadSegments k contents headers n 0 0 s₁ = some (dataEnd, s₂) ∧ mapFrame k (heapAddress dataEnd) s₂ = some s₃ ∧
      mapFrame k stackPage s₃ = some s₄ ∧ allocProcess k fuel s₄ = some s' ∧
      ∃ entry, eEntry s₄ contents = some entry ∧ scheduler' = ⟨scheduler.nextId + 1,
        scheduler.processes ++ [⟨scheduler.nextId, entry, stackPage + 4000, heapAddress dataEnd⟩]⟩ := by
  simp only [submitNewProcess, Option.bind_eq_bind, Option.bind_eq_some_iff, Option.some.injEq, Prod.mk.injEq] at hk
  obtain ⟨⟨f, t₁⟩, h₁, ⟨size, t₂⟩, h₂, ⟨contents, t₃⟩, h₃, ⟨res, t₄⟩, h₄, offset, h₅, amount, h₆, ⟨dataEnd, s₂⟩, h₇,
    s₃, h₈, s₄, h₉, entry, hentry, s₅, h₁₀, hscheduler, rfl⟩ := hk
  refine ⟨contents, (contents + offset) % 2 ^ 64, amount, t₄, dataEnd, s₂, s₃, s₄, ?_, h₇, h₈, h₉, h₁₀, entry, hentry,
    hscheduler.symm⟩
  simp only [readProgram, h₁, h₂, h₃, h₄, h₅, h₆, Option.bind_eq_bind, Option.bind_some]

variable (h : Kernel S s) (hfs : Undisturbing S fs)
include h hfs

lemma readProgram_grown (hk : readProgram S.kallocFrame fs fuel s = some (contents, headers, n, s')) :
    Kernel S s' ∧ Grown s s' := by
  obtain ⟨f, t₁, size, t₂, t₃, res, _, hk₁, hk₂, hk₃, hk₄, _⟩ := readProgram_cases hk
  obtain ⟨h₁, hg₁⟩ := kallocFrame_grown h hk₁
  obtain ⟨hsize, h₂, hg₂⟩ := hfs.getFileSize t₁ size t₂ h₁ hk₂
  obtain ⟨h₃, hg₃⟩ := kalloc_grown h₂ (by omega) hk₃
  obtain ⟨_, rfl, hfl, _⟩ := h₂.kalloc (by omega) hk₃
  have hst := h₂.start
  obtain ⟨h₄, hg₄⟩ := hfs.readFile t₃ size _ res s' h₃ (by omega) hfl.ge hk₄
  exact ⟨h₄, (hg₁.trans hg₂).trans (hg₃.trans hg₄)⟩

lemma submitStores_proper_iff : Proper (submitStores S.kallocFrame fs fuel s) ↔ ProgramLow S.kallocFrame fs fuel s := by
  rw [submitStores, ProgramLow]
  cases hread : readProgram S.kallocFrame fs fuel s with
  | none => exact ⟨fun _ _ _ _ _ hh => (by cases hh), fun _ => proper_nil⟩
  | some r =>
    obtain ⟨contents, headers, n, s₁⟩ := r
    obtain ⟨h₁, _⟩ := readProgram_grown h hfs hread
    have hall : ∀ {p : ℕ → ℕ → ℕ → State α → Prop}, (∀ c hd m t, some (contents, headers, n, s₁) = some (c, hd, m, t) →
        p c hd m t) ↔ p contents headers n s₁ := by
      intro p
      refine ⟨fun hh => hh _ _ _ _ rfl, fun hh c hd m t heq => ?_⟩
      simp only [Option.some.injEq, Prod.mk.injEq] at heq
      obtain ⟨rfl, rfl, rfl, rfl⟩ := heq
      exact hh
    rw [hall, Option.elim_some, proper_append, loadSegments_proper_iff h₁]
    refine and_congr_right fun hlow => ?_
    cases hloop : loadSegments S.kallocFrame contents headers n 0 0 s₁ with
    | none => exact ⟨fun _ _ _ hh => (by cases hh), fun _ => proper_nil⟩
    | some r =>
      obtain ⟨dataEnd, s₂⟩ := r
      obtain ⟨h₂, _⟩ := loadSegments_grown h₁ hlow hloop
      rw [Option.elim_some, proper_append, mapFrameStores_proper_iff h₂]
      constructor
      · rintro ⟨hheap, _⟩ e s' heq
        obtain ⟨rfl, rfl⟩ := Prod.mk.inj (Option.some.inj heq)
        exact hheap
      · intro hh
        have hheap := hh dataEnd s₂ rfl
        refine ⟨hheap, ?_⟩
        cases hm : mapFrame S.kallocFrame (heapAddress dataEnd) s₂ with
        | none => exact proper_nil
        | some s₃ =>
          have h₃ := (mapFrame_grown h₂ (hheap (by rw [hm]; rfl)) hm).1
          exact mapFrameStores_proper h₃ (by decide)

lemma submit_grown (hlow : ProgramLow S.kallocFrame fs fuel s)
    (hk : submitNewProcess S.kallocFrame fs fuel scheduler s = some (scheduler', s')) : Grown s s' := by
  obtain ⟨contents, headers, n, s₁, dataEnd, s₂, s₃, s₄, hread, hloop, hheap, hstack, hprocess, _⟩ :=
    submitNewProcess_cases hk
  obtain ⟨hheaders, hend⟩ := hlow contents headers n s₁ hread
  obtain ⟨h₁, hg₁⟩ := readProgram_grown h hfs hread
  obtain ⟨h₂, hg₂⟩ := loadSegments_grown h₁ hheaders hloop
  obtain ⟨h₃, hg₃⟩ := mapFrame_grown h₂ (hend dataEnd s₂ hloop (by rw [hheap]; rfl)) hheap
  obtain ⟨h₄, hg₄⟩ := mapFrame_grown h₃ (by decide) hstack
  exact ((hg₁.trans hg₂).trans (hg₃.trans hg₄)).trans (allocProcess_grown h₄ hprocess)

lemma contained_iff (scheduler : Scheduler) :
    Contained S.kallocFrame fs fuel scheduler s ↔ ProgramLow S.kallocFrame fs fuel s := by
  rw [← submitStores_proper_iff h hfs]
  constructor
  · intro hc st hst
    exact ⟨hc.tables st hst, hc.stores st hst⟩
  · intro hp
    refine ⟨fun st hst => (hp st hst).1, fun st hst => (hp st hst).2, fun scheduler' s' hk => ?_⟩
    exact (submit_grown h hfs ((submitStores_proper_iff h hfs).mp hp) hk).upper

end Submit

/-- In every state that the kernel can reach, and whatever the file holds: the kernel half is out of the program's
reach if and only if no header and no heap page names an address whose bit 47 is set. -/
theorem contained_iff_programLow (img : Image) (m : Memory) (hready : Ready img m) (s : State Frames)
    (blocks : List Block) (hrun : KernelRun img m s blocks) (fs : FileSystem Frames)
    (hfs : Undisturbing (source img hready.room) fs) (fuel : ℕ) (scheduler : Scheduler) :
    Contained (kallocFrame (reserved img)) fs fuel scheduler s ↔ ProgramLow (kallocFrame (reserved img)) fs fuel s :=
  contained_iff (KernelInv.run hready hrun).kernel hfs scheduler

section Executable

variable {S : FrameSource α} {s s₁ s₂ s₃ s₄ : State α} {fs : FileSystem α} {file : ℕ → UInt8}
    {size cost contents fuel : ℕ}

lemma lowHalf_of_lower {v : ℕ} (hv : v < 2 ^ 47) : LowHalf v := by
  rw [LowHalf]
  omega

lemma headersLow_of_lower {n i e : ℕ} (hs : Kernel S s) (hh : Holds s file size contents)
    (hi : headerOffset file (i + n) ≤ size) (hlow : ∀ g ∈ segmentsFrom file n i, Lower size g)
    (hl : segmentsFrames (segmentsFrom file n i) ≤ S.left s.mem s.frames) :
    HeadersLow S.kallocFrame contents (contents + phoff file) n i e s := by
  induction n generalizing i e s with
  | zero => trivial
  | succ n ih =>
    obtain ⟨hi', hnext, haddr⟩ := hh.header_address hs hi
    obtain ⟨htype, _, hv, _, _⟩ := hh.fields hs hi'
    rw [HeadersLow, haddr]
    by_cases hone : headerType file i = 1
    · rw [segmentsFrom, if_pos hone] at hlow hl
      simp only [segmentsFrames, List.map_cons, List.sum_cons] at hl
      have hg := hlow _ List.mem_cons_self
      obtain ⟨hload, hfault⟩ := loadSegment_effect (e := e) hs hh hi' hone hg (by omega)
      refine ⟨fun memsz vaddr _ _ hvaddr _ => ?_, fun e' s' hk => ?_⟩
      · rw [← Option.some.inj (hv.symm.trans hvaddr)]
        exact lowHalf_of_lower hg.start
      · by_cases hloadable : (segmentAt file i).Loadable (loadByte s)
        · obtain ⟨s₁, hs₁, he₁⟩ := hload hloadable
          have hleft := he₁.left
          obtain ⟨rfl, rfl⟩ := Prod.mk.inj (Option.some.inj (hk.symm.trans hs₁))
          exact ih he₁.kernel (hh.keep he₁) hnext (fun g hg => hlow g (List.mem_cons_of_mem _ hg))
            (by simp only [segmentsFrames]; omega)
        · cases hk.symm.trans (hfault hloadable)
    · rw [segmentsFrom, if_neg hone] at hlow hl
      refine ⟨fun memsz vaddr hh' _ _ _ => absurd (Option.some.inj (htype.symm.trans hh')) hone, fun e' s' hk => ?_⟩
      obtain ⟨rfl, rfl⟩ := Prod.mk.inj (Option.some.inj (hk.symm.trans (loadSegment_skip hs hh hi' hone)))
      exact ih hs hh hnext hlow hl

lemma readProgram_eq (hr : Reads S fs file size cost) (hs : Kernel S s) (hheader : 64 ≤ size)
    (hphoff : phoff file ≤ size) (hfuel : size / 4096 + 2 < fuel)
    (hl : framesNeeded file size cost ≤ S.left s.mem s.frames) :
    ∃ contents s', readProgram S.kallocFrame fs fuel s = some (contents, contents + phoff file, phnum file, s') ∧
      Kernel S s' ∧ Holds s' file size contents ∧ segmentsFrames (segments file) + 40 ≤ S.left s'.mem s'.frames := by
  obtain ⟨f, s₁, s₂, s₃, res, s₄, hk, hsize, halloc, hread, h₄, hh₄, _, hl₄⟩ := readFile_effect hs hr hfuel hl
  have hlt := hh₄.lt h₄
  refine ⟨s₂.freeList + 16, s₄, ?_, h₄, hh₄, by omega⟩
  have hoff : ePhoff s₄ (s₂.freeList + 16) = some (phoff file) := hh₄.loadBytes h₄ (by omega)
  have hnum : ePhnum s₄ (s₂.freeList + 16) = some (phnum file) := hh₄.loadBytes h₄ (by omega)
  have hadd : (s₂.freeList + 16 + phoff file) % 2 ^ 64 = s₂.freeList + 16 + phoff file := Nat.mod_eq_of_lt (by omega)
  simp only [readProgram, hk, hsize, halloc, hread, hoff, hnum, hadd, Option.bind_eq_bind, Option.bind_some]

lemma programLow_of_lower (hr : Reads S fs file size cost) (hs : Kernel S s) (hx : LowerElf file size)
    (hfuel : size / 4096 + 2 < fuel) (hl : framesNeeded file size cost ≤ S.left s.mem s.frames) :
    ProgramLow S.kallocFrame fs fuel s := by
  have htable := hx.table
  have hheap := hx.heap
  obtain ⟨contents, s₁, hread, h₁, hh₁, hl₁⟩ := readProgram_eq hr hs hx.header
    (by rw [headerOffset] at htable; omega) hfuel hl
  intro c hd n s' heq
  rw [hread] at heq
  simp only [Option.some.injEq, Prod.mk.injEq] at heq
  obtain ⟨rfl, rfl, rfl, rfl⟩ := heq
  have hn : headerOffset file (0 + phnum file) ≤ size := by rw [Nat.zero_add]; exact htable
  refine ⟨headersLow_of_lower h₁ hh₁ hn hx.each (by rw [← segments]; omega), fun dataEnd s'' hloop _ => ?_⟩
  obtain ⟨hload, hfault⟩ := loadSegments_effect (e := 0) h₁ hh₁ hn hx.each (by rw [← segments]; omega)
  by_cases hall : LoadableAll file (segments file) (loadByte s₁)
  · obtain ⟨s₂, hs₂, _⟩ := hload hall
    obtain ⟨rfl, _⟩ := Prod.mk.inj (Option.some.inj (hloop.symm.trans hs₂))
    rw [← segments]
    apply lowHalf_of_lower
    rw [heapPage] at hheap
    simp only [heapAddress, pageSize]
    omega
  · cases hloop.symm.trans (hfault hall)

lemma not_programLow_of_upper (hr : Reads S fs file size cost) (hs : Kernel S s) (hheader : 64 ≤ size)
    (htable : phoff file + sizeofPhdr ≤ size) (hnum : 0 < phnum file) (htype : headerType file 0 = 1)
    (hout : Outside ((segmentAt file 0).vaddr - (segmentAt file 0).vaddr % pageSize))
    (hup : ¬ LowHalf (segmentAt file 0).vaddr) (hfuel : size / 4096 + 2 < fuel)
    (hl : framesNeeded file size cost ≤ S.left s.mem s.frames) : ¬ ProgramLow S.kallocFrame fs fuel s := by
  intro hlow
  obtain ⟨contents, s₁, hread, h₁, hh₁, hl₁⟩ := readProgram_eq hr hs hheader (by omega) hfuel hl
  have hlt := hh₁.lt h₁
  have hheaders := (hlow _ _ _ _ hread).1
  obtain ⟨n, hn⟩ : ∃ n, phnum file = n + 1 := ⟨phnum file - 1, by omega⟩
  have hoffset : headerOffset file 0 = phoff file := by rw [headerOffset, Nat.mul_zero, Nat.add_zero]
  have haddr : (contents + phoff file + sizeofPhdr * 0) % 2 ^ 64 = contents + headerOffset file 0 := by
    rw [hoffset, Nat.mul_zero, Nat.add_zero]
    exact Nat.mod_eq_of_lt (by omega)
  rw [hn, HeadersLow, haddr] at hheaders
  obtain ⟨htype₁, hmemsz, hvaddr, _, _⟩ := hh₁.fields h₁ (i := 0) (by rw [hoffset]; exact htable)
  have hmiss := missingTables_le s₁.mem s₁.satp ((segmentAt file 0).vaddr - (segmentAt file 0).vaddr % pageSize)
  obtain ⟨f, s₂, s₃, hk, hm⟩ := mapsNew_isSome h₁.tree hout 0x1F (by omega)
  refine hup (hheaders.1 (segmentAt file 0).memsz (segmentAt file 0).vaddr (by rw [htype₁, htype]) hmemsz hvaddr ?_)
  exact Option.isSome_iff_exists.mpr ⟨s₃, Option.bind_eq_some_iff.mpr ⟨(f, s₂), hk, hm⟩⟩

end Executable

section Examples

lemma oneFile_undisturbing (S : FrameSource α) (file : ℕ → UInt8) {size : ℕ} (hsize : size < 2 ^ 32) :
    Undisturbing S (oneFile file size) := by
  refine ⟨fun s n s' hs hget => ?_, fun s n data res s' hs hlo hhi hread => ?_⟩
  · obtain ⟨rfl, rfl⟩ := Prod.mk.inj (Option.some.inj hget)
    exact ⟨hsize, hs, Grown.refl s⟩
  · have hin : ∀ x, data ≤ x → x < data + n → InHeap x ∧ Mapped s x := fun x hx hx' =>
      inHeap_of_freeList hs (by omega) (by omega)
    obtain ⟨t, ht, hw⟩ := fillBytes_eq (b := file) hs.tree (fun x hx hx' => hs.usable (hin x hx hx').1)
      (fun x hx hx' => (hin x hx hx').2)
    obtain ⟨u, hu, heq⟩ := Option.map_eq_some_iff.mp hread
    obtain rfl := Option.some.inj (ht.symm.trans hu)
    obtain ⟨_, rfl⟩ := Prod.mk.inj heq
    have h' := hw.heap hs (Or.inl hhi)
    exact ⟨h', grown_of_walk hs h' hw.same.virtualAllocEnd.ge hw.same.satp
      fun x _ _ ho _ => hw.same.walk _ (inside_path ho)⟩

theorem contained_program : ∃ s, KernelRun megabyteImage (fun _ => 0) s [] ∧
    Contained (kallocFrame (reserved megabyteImage)) (oneFile (program 4096) 128) 3 ⟨0, []⟩ s := by
  obtain ⟨s, hrun, hleft, hbooted⟩ := boot_kernel
  have hsegs : segments (program 4096) = [programSegment 4096] := by rfl
  have hx : Executable (program 4096) 128 := program_executable hsegs (by decide) (by decide) (by decide)
  have hframes : framesNeeded (program 4096) 128 0 ≤
      (source megabyteImage megabyteImage_ready.room).left s.mem s.frames := by
    rw [source_left, hleft]
    exact program_frames hsegs (by decide)
  have hreads : Reads (source megabyteImage megabyteImage_ready.room) (oneFile (program 4096) 128)
    (program 4096) 128 0 :=
    oneFile_reads _ _ (by decide)
  refine ⟨s, hrun, (contained_iff_programLow _ _ megabyteImage_ready s [] hrun _
    (oneFile_undisturbing _ _ (by decide)) 3 _).mpr ?_⟩
  exact programLow_of_lower hreads hbooted.heap hx.lowerElf (by decide) hframes

/-- The same program, but for the address of its segment, which is that of the first page of the kernel heap. -/
def heapProgram : ℕ → UInt8 := store (program 4096) 8 80 0xFFFF800100000000

theorem not_contained_heapProgram : ∃ s, KernelRun megabyteImage (fun _ => 0) s [] ∧
    ¬ Contained (kallocFrame (reserved megabyteImage)) (oneFile heapProgram 128) 3 ⟨0, []⟩ s := by
  obtain ⟨s, hrun, hleft, hbooted⟩ := boot_kernel
  have hsegs : segments heapProgram = [⟨120, 0xFFFF800100000000, 8, 4096⟩] := by rfl
  have hsegment : segmentAt heapProgram 0 = ⟨120, 0xFFFF800100000000, 8, 4096⟩ := by rfl
  have hneeded : framesNeeded heapProgram 128 0 = 57 := by
    rw [framesNeeded, hsegs]
    rfl
  have hframes : framesNeeded heapProgram 128 0 ≤
      (source megabyteImage megabyteImage_ready.room).left s.mem s.frames := by
    rw [source_left, hleft, hneeded]
    decide
  have hreads : Reads (source megabyteImage megabyteImage_ready.room) (oneFile heapProgram 128) heapProgram 128 0 :=
    oneFile_reads _ _ (by decide)
  refine ⟨s, hrun, fun hcontained => ?_⟩
  have hlow := (contained_iff hbooted.heap (oneFile_undisturbing _ _ (by decide)) _).mp hcontained
  refine not_programLow_of_upper hreads hbooted.heap (by decide) (by decide) (by decide) (by decide) ?_ ?_ (by decide)
    hframes hlow
  · rw [hsegment]
    exact outside_iff.mpr (by decide)
  · rw [hsegment]
    decide

end Examples

end TetraOS.Processes
