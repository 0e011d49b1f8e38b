import TetraOS.Processes.ProcessImage

/-! Several processes in the one address space: what a call of `submit_new_process` does to the images of the
processes that were submitted before. -/

namespace TetraOS.Processes

open Memory Library.ByteMemory Library.TableTree VirtualPage PhysicalAllocator

section Avoiding

variable {α : Type} {S : FrameSource α} {s : State α} {n : ℕ}

/-- The same allocator, where `n` has been handed out already. -/
def avoiding (S : FrameSource α) (n : ℕ) : FrameSource α where
  kallocFrame := S.kallocFrame
  Good m a := S.Good m a ∧ ¬ S.Free m a n
  Free := S.Free
  Bytes := S.Bytes
  left := S.left
  step hgood hk := by
    obtain ⟨k, hf, hfree, htaken, hless, hgood', hrest⟩ := S.step hgood.1 hk
    exact ⟨k, hf, hfree, htaken, hless, ⟨hgood', fun hn => hgood.2 (hless n hn)⟩, hrest⟩
  isSome hgood := S.isSome hgood.1
  low hgood := S.low hgood.1
  apart hgood := S.apart hgood.1
  local_good hgood hb := ⟨S.local_good hgood.1 hb, fun hn => hgood.2 ((S.local_free hgood.1 hb).mp hn)⟩
  local_free hgood := S.local_free hgood.1
  local_left hgood := S.local_left hgood.1

lemma kernel_avoiding_iff : Kernel (avoiding S n) s ↔ Kernel S s ∧ ¬ S.Free s.mem s.frames n := by
  constructor
  · rintro ⟨⟨root, good, inj, low, taken, apart, zero, entries, direct⟩, owned, leaf, aligned, room, mapped, start,
      space, status⟩
    exact ⟨⟨⟨root, good.1, inj, low, taken, apart, zero, entries, direct⟩, owned, leaf, aligned, room, mapped, start,
      space, status⟩, good.2⟩
  · rintro ⟨⟨⟨root, good, inj, low, taken, apart, zero, entries, direct⟩, owned, leaf, aligned, room, mapped, start,
      space, status⟩, hn⟩
    exact ⟨⟨root, ⟨good, hn⟩, inj, low, taken, apart, zero, entries, direct⟩, owned, leaf, aligned, room, mapped,
      start, space, status⟩

end Avoiding

/-- Reading a file gives no frame back to the allocator. -/
structure Delivers {α : Type} (S : FrameSource α) (fs : FileSystem α) (file : ℕ → UInt8) (size cost : ℕ) : Prop
    extends Reads S fs file size cost where
  getFileSize_taken : ∀ s s', Kernel S s → cost ≤ S.left s.mem s.frames → fs.getFileSize s = some (size, s') →
    ∀ n, S.Free s'.mem s'.frames n → S.Free s.mem s.frames n
  readFile_taken : ∀ s data res s', Kernel S s → cost ≤ S.left s.mem s.frames → heapStart ≤ data →
    data + size ≤ s.freeList → fs.readFile s size data = some (res, s') →
    ∀ n, S.Free s'.mem s'.frames n → S.Free s.mem s.frames n

section Stack

variable {α : Type} {S : FrameSource α} {s s' : State α} {fs : FileSystem α} {file : ℕ → UInt8} {size cost n : ℕ}

lemma Effect.avoiding {m : Space} {c : ℕ} (h : Effect S s s' m c) (hn : ¬ S.Free s'.mem s'.frames n) :
    Effect (avoiding S n) s s' m c :=
  ⟨kernel_avoiding_iff.mpr ⟨h.kernel, hn⟩, h.lower, h.kept, h.freeList, h.left⟩

lemma Delivers.avoiding (h : Delivers S fs file size cost) (n : ℕ) : Reads (avoiding S n) fs file size cost := by
  refine ⟨h.small, fun s hs hl => ?_, fun s data hs hl hlo hhi => ?_⟩
  · obtain ⟨hs, hn⟩ := kernel_avoiding_iff.mp hs
    obtain ⟨s', hget, he⟩ := h.getFileSize s hs hl
    exact ⟨s', hget, he.avoiding fun hf => hn (h.getFileSize_taken s s' hs hl hget n hf)⟩
  · obtain ⟨hs, hn⟩ := kernel_avoiding_iff.mp hs
    obtain ⟨res, s', hread, hs', hrest⟩ := h.readFile s data hs hl hlo hhi
    exact ⟨res, s', hread, kernel_avoiding_iff.mpr
      ⟨hs', fun hf => hn (h.readFile_taken s data res s' hs hl hlo hhi hread n hf)⟩, hrest⟩

lemma translate_of_lower (hs : Kernel S s) {x : ℕ} (hx : x < 2 ^ 47) :
    translate s x = (walk (slot s.mem) s.satp (path x)).map fun n => 4096 * n + x % 4096 :=
  translate_eq_walk hs.tree (outside_of_lower hx) (Or.inl hx) trivial

lemma kalloc_translate (hs : Kernel S s) {fuel size p : ℕ} (hsize : size < 2 ^ 62)
    (hk : kalloc S.kallocFrame fuel s size = some (p, s')) {x : ℕ} (hx : x < 2 ^ 47) :
    translate s' x = translate s x := by
  obtain ⟨hs', _, _, hkeep⟩ := hs.kalloc (by omega) hk
  rw [translate_of_lower hs' hx, translate_of_lower hs hx, hkeep.satp,
    hkeep.walk x (outside_of_lower hx) (not_newPage_of_lower hs hs' hx)]

lemma allocProcess_translate (hs : Kernel S s) {fuel : ℕ} (ha : allocProcess S.kallocFrame fuel s = some s') {x : ℕ}
    (hx : x < 2 ^ 47) : translate s' x = translate s x := by
  refine allocProcess_rel (R := fun s s' => translate s' x = translate s x) ?_ ?_ hs ha
  · exact fun s s' s'' h h' => h'.trans h
  · exact fun s s' size p hs hsize hk => kalloc_translate hs hsize hk hx

lemma stackPage_lower : stackPage < 2 ^ 47 := by decide

lemma Submits.stack_frame {fuel c : ℕ} {s₆ s₇ : State α} (h : Submits S fuel file c s s₆ s₇ s') :
    ∃ k, S.Free s₆.mem s₆.frames k ∧ translate s' stackPage = some (4096 * k + stackPage % 4096) := by
  obtain ⟨_, k, hnew⟩ := mapFrame_mapsNew h.before (outside_of_lower stackPage_lower)
    (not_heapPath_of_lower stackPage_lower) h.stack
  refine ⟨k, hnew.free, ?_⟩
  rw [allocProcess_translate h.mapped h.process stackPage_lower, translate_of_lower h.mapped stackPage_lower, hnew.satp,
    hnew.self]
  rfl

variable {scheduler scheduler' : Scheduler} {fuel : ℕ}

lemma submits_of_returns (hs : Kernel S s) (hr : Reads S fs file size cost) (hx : LowerElf file size)
    (hfuel : size / 4096 + 2 < fuel) (hl : framesNeeded file size cost ≤ S.left s.mem s.frames)
    (hk : submitNewProcess S.kallocFrame fs fuel scheduler s = some (scheduler', s')) :
    ∃ s₆ s₇, Submits S fuel file (framesNeeded file size cost) s s₆ s₇ s' := by
  obtain ⟨hreturn, hfault⟩ := submit_parts hs hr hx hfuel hl scheduler
  by_cases hall : LoadableAll file (segments file) (loadByte s)
  · obtain ⟨_, s₆, s₇, s'', hk', hsub⟩ := hreturn hall
    obtain ⟨_, rfl⟩ := Prod.mk.inj (Option.some.inj (hk.symm.trans hk'))
    exact ⟨s₆, s₇, hsub⟩
  · cases hk.symm.trans (hfault hall)

lemma submit_moves_stack (hs : Kernel S s) (hr : Delivers S fs file size cost) (hx : LowerElf file size)
    (hfuel : size / 4096 + 2 < fuel) (hl : framesNeeded file size cost ≤ S.left s.mem s.frames)
    (hk : submitNewProcess S.kallocFrame fs fuel scheduler s = some (scheduler', s')) :
    translate s' stackPage ≠ translate s stackPage := by
  rw [translate_of_lower hs stackPage_lower]
  cases hw : walk (slot s.mem) s.satp (path stackPage) with
  | none =>
    obtain ⟨s₆, s₇, hsub⟩ := submits_of_returns hs hr.toReads hx hfuel hl hk
    obtain ⟨k, _, ht⟩ := hsub.stack_frame
    rw [ht]
    exact Option.some_ne_none _
  | some n =>
    have hown := (usable_of_lower stackPage_lower).path_owned
    have hs' : Kernel (avoiding S n) s := kernel_avoiding_iff.mpr ⟨hs, hs.tree.taken _ n hown hw⟩
    obtain ⟨s₆, s₇, hsub⟩ := submits_of_returns hs' (hr.avoiding n) hx hfuel hl hk
    obtain ⟨k, hfree, ht⟩ := hsub.stack_frame
    have hn := (kernel_avoiding_iff.mp hsub.before).2
    rw [ht, Option.map_some]
    intro heq
    have hkn : k = n := by
      have := Option.some.inj heq
      omega
    exact hn (hkn ▸ hfree)

end Stack

structure Submission where
  file : ℕ → UInt8
  state : State Frames

def Submission.Image (p : Submission) (x : ℕ) : Prop :=
  (∃ g ∈ segments p.file, g.vaddr ≤ x ∧ x < g.vaddr + g.memsz) ∨ x / 4096 = heapPage (segments p.file) ∨
    x / 4096 = stackPage / 4096

inductive Submissions (img : Image) (hr : Room img) (s₀ : State Frames) (scheduler₀ : Scheduler) :
    List Submission → State Frames → Scheduler → Prop
  | nil : Submissions img hr s₀ scheduler₀ [] s₀ scheduler₀
  | submit {added s s' scheduler scheduler' fs file size cost fuel} :
      Submissions img hr s₀ scheduler₀ added s scheduler →
      LowerElf file size → Delivers (source img hr) fs file size cost → size / 4096 + 2 < fuel →
      framesNeeded file size cost ≤ framesLeft img s.mem →
      submitNewProcess (kallocFrame (reserved img)) fs fuel scheduler s = some (scheduler', s') →
      Submissions img hr s₀ scheduler₀ (added ++ [⟨file, s'⟩]) s' scheduler'

def Undisturbed (added : List Submission) (s : State Frames) : Prop :=
  ∀ p ∈ added, ∀ x, p.Image x → translate s x = translate p.state x ∧ loadByte s x = loadByte p.state x

section Runs

variable {img : Image} {hr : Room img} {s₀ s : State Frames} {scheduler₀ scheduler : Scheduler}
    {added : List Submission}

lemma Submissions.kernel (h : Submissions img hr s₀ scheduler₀ added s scheduler) (hs₀ : Kernel (source img hr) s₀) :
    Kernel (source img hr) s := by
  induction h with
  | nil => exact hs₀
  | submit _ hx hread hfuel hl hk ih =>
    obtain ⟨_, _, hsub⟩ := submits_of_returns ih hread.toReads hx hfuel hl hk
    exact hsub.kernel

lemma Submissions.extend (h : Submissions img hr s₀ scheduler₀ added s scheduler) (hs₀ : Kernel (source img hr) s₀)
    {fs : FileSystem Frames} {file : ℕ → UInt8} {size cost fuel : ℕ}
    (hread : Delivers (source img hr) fs file size cost)
    (hx : Executable file size) (hfuel : size / 4096 + 2 < fuel)
    (hl : framesNeeded file size cost ≤ framesLeft img s.mem) (hfits : FitsAll file (segments file) (loadByte s)) :
    ∃ s' scheduler', Submissions img hr s₀ scheduler₀ (added ++ [⟨file, s'⟩]) s' scheduler' ∧
      framesLeft img s.mem ≤ framesLeft img s'.mem + framesNeeded file size cost := by
  obtain ⟨scheduler', _, _, s', hk, hsub⟩ :=
    (submit_parts (h.kernel hs₀) hread.toReads hx.lowerElf hfuel hl scheduler).1
      ((loaded_iff_fits hx.wellFormed).mpr hfits).1
  exact ⟨s', scheduler', h.submit hx.lowerElf hread hfuel hl hk, hsub.left⟩

lemma Submissions.last (h : Submissions img hr s₀ scheduler₀ added s scheduler) :
    added = [] ∧ s = s₀ ∨ ∃ rest p, added = rest ++ [p] ∧ p.state = s := by
  cases h with
  | nil => exact Or.inl ⟨rfl, rfl⟩
  | submit => exact Or.inr ⟨_, _, rfl, rfl⟩

lemma Submissions.undisturbed_iff (h : Submissions img hr s₀ scheduler₀ added s scheduler)
    (hs₀ : Kernel (source img hr) s₀) : Undisturbed added s ↔ added.length ≤ 1 := by
  cases h with
  | nil => exact ⟨fun _ => Nat.zero_le 1, fun _ p hp => absurd hp List.not_mem_nil⟩
  | submit hrest hx hread hfuel hl hk =>
    rcases hrest.last with ⟨rfl, _⟩ | ⟨before, p, rfl, hp⟩
    · refine ⟨fun _ => le_rfl, fun _ p hp x _ => ?_⟩
      rw [List.nil_append, List.mem_singleton] at hp
      rw [hp]
      exact ⟨rfl, rfl⟩
    · constructor
      · intro hundisturbed
        have hmoved := submit_moves_stack (hrest.kernel hs₀) hread hx hfuel hl hk
        rw [← hp] at hmoved
        exact absurd (hundisturbed p (by simp) stackPage (Or.inr (Or.inr rfl))).1 hmoved
      · intro hlen
        simp only [List.length_append, List.length_singleton] at hlen
        omega

end Runs

/-- The processes that were submitted keep their images if and only if there is at most one of them: each call
maps the same stack page anew. -/
theorem undisturbed_iff_single (img : Image) (m : Memory) (hready : Ready img m) (s₀ : State Frames)
    (blocks : List Block) (hrun : KernelRun img m s₀ blocks) (scheduler₀ scheduler : Scheduler)
    (added : List Submission) (s : State Frames)
    (hsub : Submissions img hready.room s₀ scheduler₀ added s scheduler) :
    Undisturbed added s ↔ added.length ≤ 1 :=
  hsub.undisturbed_iff (KernelInv.run hready hrun).kernel

section Examples

lemma oneFile_delivers {α : Type} (S : FrameSource α) (file : ℕ → UInt8) {size : ℕ} (hsize : size < 2 ^ 32) :
    Delivers S (oneFile file size) file size 0 := by
  refine ⟨oneFile_reads S file hsize, ?_, ?_⟩
  · rintro s s' _ _ hget n hf
    obtain ⟨_, rfl⟩ := Prod.mk.inj (Option.some.inj hget)
    exact hf
  · intro s data res s' hs _ hlo hhi hread n hf
    by_contra hn
    obtain ⟨_, s'', hread', hs'', _⟩ := (oneFile_reads (avoiding S n) file hsize).readFile s data
      (kernel_avoiding_iff.mpr ⟨hs, hn⟩) (Nat.zero_le _) hlo hhi
    obtain ⟨_, rfl⟩ := Prod.mk.inj (Option.some.inj (hread.symm.trans hread'))
    exact (kernel_avoiding_iff.mp hs'').2 hf

lemma program_submissions {s₀ s : State Frames} {scheduler₀ scheduler : Scheduler} {added : List Submission}
    (h : Submissions megabyteImage megabyteImage_ready.room s₀ scheduler₀ added s scheduler)
    (hs₀ : Kernel (source megabyteImage megabyteImage_ready.room) s₀)
    (hl : framesNeeded (program 4096) 128 0 ≤ framesLeft megabyteImage s.mem) :
    ∃ s' scheduler', Submissions megabyteImage megabyteImage_ready.room s₀ scheduler₀ (added ++ [⟨program 4096, s'⟩]) s'
        scheduler' ∧
      framesLeft megabyteImage s.mem ≤ framesLeft megabyteImage s'.mem + framesNeeded (program 4096) 128 0 := by
  have hsegs : segments (program 4096) = [programSegment 4096] := by rfl
  have hx : Executable (program 4096) 128 := program_executable hsegs (by decide) (by decide) (by decide)
  have hread : Delivers (source megabyteImage megabyteImage_ready.room) (oneFile (program 4096) 128)
    (program 4096) 128 0 :=
    oneFile_delivers _ _ (by decide)
  have hfits : FitsAll (program 4096) (segments (program 4096)) (loadByte s) := by
    refine fitsAll_of_one_page (fun g hg => ?_) _
    rw [hsegs, List.mem_singleton] at hg
    rw [hg]
    decide
  have hfuel : 128 / 4096 + 2 < 3 := by decide
  exact h.extend hs₀ hread hx hfuel hl hfits

theorem undisturbed_single_program : ∃ s₀ s scheduler, KernelRun megabyteImage (fun _ => 0) s₀ [] ∧
    Submissions megabyteImage megabyteImage_ready.room s₀ ⟨0, []⟩ [⟨program 4096, s⟩] s scheduler ∧
    Undisturbed [⟨program 4096, s⟩] s := by
  obtain ⟨s₀, hrun, hleft, hbooted⟩ := boot_kernel
  have hsegs : segments (program 4096) = [programSegment 4096] := by rfl
  obtain ⟨s, scheduler, hsub, _⟩ := program_submissions .nil hbooted.heap
    (by rw [hleft]; exact program_frames hsegs (by decide))
  exact ⟨s₀, s, scheduler, hrun, hsub,
    (undisturbed_iff_single _ _ megabyteImage_ready s₀ [] hrun _ _ _ s hsub).mpr le_rfl⟩

theorem disturbed_two_programs : ∃ s₀ s₁ s₂ scheduler, KernelRun megabyteImage (fun _ => 0) s₀ [] ∧
    Submissions megabyteImage megabyteImage_ready.room s₀ ⟨0, []⟩
      [⟨program 4096, s₁⟩, ⟨program 4096, s₂⟩] s₂ scheduler ∧
    ¬ Undisturbed [⟨program 4096, s₁⟩, ⟨program 4096, s₂⟩] s₂ := by
  obtain ⟨s₀, hrun, hleft, hbooted⟩ := boot_kernel
  have hsegs : segments (program 4096) = [programSegment 4096] := by rfl
  have hneeded : framesNeeded (program 4096) 128 0 = 57 := by
    rw [framesNeeded, hsegs]
    rfl
  obtain ⟨s₁, scheduler₁, hsub₁, hl₁⟩ := program_submissions .nil hbooted.heap (by omega)
  obtain ⟨s₂, scheduler₂, hsub₂, _⟩ := program_submissions hsub₁ hbooted.heap (by omega)
  refine ⟨s₀, s₁, s₂, scheduler₂, hrun, hsub₂, fun hundisturbed => ?_⟩
  have hlen := (hsub₂.undisturbed_iff hbooted.heap).mp hundisturbed
  exact absurd hlen (by simp)

end Examples

end TetraOS.Processes
