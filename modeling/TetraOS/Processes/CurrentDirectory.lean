import TetraOS.Processes.SchedulerRuns

/-! The working directories of the processes in every run of the scheduler (kernel/process/process.cpp). Behind the
text of a path, which has no zero, lies the header of the list item of its process. -/

namespace TetraOS.Processes

open Memory Library.ByteMemory Library.BumpBlocks PhysicalAllocator Relation

/-- The process at `p` has the path of its constructor. The word behind the text is the size of a list item. -/
structure AtHome {α : Type} (s : State α) (p : ℕ) : Prop where
  path : Process.getCwd s p = some (p + 64)
  pathString : loadBytes s 8 (p + 64) = some (p + 88)
  text : ∀ i (hi : i < homeDirectory.length), view s (p + 88 + i) = homeDirectory[i]
  header : load (view s) 8 (p + 99) = 24

section Span

variable {img : Image} {m : Memory} {s s' : State Frames} {blocks blocks' own : List Block} {p : ℕ}
    (hready : Ready img m) (hrun : KernelRun img m s blocks) (hblocks : ∀ b ∈ submissionBlocks p, b ∈ blocks)
include hready hrun hblocks

lemma apart_span {b : Block} (hb : b ∈ blocks) (hne : b ∉ [(p, 48), (p + 64, 8), (p + 88, 11)]) :
    ∀ x ∈ b.range, x < p ∨ p + 115 ≤ x := by
  intro x hx
  obtain ⟨hlo, hhi⟩ := hx
  simp only [List.mem_cons, List.not_mem_nil, or_false, not_or] at hne
  have hapart : ∀ c ∈ submissionBlocks p, b ≠ c → b.1 + b.2 + 16 ≤ c.1 ∨ c.1 + c.2 + 16 ≤ b.1 := fun c hc hbc =>
    (Layout.run hready hrun).consecutive.apart_of_ne hb (hblocks c hc) hbc
  have h₁ := hapart (p, 48) (by simp [submissionBlocks]) hne.1
  have h₂ := hapart (p + 64, 8) (by simp [submissionBlocks]) hne.2.1
  have h₃ := hapart (p + 88, 11) (by simp [submissionBlocks, homeDirectory_length]) hne.2.2
  by_cases hitem : b = (p + 115, 24)
  · rw [hitem] at hlo
    exact Or.inr hlo
  · have h₄ := hapart (p + 115, 24) (by simp [submissionBlocks]) hitem
    dsimp only at h₁ h₂ h₃ h₄
    omega

lemma span_inHeap {x : ℕ} (hlo : p ≤ x) (hhi : x < p + 115) : heapStart ≤ x ∧ x < s.freeList := by
  have hinv := hrun.heapInv hready
  have habove := hinv.blocks.above _ (hblocks (p, 48) (by simp [submissionBlocks]))
  have hbelow := hinv.blocks.below _ (hblocks (p + 115, 24) (by simp [submissionBlocks]))
  dsimp only at habove hbelow
  omega

lemma AtHome.congr (h : AtHome s p) (hrun' : KernelRun img m s' blocks')
    (hblocks' : ∀ b ∈ submissionBlocks p, b ∈ blocks') (hview : ∀ x, p ≤ x → x < p + 115 → view s' x = view s x) :
    AtHome s' p := by
  have hprocess : (p, 48) ∈ submissionBlocks p := by simp [submissionBlocks]
  have hpath : (p + 64, 8) ∈ submissionBlocks p := by simp [submissionBlocks]
  refine ⟨?_, ?_, fun i hi => ?_, ?_⟩
  · rw [← h.path]
    exact hrun.loadBytes_congr hready hrun' (hblocks _ hprocess) (hblocks' _ hprocess) (by omega) (by omega)
      fun x hx hx' => hview x (by omega) (by omega)
  · rw [← h.pathString]
    exact hrun.loadBytes_congr hready hrun' (hblocks _ hpath) (hblocks' _ hpath) le_rfl le_rfl
      fun x hx hx' => hview x (by omega) (by omega)
  · have hlt := hi
    rw [homeDirectory_length] at hlt
    rw [hview _ (by omega) (by omega), h.text i hi]
  · rw [← h.header]
    exact load_congr fun x hx hx' => hview x (by omega) (by omega)

lemma AtHome.kept (h : AtHome s p) (hrun' : KernelRun img m s' blocks') (hsub : ∀ b ∈ blocks, b ∈ blocks')
    (hview : ∀ x, heapStart ≤ x → x < s.freeList → (∀ b ∈ blocks, b.2 = 24 → x ∉ b.range) → view s' x = view s x) :
    AtHome s' p := by
  refine h.congr hready hrun hblocks hrun' (fun b hb => hsub b (hblocks b hb)) fun x hx hx' => ?_
  obtain ⟨hlo, hhi⟩ := span_inHeap hready hrun hblocks hx hx'
  refine hview x hlo hhi fun b hb hsize hin => ?_
  have hne : b ∉ [(p, 48), (p + 64, 8), (p + 88, 11)] := by
    simp only [List.mem_cons, List.not_mem_nil, or_false, not_or]
    exact ⟨fun h => by simp [h] at hsize, fun h => by simp [h] at hsize, fun h => by simp [h] at hsize⟩
  have := apart_span hready hrun hblocks hb hne x hin
  omega

lemma AtHome.others (h : AtHome s p) (hown : ∀ b ∈ submissionBlocks p, b ∈ own)
    (hstep : OthersStep img own (s, blocks) (s', blocks')) (hsub : ∀ b ∈ blocks, b ∈ blocks') : AtHome s' p := by
  refine h.congr hready hrun hblocks (hstep.kernelRun hready hrun) (fun b hb => hsub b (hblocks b hb))
    fun x hx hx' => ?_
  obtain ⟨hlo, hhi⟩ := span_inHeap hready hrun hblocks hx hx'
  refine hstep.view hready hrun hlo hhi fun b hb hnot hin => ?_
  have hne : b ∉ [(p, 48), (p + 64, 8), (p + 88, 11)] := fun hmem => hnot (hown b (by
    simp only [List.mem_cons, List.not_mem_nil, or_false] at hmem
    rcases hmem with rfl | rfl | rfl <;> simp [submissionBlocks, homeDirectory_length]))
  have := apart_span hready hrun hblocks hb hne x hin
  omega

end Span

section Submission

variable {img : Image} {m : Memory} {s s' : State Frames} {blocks own : List Block} {this fuel p : ℕ}
    {items processes : List ℕ} (hready : Ready img m)
include hready

lemma newProcess_path {home id entry stack heap : ℕ} (hrun : KernelRun img m s blocks)
    (htext : Steady img s home homeDirectory) (hid : id < 2 ^ 64)
    (hn : newProcess s (kallocFrame (reserved img)) fuel home id entry stack heap = some (p, s')) :
    Process.getCwd s' p = some (p + 64) ∧ load (view s') 8 (p + 64) = p + 88 ∧
      ∀ i (hi : i < homeDirectory.length), view s' (p + 88 + i) = homeDirectory[i] := by
  obtain ⟨⟨q, t₁⟩, hk, hn⟩ := Option.bind_eq_some_iff.mp hn
  obtain ⟨t₂, h₂, hn⟩ := Option.bind_eq_some_iff.mp hn
  obtain ⟨t₃, h₃, hn⟩ := Option.bind_eq_some_iff.mp hn
  obtain ⟨t₄, h₄, hn⟩ := Option.bind_eq_some_iff.mp hn
  obtain ⟨t₅, h₅, hn⟩ := Option.bind_eq_some_iff.mp hn
  obtain ⟨t₆, h₆, hn⟩ := Option.bind_eq_some_iff.mp hn
  obtain ⟨⟨path, t₇⟩, hpath, hn⟩ := Option.bind_eq_some_iff.mp hn
  obtain ⟨t₈, h₈, hn⟩ := Option.bind_eq_some_iff.mp hn
  obtain ⟨rfl, rfl⟩ := Prod.mk.inj (Option.some.inj hn)
  obtain ⟨_, hrun₆, hfl₆, _⟩ := constructor_spec hready hrun hid hk h₂ h₃ h₄ h₅ h₆
  obtain ⟨buf, hrun₇, hthis, rfl, _, _, hfield, hchars⟩ :=
    newPath_spec hready hrun₆ (htext.of_steps (constructor_steps hk h₂ h₃ h₄ h₅ h₆)) homeDirectory_nonzero hpath
  obtain rfl : path = q + 64 := by omega
  have hprocess : (q, 48) ∈ (q + 64 + 24, homeDirectory.length) :: (q + 64, 8) :: (q, 48) :: blocks := by simp
  have hpath' : (q + 64, 8) ∈ (q + 64 + 24, homeDirectory.length) :: (q + 64, 8) :: (q, 48) :: blocks := by simp
  obtain ⟨hrun₈, _, hcwd, hview₈⟩ := hrun₇.storeField hready hprocess (by omega) (by omega) (hrun₇.lt hready hpath') h₈
  refine ⟨hcwd, ?_, fun i hi => ?_⟩
  · rw [← hfield]
    exact load_congr fun x hx hx' =>
      hview₈ x (hrun₈.inHeap hready hpath' (Block.mem_range.mpr ⟨hx, hx'⟩)) (by omega)
  · rw [← hchars i hi]
    exact hview₈ _ (hrun₈.inHeap hready List.mem_cons_self (Block.mem_range.mpr ⟨Nat.le_add_right _ _, by omega⟩))
      (by omega)

lemma Scheduled.submitted_view {home entry stack heap : ℕ} (h : Scheduled img m s blocks own this items processes)
    (htext : OffHeap img s blocks home homeDirectory)
    (hs : submitProcess s (kallocFrame (reserved img)) fuel this home entry stack heap = some (p, s')) {x : ℕ}
    (hlo : heapStart ≤ x) (hhi : x < s.freeList) (hout : ∀ b ∈ blocks, b.2 = 24 → x ∉ b.range) :
    view s' x = view s x := by
  obtain ⟨_, _, t, _, _, _, _, hsub⟩ := h.submission hready htext hs
  have hout' : ∀ b ∈ own, b.2 = 24 → x ∉ b.range := fun b hb => hout b (h.owned b hb)
  have hbehind := hsub.behind
  rw [hsub.linked x hlo (by omega) hout', hsub.made x hlo hhi hout']

lemma Scheduled.submitted_home {home entry stack heap : ℕ} (h : Scheduled img m s blocks own this items processes)
    (htext : OffHeap img s blocks home homeDirectory)
    (hs : submitProcess s (kallocFrame (reserved img)) fuel this home entry stack heap = some (p, s')) :
    AtHome s' p := by
  obtain ⟨q, hlater⟩ := h.submitted hready htext hs
  obtain ⟨id, t₁, t, hid, hrun₁, htext₁, hnew, hsub⟩ := h.submission hready htext hs
  obtain ⟨hcwd, hfield, hchars⟩ := newProcess_path hready hrun₁ htext₁ hid hnew
  have hstart := (KernelInv.run hready h.run).kernel.start
  have hbehind := hsub.behind
  have hkept : ∀ x, p ≤ x → x < p + 99 → view s' x = view t x := fun x hx hx' =>
    hsub.linked x (by omega) hx' fun b hb _ hin => by
      have hbelow := (h.run.heapInv hready).blocks.below b (h.owned b hb)
      rw [Block.mem_range] at hin
      omega
  have hmem : ∀ b ∈ [(p, 48), (p + 64, 8)], b ∈ submissionBlocks p ++ blocks := by simp [submissionBlocks]
  have hprocess : (p, 48) ∈ (p + 88, 11) :: (p + 64, 8) :: (p, 48) :: blocks := by simp
  refine ⟨?_, ?_, fun i hi => ?_, hsub.header⟩
  · rw [← hcwd]
    exact hsub.run.loadBytes_congr hready hlater.run hprocess (hmem _ (by simp)) (by omega) (by omega)
      fun x hx hx' => hkept x (by omega) (by omega)
  · rw [hlater.run.loadBytes hready (hmem (p + 64, 8) (by simp)) le_rfl le_rfl, ← hfield]
    exact congrArg some (load_congr fun x hx hx' => hkept x (by omega) (by omega))
  · have hlt := hi
    rw [homeDirectory_length] at hlt
    rw [hkept _ (by omega) (by omega), hchars i hi]

end Submission

section Runs

variable {img : Image} {m : Memory} {s s' : State Frames} {blocks own : List Block} {this home : ℕ}
    {processes : List ℕ}

lemma SchedulerRun.owned (h : SchedulerRun img m home s blocks own this processes) :
    ∀ p ∈ processes, ∀ b ∈ submissionBlocks p, b ∈ own := by
  induction h with
  | created => simp
  | others _ _ ih => exact ih
  | dispatched _ _ ih => exact ih
  | submitted _ _ _ ih =>
    intro p hp b hb
    rcases List.mem_append.mp hp with hp | hp
    · exact List.mem_append_right _ (ih p hp b hb)
    · rw [List.mem_singleton.mp hp] at hb
      exact List.mem_append_left _ hb

lemma SchedulerRun.atHome (hready : Ready img m) (h : SchedulerRun img m home s blocks own this processes) :
    ∀ p ∈ processes, AtHome s p := by
  induction h with
  | created => simp
  | others hrun hstep ih =>
    obtain ⟨items, hs⟩ := hrun.scheduled hready
    obtain ⟨_, _, _, later, rfl, _⟩ := others_run hready hs.run hs.owned (ReflTransGen.single hstep)
    intro p hp
    exact (ih p hp).others hready hs.run (fun b hb => hs.owned b (hrun.owned p hp b hb)) (hrun.owned p hp) hstep
      fun b hb => List.mem_append_right _ hb
  | submitted hrun htext hsubmit ih =>
    obtain ⟨items, hs⟩ := hrun.scheduled hready
    obtain ⟨q, hlater⟩ := hs.submitted hready htext hsubmit
    intro p hp
    rcases List.mem_append.mp hp with hp | hp
    · exact (ih p hp).kept hready hs.run (fun b hb => hs.owned b (hrun.owned p hp b hb)) hlater.run
        (fun b hb => List.mem_append_right _ hb)
        fun x hlo hhi hout => hs.submitted_view hready htext hsubmit hlo hhi hout
    · rw [List.mem_singleton.mp hp]
      exact hs.submitted_home hready htext hsubmit
  | dispatched hrun hr ih =>
    obtain ⟨items, hs⟩ := hrun.scheduled hready
    have hlater := hs.dispatched hready hr
    intro p hp
    refine (ih p hp).kept hready hs.run (fun b hb => hs.owned b (hrun.owned p hp b hb)) hlater.run (fun b hb => hb)
      fun x hlo hhi hout => ?_
    obtain ⟨process, hstore⟩ := runNextProcess_stores hr
    obtain ⟨_, _, _, hview⟩ := hs.run.storeBytes hready (hs.owned _ hs.scheduler) (n := 8) le_rfl (by omega) hstore
    have hin := hout _ (hs.owned _ hs.scheduler) rfl
    rw [Block.mem_range] at hin
    rw [hview x (inHeap_of_freeList (hs.run.heapInv hready).heap hlo hhi).1, store_outside (by omega)]

lemma SchedulerRun.othersRun {blocks' : List Block} (h : SchedulerRun img m home s blocks own this processes)
    (hsteps : ReflTransGen (OthersStep img own) (s, blocks) (s', blocks')) :
    SchedulerRun img m home s' blocks' own this processes := by
  suffices hh : ∀ c, ReflTransGen (OthersStep img own) (s, blocks) c →
      SchedulerRun img m home c.1 c.2 own this processes from hh _ hsteps
  intro c hc
  induction hc with
  | refl => exact h
  | tail _ hstep ih => exact .others ih hstep

lemma Scheduled.current_others {items : List ℕ} {blocks' : List Block} (hready : Ready img m)
    (hs : Scheduled img m s blocks own this items processes)
    (hsteps : ReflTransGen (OthersStep img own) (s, blocks) (s', blocks')) :
    Scheduler.currentProcess s' this = Scheduler.currentProcess s this := by
  have hthis := hs.owned _ hs.scheduler
  obtain ⟨hrun', hkept, _, later, rfl, _⟩ := others_run hready hs.run hs.owned hsteps
  exact hs.run.loadBytes_congr hready hrun' hthis (List.mem_append_right _ hthis) le_rfl (by omega) fun x hx hx' =>
    hkept _ hs.scheduler x (Block.mem_range.mpr ⟨hx, by omega⟩)

end Runs

/-- What `copy_into` takes the working directory for: the text, and the low byte of the size behind it. -/
def foundPath : List UInt8 := homeDirectory ++ [24]

lemma foundPath_nonzero : ∀ c ∈ foundPath, c ≠ 0 := fun _ hc => ne_of_mem_of_not_mem hc (by decide)

section Copying

variable {img : Image} {m : Memory} {s s' : State Frames} {blocks own : List Block} {p buffer fuel : ℕ}

lemma memcpy_others {src n : ℕ} (hbuffer : buffer + n ≤ 2 ^ 47) (hc : memcpy s buffer src n = some s') :
    ReflTransGen (OthersStep img own) (s, blocks) (s', blocks) := by
  induction n generalizing s' with
  | zero =>
    obtain rfl := Option.some.inj hc
    exact ReflTransGen.refl
  | succ n ih =>
    obtain ⟨s₁, h₁, hc⟩ := Option.bind_eq_some_iff.mp hc
    obtain ⟨v, _, hc⟩ := Option.bind_eq_some_iff.mp hc
    exact (ih (by omega) h₁).tail (.write (Or.inr (by omega)) hc)

lemma AtHome.view_foundPath (h : AtHome s p) :
    (∀ i (hi : i < foundPath.length), view s (p + 88 + i) = foundPath[i]) ∧ view s (p + 100) = 0 := by
  have hword := h.header
  have hfirst : (view s (p + 99)).toNat < 256 := (view s (p + 99)).toNat_lt
  have hsecond : (view s (p + 100)).toNat < 256 := (view s (p + 100)).toNat_lt
  rw [load, load, show p + 99 + 1 = p + 100 by omega] at hword
  refine ⟨fun i hi => ?_, UInt8.toNat_inj.mp ?_⟩
  · have hi' : i < 12 := hi
    rcases Nat.lt_succ_iff_lt_or_eq.mp hi' with hi' | rfl
    · rw [h.text i hi']
      exact (List.getElem_append_left hi').symm
    · refine UInt8.toNat_inj.mp ?_
      change (view s (p + 99)).toNat = 24
      omega
  · change (view s (p + 100)).toNat = 0
    omega

variable (hready : Ready img m) (hrun : KernelRun img m s blocks) (hblocks : ∀ b ∈ submissionBlocks p, b ∈ blocks)
include hready hrun hblocks

lemma AtHome.copyInto (own : List Block) (h : AtHome s p) (hfuel : 12 < fuel) (hbuffer : buffer + 12 ≤ 2 ^ 47)
    (hmapped : ∀ i < 12, (loadByte s (buffer + i)).isSome) : ∃ s',
    copyInto fuel s (p + 64) buffer = some (12, s') ∧
      ReflTransGen (OthersStep img own) (s, blocks) (s', blocks) ∧ framesLeft img s.mem ≤ framesLeft img s'.mem ∧
      ∀ x < 2 ^ 47, loadByte s' x = if buffer ≤ x ∧ x < buffer + 12 then foundPath[x - buffer]? else loadByte s x := by
  obtain ⟨hchars, hzero⟩ := h.view_foundPath
  have hheap := (KernelInv.run hready hrun).kernel
  have hspan : ∀ x, p ≤ x → x < p + 115 → heapStart ≤ x ∧ x < s.freeList := fun x =>
    span_inHeap hready hrun hblocks
  have hspace := hheap.space
  have hend := hheap.end_le
  rw [heapLimit_eq] at hend
  have hload : ∀ i ≤ 12, loadByte s (p + 88 + i) = some (view s (p + 88 + i)) := fun i hi => by
    obtain ⟨hlo, hhi⟩ := hspan (p + 88 + i) (by omega) (by omega)
    obtain ⟨hin, hm⟩ := inHeap_of_freeList hheap hlo hhi
    exact loadByte_eq hheap.tree (hheap.usable hin) hm
  have hlimit := hspan (p + 100) (by omega) (by omega)
  have hcount : countCharacters s (p + 88) fuel 0 = some 12 := by
    have hh := countCharacters_eq (s := s) (by omega : p + 88 + 12 < 2 ^ 64) (fun i hi => ⟨foundPath[i],
      foundPath_nonzero _ (List.getElem_mem hi), by rw [hload i hi.le, hchars i hi]⟩)
      (by rw [hload 12 le_rfl]; exact congrArg some hzero) (fuel - 13)
    rwa [show 12 + 1 + (fuel - 13) = fuel by omega] at hh
  have hsource := (hspan (p + 88) (by omega) (by omega)).1
  obtain ⟨s', hcopy, he⟩ := memcpy_effect hheap hsource (by omega) hbuffer hmapped
  have hleft := he.left
  rw [source_left, source_left] at hleft
  refine ⟨s', ?_, memcpy_others hbuffer hcopy, hleft, fun x hx => ?_⟩
  · rw [Processes.copyInto, h.pathString, Option.bind_eq_bind, Option.bind_some, hcount, Option.bind_eq_bind,
      Option.bind_some, hcopy]
    rfl
  · rw [he.lower x hx, Space.copyIn]
    split_ifs with hin
    · have hlt : x - buffer < foundPath.length := by
        change x - buffer < 12
        omega
      rw [hchars _ hlt, List.getElem?_eq_getElem hlt]
    · rfl

end Copying

end TetraOS.Processes
