import TetraOS.Processes.ProcessList

/-! Runs of the scheduler: submissions and searches, with everything else that goes on in between. -/

namespace TetraOS.Processes

open Memory Library.ByteMemory Library.BumpBlocks Library.LinkedList PhysicalAllocator Relation

/-- The blocks of a submission, the newest first: the item, the text of the path, the path and the process. -/
def submissionBlocks (process : ℕ) : List Block :=
  [(process + 115, 24), (process + 88, homeDirectory.length), (process + 64, 8), (process, 48)]

def OffHeap (img : Image) (s : State Frames) (blocks : List Block) (a : ℕ) (text : List UInt8) : Prop :=
  ∀ t bs, ReflTransGen (HeapStep img) (s, blocks) (t, bs) → HoldsText t a text

lemma OffHeap.steady {img : Image} {s t : State Frames} {blocks blocks' : List Block} {a : ℕ} {text : List UInt8}
    (h : OffHeap img s blocks a text) (hsteps : ReflTransGen (HeapStep img) (s, blocks) (t, blocks')) :
    Steady img t a text := by
  intro u bs hrun
  suffices hh : ∀ c, ReflTransGen (HeapStep img) (t, []) c →
      ReflTransGen (HeapStep img) (s, blocks) (c.1, c.2 ++ blocks') from h _ _ (hh _ hrun)
  intro c hc
  induction hc with
  | refl => exact hsteps
  | tail _ hstep ih => exact ih.tail (heapStep_append hstep blocks')

/-- What the scheduler and its list keep to, whatever the others do: `own` are the blocks of both. -/
structure Scheduled (img : Image) (m : Memory) (s : State Frames) (blocks own : List Block) (this : ℕ)
    (items processes : List ℕ) : Prop where
  run : KernelRun img m s blocks
  owned : ∀ o ∈ own, o ∈ blocks
  scheduler : (this, 24) ∈ own
  itemBlocks : ∀ i ∈ items, (i, 24) ∈ own
  after : ∀ i ∈ items, this < i
  processBlocks : ∀ p ∈ processes, (p, 48) ∈ own
  listed : Listed s this items processes
  nextId : Scheduler.nextProcessId s this = some processes.length
  numbered : Numbered s processes

section Scheduling

variable {img : Image} {m : Memory} {s s' : State Frames} {blocks blocks' own : List Block} {this fuel : ℕ}
    {items processes : List ℕ} (hready : Ready img m)
include hready

lemma scheduled_new (hrun : KernelRun img m s blocks)
    (hn : newScheduler s (kallocFrame (reserved img)) fuel = some (this, s')) :
    Scheduled img m s' ((this, 24) :: blocks) [(this, 24)] this [] [] := by
  obtain ⟨⟨p, t₁⟩, hk, hn⟩ := Option.bind_eq_some_iff.mp hn
  obtain ⟨t₂, h₂, hn⟩ := Option.bind_eq_some_iff.mp hn
  obtain ⟨t₃, h₃, hn⟩ := Option.bind_eq_some_iff.mp hn
  obtain ⟨rfl, rfl⟩ := Prod.mk.inj (Option.some.inj hn)
  obtain ⟨hrun₁, hp, hfl₁, hkept₁, _⟩ := hrun.kalloc_spec hready (by norm_num) hk
  have hself : (p, 24) ∈ (p, 24) :: blocks := List.mem_cons_self
  obtain ⟨hrun₂, _, hid, _⟩ := hrun₁.storeField hready hself (by omega) (by omega)
    (by norm_num) h₂
  obtain ⟨hrun₃, _, hfirst, hview₃⟩ := hrun₂.storeField hready hself (by omega) (by omega)
    (by norm_num) h₃
  refine ⟨hrun₃, fun o ho => ?_, List.mem_singleton_self _, by simp, by simp, by simp, ⟨hfirst, trivial, rfl⟩, ?_,
    ⟨rfl, by simp⟩⟩
  · rw [List.mem_singleton.mp ho]
    exact hself
  · rw [List.length_nil, ← hid]
    exact hrun₂.loadBytes_congr hready hrun₃ hself hself (by omega) (by omega) fun x hx hx' =>
      hview₃ x (hrun₃.inHeap hready hself (Block.mem_range.mpr ⟨by omega, by omega⟩)) (by omega)

lemma Scheduled.apart (h : Scheduled img m s blocks own this items processes) :
    ∀ b ∈ own, b ≠ (this, 24) → ∀ x ∈ Block.range b, x < this ∨ this + 24 ≤ x := by
  intro b hb hne x hx
  have := (Layout.run hready h.run).consecutive.apart_of_ne (h.owned b hb) (h.owned _ h.scheduler) hne
  obtain ⟨h₁, h₂⟩ := hx
  dsimp only at this
  omega

omit hready in
lemma Scheduled.item_ne (h : Scheduled img m s blocks own this items processes) {i : ℕ} (hi : i ∈ items) :
    (i, 24) ≠ (this, 24) := fun heq => (h.after i hi).ne (Prod.mk.inj heq).1.symm

omit hready in
lemma process_ne {p i : ℕ} : (p, 48) ≠ (i, 24) := fun heq => absurd (Prod.mk.inj heq).2 (by norm_num)

lemma Scheduled.kept (h : Scheduled img m s blocks own this items processes)
    (hview : ∀ o ∈ own, ∀ x ∈ Block.range o, x < this ∨ this + 24 ≤ x → view s' x = view s x) :
    (∀ i ∈ items, ∀ x ∈ Block.range (i, 24), view s' x = view s x) ∧
      ∀ p ∈ processes, ∀ x ∈ Block.range (p, 48), view s' x = view s x := by
  have happart := h.apart hready
  constructor
  · intro i hi x hx
    have hin := h.itemBlocks i hi
    exact hview _ hin x hx (happart _ hin (h.item_ne hi) x hx)
  · intro p hp x hx
    have hin := h.processBlocks p hp
    exact hview _ hin x hx (happart _ hin process_ne x hx)

/-- The current process is the one field that may change. -/
lemma Scheduled.congr (h : Scheduled img m s blocks own this items processes) (hrun' : KernelRun img m s' blocks')
    (hsub : ∀ b ∈ blocks, b ∈ blocks')
    (hview : ∀ o ∈ own, ∀ x ∈ Block.range o, x < this ∨ this + 8 ≤ x → view s' x = view s x) :
    Scheduled img m s' blocks' own this items processes := by
  have hthis := h.owned _ h.scheduler
  obtain ⟨hitems, hprocesses⟩ := h.kept hready fun o ho x hx hout => hview o ho x hx (by omega)
  have hscheduler : ∀ x, this + 8 ≤ x → x < this + 24 → view s' x = view s x := fun x hx hx' =>
    hview _ h.scheduler x (Block.mem_range.mpr ⟨by omega, hx'⟩) (Or.inr hx)
  refine ⟨hrun', fun o ho => hsub o (h.owned o ho), h.scheduler, h.itemBlocks, h.after, h.processBlocks, ?_, ?_, ?_⟩
  · exact h.listed.congr hready h.run hrun' hsub hthis (fun i hi => h.owned _ (h.itemBlocks i hi))
      (fun x hx hx' => hscheduler x (by omega) hx') hitems
  · rw [← h.nextId]
    exact h.run.loadBytes_congr hready hrun' hthis (hsub _ hthis) (by omega) (by omega)
      fun x hx hx' => hscheduler x hx (by omega)
  · exact h.numbered.congr hready h.run hrun' hsub (fun p hp => h.owned _ (h.processBlocks p hp)) hprocesses

lemma Scheduled.others (h : Scheduled img m s blocks own this items processes)
    (hstep : OthersStep img own (s, blocks) (s', blocks')) :
    Scheduled img m s' blocks' own this items processes := by
  obtain ⟨hrun', hkept, _, later, rfl, _⟩ := others_run hready h.run h.owned (ReflTransGen.single hstep)
  exact h.congr hready hrun' (fun b hb => List.mem_append_right _ hb) fun o ho x hx _ => hkept o ho x hx

omit hready in
lemma runNextProcess_stores {args : ℕ × ℕ × ℕ} (hr : runNextProcess s fuel this = some (args, s')) :
    ∃ process, storeBytes s 8 this process = some s' := by
  obtain ⟨first, _, hr⟩ := Option.bind_eq_some_iff.mp hr
  obtain ⟨item, _, hr⟩ := Option.bind_eq_some_iff.mp hr
  obtain ⟨process, _, hr⟩ := Option.bind_eq_some_iff.mp hr
  obtain ⟨t, hstore, hr⟩ := Option.bind_eq_some_iff.mp hr
  obtain ⟨entry, _, hr⟩ := Option.bind_eq_some_iff.mp hr
  obtain ⟨stack, _, hr⟩ := Option.bind_eq_some_iff.mp hr
  obtain ⟨heap, _, hr⟩ := Option.bind_eq_some_iff.mp hr
  obtain ⟨-, rfl⟩ := Prod.mk.inj (Option.some.inj hr)
  exact ⟨process, hstore⟩

lemma Scheduled.dispatched {args : ℕ × ℕ × ℕ} (h : Scheduled img m s blocks own this items processes)
    (hr : runNextProcess s fuel this = some (args, s')) : Scheduled img m s' blocks own this items processes := by
  obtain ⟨process, hstore⟩ := runNextProcess_stores hr
  have hthis := h.owned _ h.scheduler
  obtain ⟨hrun', _, _, hview⟩ :=
    h.run.storeBytes hready hthis (n := 8) le_rfl (by omega) hstore
  refine h.congr hready hrun' (fun b hb => hb) fun o ho x hx hout => ?_
  rw [hview x (h.run.inHeap hready (h.owned o ho) hx), store_outside hout]

/-- The ids do not run out before the heap does. -/
lemma Scheduled.length_lt (h : Scheduled img m s blocks own this items processes) : processes.length < 2 ^ 60 := by
  have hlen : items.length = processes.length := by
    have := congrArg List.length h.listed.processes
    rwa [List.length_map, List.length_map] at this
  have hnodup : (items.map fun i => (i, 24)).Nodup :=
    h.listed.linked.nodup.map fun _ _ heq => (Prod.mk.inj heq).1
  have hle : (items.map fun i => (i, 24)).length ≤ blocks.length := by
    refine (hnodup.subperm fun b hb => ?_).length_le
    obtain ⟨i, hi, rfl⟩ := List.mem_map.mp hb
    exact h.owned _ (h.itemBlocks i hi)
  have htaken : 16 * blocks.length ≤ taken 16 blocks := length_le_taken blocks
  have hfl := (Layout.run hready h.run).freeList
  have hheap := (h.run.heapInv hready).heap
  have hspace := hheap.space
  have hend := hheap.end_le
  rw [List.length_map] at hle
  rw [heapLimit_eq] at hend
  omega

lemma Scheduled.created {home id entry stack heap p : ℕ} {t : State Frames}
    (h : Scheduled img m s blocks own this items processes) (htext : OffHeap img s blocks home homeDirectory)
    (hid : getNextProcessId s this = some (id, t))
    (hnew : newProcess t (kallocFrame (reserved img)) fuel home id entry stack heap = some (p, s')) :
    KernelRun img m s' ((p + 88, 11) :: (p + 64, 8) :: (p, 48) :: blocks) ∧ s'.freeList = p + 99 ∧
      Listed s' this items processes ∧ Scheduler.nextProcessId s' this = some (processes.length + 1) ∧
      Numbered s' (processes ++ [p]) := by
  have hthis := h.owned _ h.scheduler
  have hlen := h.length_lt hready
  obtain ⟨hid₀, hrun₁, hfl₁, hsteps, hid₁, hview₁⟩ := getNextProcessId_spec hready h.run hthis hid
  obtain rfl := Option.some.inj (hid₀.symm.trans h.nextId)
  rw [Nat.mod_eq_of_lt (by omega)] at hid₁
  obtain ⟨hp, hrun₂, hfl₂, hkept₂, hid₂, hready₂⟩ :=
    newProcess_spec hready hrun₁ (htext.steady hsteps) (by omega) hnew
  have hsub₂ : ∀ b ∈ blocks, b ∈ (p + 88, 11) :: (p + 64, 8) :: (p, 48) :: blocks := fun b hb => by simp [hb]
  have hview₂ : ∀ b ∈ own, ∀ x ∈ Block.range b, x < this + 8 ∨ this + 16 ≤ x → view s' x = view s x := by
    intro b hb x hx hout
    obtain ⟨h₁, h₂, _⟩ := (h.run.heapInv hready).mem_range (h.owned b hb) hx
    rw [hkept₂ x h₁ (by omega), hview₁ x (h.run.inHeap hready (h.owned b hb) hx) hout]
  obtain ⟨hitems₂, hprocesses₂⟩ := h.kept hready fun o ho x hx hout => hview₂ o ho x hx (by omega)
  have hlisted₂ : Listed s' this items processes := h.listed.congr hready h.run hrun₂ hsub₂ hthis
    (fun i hi => h.owned _ (h.itemBlocks i hi))
    (fun x hx hx' => hview₂ _ h.scheduler x (Block.mem_range.mpr ⟨by omega, hx'⟩) (Or.inr hx)) hitems₂
  have hnext : Scheduler.nextProcessId s' this = some (processes.length + 1) := by
    rw [← hid₁]
    exact hrun₁.loadBytes_congr hready hrun₂ hthis (hsub₂ _ hthis) (by omega) (by omega)
      fun x hx hx' => by
        have hin : x ∈ Block.range (this, 24) := Block.mem_range.mpr ⟨by omega, by omega⟩
        obtain ⟨h₁, h₂, _⟩ := (hrun₁.heapInv hready).mem_range hthis hin
        exact hkept₂ x h₁ h₂
  exact ⟨hrun₂, hfl₂, hlisted₂, hnext, (h.numbered.congr hready h.run hrun₂ hsub₂
    (fun r hr => h.owned _ (h.processBlocks r hr)) hprocesses₂).snoc hid₂ hready₂⟩

lemma Scheduled.link_apart {link : ℕ} (h : Scheduled img m s blocks own this items processes)
    (hlink : link = this + 16 ∨ link ∈ items) :
    ∃ l, (l, 24) ∈ own ∧ l ≤ link ∧ link + 8 ≤ l + 24 ∧ this + 16 ≤ link := by
  rcases hlink with rfl | hlink
  · exact ⟨this, h.scheduler, by omega, by omega, le_rfl⟩
  · have := h.apart hready _ (h.itemBlocks link hlink) (h.item_ne hlink) link (Block.mem_range.mpr ⟨le_rfl, by omega⟩)
    have := h.after link hlink
    exact ⟨link, h.itemBlocks link hlink, le_rfl, by omega, by omega⟩

omit hready in
lemma Scheduled.process_mem {r : ℕ} (h : Scheduled img m s blocks own this items processes) :
    ∀ p ∈ processes ++ [r], (p, 48) ∈ (r + 88, 11) :: (r + 64, 8) :: (r, 48) :: blocks := by
  intro p hp
  rcases List.mem_append.mp hp with hp | hp
  · simp [h.owned _ (h.processBlocks p hp)]
  · rw [List.mem_singleton.mp hp]
    simp

lemma process_kept {l link p : ℕ} {t : State Frames} (hrun : KernelRun img m t blocks) (hp : (p, 48) ∈ blocks)
    (hl : (l, 24) ∈ blocks) (hlo : l ≤ link) (hhi : link + 8 ≤ l + 24)
    (hview : ∀ x, heapStart ≤ x → x < t.freeList → x < link ∨ link + 8 ≤ x → view s' x = view t x) :
    ∀ x ∈ Block.range (p, 48), view s' x = view t x := by
  intro x hx
  obtain ⟨h₁, h₂, _⟩ := (hrun.heapInv hready).mem_range hp hx
  have := (Layout.run hready hrun).consecutive.apart_of_ne hp hl process_ne
  obtain ⟨h₃, h₄⟩ := hx
  dsimp only at this h₃ h₄
  exact hview x h₁ h₂ (by omega)

lemma Scheduled.submitted {home entry stack heap p : ℕ} (h : Scheduled img m s blocks own this items processes)
    (htext : OffHeap img s blocks home homeDirectory)
    (hs : submitProcess s (kallocFrame (reserved img)) fuel this home entry stack heap = some (p, s')) :
    ∃ q, Scheduled img m s' (submissionBlocks p ++ blocks) (submissionBlocks p ++ own) this (items ++ [q])
      (processes ++ [p]) := by
  obtain ⟨⟨id, t₁⟩, hid, hs⟩ := Option.bind_eq_some_iff.mp hs
  obtain ⟨⟨r, t⟩, hnew, hs⟩ := Option.bind_eq_some_iff.mp hs
  obtain ⟨t', hadd, hs⟩ := Option.bind_eq_some_iff.mp hs
  obtain ⟨rfl, rfl⟩ := Prod.mk.inj (Option.some.inj hs)
  have hthis := h.owned _ h.scheduler
  obtain ⟨hrun, hfl, hlisted, hnext, hnumbered⟩ := h.created hready htext hid hnew
  have hsub : ∀ b ∈ blocks, b ∈ (r + 88, 11) :: (r + 64, 8) :: (r, 48) :: blocks := fun b hb => by simp [hb]
  obtain ⟨q, link, hq, hrun', hfl', hlisted', hlink, hview⟩ := addNewProcess_spec hready hrun (hsub _ hthis)
    (fun i hi => hsub _ (h.owned _ (h.itemBlocks i hi))) h.after hlisted (hrun.lt hready (b := (r, 48)) (by simp)) hadd
  have hblocks : (q, 24) :: (r + 88, 11) :: (r + 64, 8) :: (r, 48) :: blocks = submissionBlocks r ++ blocks := by
    rw [hq, hfl]
    rfl
  rw [hblocks] at hrun'
  have hsub' : ∀ b ∈ (r + 88, 11) :: (r + 64, 8) :: (r, 48) :: blocks, b ∈ submissionBlocks r ++ blocks := by
    intro b hb
    rw [← hblocks]
    exact List.mem_cons_of_mem _ hb
  obtain ⟨l, hl, hlo, hhi, hfield⟩ := h.link_apart hready hlink
  have hkept : ∀ p ∈ processes ++ [r], ∀ x ∈ Block.range (p, 48), view t' x = view t x := fun p hp =>
    process_kept hready hrun (h.process_mem p hp) (hsub _ (h.owned _ hl)) hlo hhi hview
  refine ⟨q, hrun', ?_, List.mem_append_right _ h.scheduler, ?_, ?_, ?_, hlisted', ?_,
    hnumbered.congr hready hrun hrun' hsub' h.process_mem hkept⟩
  · exact List.forall_mem_append.mpr
      ⟨fun o ho => List.mem_append_left _ ho, fun o ho => List.mem_append_right _ (h.owned o ho)⟩
  · refine List.forall_mem_append.mpr
      ⟨fun i hi => List.mem_append_right _ (h.itemBlocks i hi), List.forall_mem_singleton.mpr ?_⟩
    rw [hq, hfl]
    exact List.mem_append_left _ List.mem_cons_self
  · refine List.forall_mem_append.mpr ⟨h.after, List.forall_mem_singleton.mpr ?_⟩
    have hbelow := (hrun.heapInv hready).blocks.below _ (hsub _ hthis)
    dsimp only at hbelow
    omega
  · exact List.forall_mem_append.mpr ⟨fun p hp => List.mem_append_right _ (h.processBlocks p hp),
      List.forall_mem_singleton.mpr (List.mem_append_left _ (by simp [submissionBlocks]))⟩
  · rw [List.length_append, List.length_singleton, ← hnext]
    exact hrun.loadBytes_congr hready hrun' (hsub _ hthis) (hsub' _ (hsub _ hthis)) (by omega)
      (by omega) fun x hx hx' => by
        have hin : x ∈ Block.range (this, 24) := Block.mem_range.mpr ⟨by omega, by omega⟩
        obtain ⟨h₁, h₂, _⟩ := (hrun.heapInv hready).mem_range (hsub _ hthis) hin
        exact hview x h₁ h₂ (by omega)

/-- Where the free node was is now the header of the new item. -/
lemma addNewProcess_header {p : ℕ} (hrun : KernelRun img m s blocks) (hthis : (this, 24) ∈ blocks)
    (hitems : ∀ i ∈ items, (i, 24) ∈ blocks) (hl : Listed s this items processes) (hp : p < 2 ^ 64)
    (ha : addNewProcess s (kallocFrame (reserved img)) fuel this p = some s') :
    load (view s') 8 s.freeList = 24 := by
  obtain ⟨⟨q, t₁⟩, hk, ha⟩ := Option.bind_eq_some_iff.mp ha
  obtain ⟨t₂, h₂, ha⟩ := Option.bind_eq_some_iff.mp ha
  obtain ⟨t₃, h₃, ha⟩ := Option.bind_eq_some_iff.mp ha
  obtain ⟨t₄, h₄, ha⟩ := Option.bind_eq_some_iff.mp ha
  obtain ⟨first, hfirst, ha⟩ := Option.bind_eq_some_iff.mp ha
  obtain ⟨hrun₁, hq, hfl₁, _, hword⟩ := hrun.kalloc_spec hready (by norm_num) hk
  have hself : (q, 24) ∈ (q, 24) :: blocks := List.mem_cons_self
  obtain ⟨hrun₄, hfl₄, _, _, _, hview₄⟩ := newItem_spec hready hrun₁ hself hp h₂ h₃ h₄
  obtain ⟨_, _, _, _, _, _, hl₄, _⟩ := newItem_listed hready hrun hthis hitems hl hp hk h₂ h₃ h₄
  obtain rfl := Option.some.inj (hl₄.first.symm.trans hfirst)
  have hstart := (KernelInv.run hready hrun).kernel.start
  have hinHeap : ∀ x, s.freeList ≤ x → x < s.freeList + 8 → InHeap x := fun x hx hx' =>
    (inHeap_of_freeList (hrun₄.heapInv hready).heap (by omega) (by omega)).1
  have hbelow : ∀ b ∈ blocks, b.1 + b.2 ≤ s.freeList := (hrun.heapInv hready).blocks.below
  have hold : ∀ b ∈ blocks, b ∈ (q, 24) :: blocks := fun b hb => List.mem_cons_of_mem _ hb
  suffices hview : ∀ x, s.freeList ≤ x → x < s.freeList + 8 → view s' x = view t₄ x by
    rw [← hword]
    exact load_congr fun x hx hx' => (hview x hx hx').trans (hview₄ x (hinHeap x hx hx') (by omega))
  cases items with
  | nil =>
    rw [List.headD_nil, if_neg (not_not.mpr rfl)] at ha
    have hend := hbelow _ hthis
    obtain ⟨_, _, _, hview⟩ := hrun₄.storeField hready (hold _ hthis) (by omega) (by omega) (hrun₄.lt hready hself) ha
    exact fun x hx hx' => hview x (hinHeap x hx hx') (by dsimp only at hend; omega)
  | cons a rest =>
    rw [List.headD_cons, if_pos hl₄.linked.1] at ha
    obtain ⟨item, hitem, ha⟩ := Option.bind_eq_some_iff.mp ha
    obtain ⟨t, hs₁, hs₂⟩ := Option.bind_eq_some_iff.mp ha
    obtain rfl := hl₄.linked.last_of_some hitem
    have hgetLast : (a :: rest).getLast? = some (rest.getLastD a) := by
      rw [List.getLast?_cons, List.getLastD_eq_getLast?]
    have hmem := hitems _ (List.mem_of_getLast? hgetLast)
    have hend := hbelow _ hmem
    obtain ⟨_, _, _, _, _, hview⟩ := link_stores hready hrun₄ (hold _ hmem) hself (by dsimp only at hend; omega) hs₁ hs₂
    exact fun x hx hx' => hview x (hinHeap x hx hx') (by omega) (by dsimp only at hend; omega)

/-- A submission by its parts: the process is made behind all blocks and is then linked to. Besides, only blocks of the
list are stored to. -/
structure SubmissionParts (img : Image) (m : Memory) (s s' t : State Frames) (blocks own : List Block) (p : ℕ) :
    Prop where
  run : KernelRun img m t ((p + 88, 11) :: (p + 64, 8) :: (p, 48) :: blocks)
  behind : s.freeList ≤ p
  made : ∀ x, heapStart ≤ x → x < s.freeList → (∀ b ∈ own, b.2 = 24 → x ∉ b.range) → view t x = view s x
  linked : ∀ x, heapStart ≤ x → x < p + 99 → (∀ b ∈ own, b.2 = 24 → x ∉ b.range) → view s' x = view t x
  header : load (view s') 8 (p + 99) = 24

lemma Scheduled.submission {home entry stack heap p : ℕ} (h : Scheduled img m s blocks own this items processes)
    (htext : OffHeap img s blocks home homeDirectory)
    (hs : submitProcess s (kallocFrame (reserved img)) fuel this home entry stack heap = some (p, s')) :
    ∃ id t₁ t, id < 2 ^ 64 ∧ KernelRun img m t₁ blocks ∧ Steady img t₁ home homeDirectory ∧
      newProcess t₁ (kallocFrame (reserved img)) fuel home id entry stack heap = some (p, t) ∧
      SubmissionParts img m s s' t blocks own p := by
  obtain ⟨⟨id, t₁⟩, hid, hs⟩ := Option.bind_eq_some_iff.mp hs
  obtain ⟨⟨r, t⟩, hnew, hs⟩ := Option.bind_eq_some_iff.mp hs
  obtain ⟨t', hadd, hs⟩ := Option.bind_eq_some_iff.mp hs
  obtain ⟨rfl, rfl⟩ := Prod.mk.inj (Option.some.inj hs)
  have hthis := h.owned _ h.scheduler
  have hlen := h.length_lt hready
  obtain ⟨hrun, hfl, hlisted, _⟩ := h.created hready htext hid hnew
  obtain ⟨hid₀, hrun₁, hfl₁, hsteps, _, hview₁⟩ := getNextProcessId_spec hready h.run hthis hid
  obtain rfl := Option.some.inj (hid₀.symm.trans h.nextId)
  obtain ⟨hr, _, _, hkept₂, _⟩ := newProcess_spec hready hrun₁ (htext.steady hsteps) (by omega) hnew
  have hsub : ∀ b ∈ blocks, b ∈ (r + 88, 11) :: (r + 64, 8) :: (r, 48) :: blocks := fun b hb => by simp [hb]
  have hitems : ∀ i ∈ items, (i, 24) ∈ (r + 88, 11) :: (r + 64, 8) :: (r, 48) :: blocks := fun i hi =>
    hsub _ (h.owned _ (h.itemBlocks i hi))
  have hp := hrun.lt hready (b := (r, 48)) (by simp)
  have hheader := addNewProcess_header hready hrun (hsub _ hthis) hitems hlisted hp hadd
  obtain ⟨_, link, _, _, _, _, hlink, hview⟩ :=
    addNewProcess_spec hready hrun (hsub _ hthis) hitems h.after hlisted hp hadd
  obtain ⟨o, ho, hlo, hhi, _⟩ := h.link_apart hready hlink
  have hapart : ∀ x, (∀ b ∈ own, b.2 = 24 → x ∉ b.range) → ∀ o, (o, 24) ∈ own → x < o ∨ o + 24 ≤ x :=
    fun x hout o ho => by
      have hin := hout _ ho rfl
      rw [Block.mem_range] at hin
      omega
  rw [hfl] at hheader hview
  refine ⟨_, t₁, t, by omega, hrun₁, htext.steady hsteps, hnew, hrun, by omega, fun x hx hx' hout => ?_,
    fun x hx hx' hout => ?_, hheader⟩
  · have hscheduler := hapart x hout this h.scheduler
    rw [hkept₂ x hx (by omega), hview₁ x (inHeap_of_freeList (h.run.heapInv hready).heap hx hx').1 (by omega)]
  · have hitem := hapart x hout o ho
    exact hview x hx hx' (by omega)

end Scheduling

/-- The runs of a scheduler. Its processes are submitted one after the other, and the others do what they want in
between. -/
inductive SchedulerRun (img : Image) (m : Memory) (home : ℕ) :
    State Frames → List Block → List Block → ℕ → List ℕ → Prop
  | created {s s' blocks fuel this} : KernelRun img m s blocks →
      newScheduler s (kallocFrame (reserved img)) fuel = some (this, s') →
      SchedulerRun img m home s' ((this, 24) :: blocks) [(this, 24)] this []
  | others {s s' blocks blocks' own this processes} : SchedulerRun img m home s blocks own this processes →
      OthersStep img own (s, blocks) (s', blocks') → SchedulerRun img m home s' blocks' own this processes
  | submitted {s s' blocks own this processes fuel entry stack heapStart p} :
      SchedulerRun img m home s blocks own this processes → OffHeap img s blocks home homeDirectory →
      submitProcess s (kallocFrame (reserved img)) fuel this home entry stack heapStart = some (p, s') →
      SchedulerRun img m home s' (submissionBlocks p ++ blocks) (submissionBlocks p ++ own) this (processes ++ [p])
  | dispatched {s s' blocks own this processes fuel args} : SchedulerRun img m home s blocks own this processes →
      runNextProcess s fuel this = some (args, s') → SchedulerRun img m home s' blocks own this processes

lemma SchedulerRun.scheduled {img : Image} {m : Memory} {home : ℕ} {s : State Frames} {blocks own : List Block}
    {this : ℕ} {processes : List ℕ} (hready : Ready img m) (h : SchedulerRun img m home s blocks own this processes) :
    ∃ items, Scheduled img m s blocks own this items processes := by
  induction h with
  | created hrun hn => exact ⟨[], scheduled_new hready hrun hn⟩
  | others _ hstep ih =>
    obtain ⟨items, hs⟩ := ih
    exact ⟨items, hs.others hready hstep⟩
  | submitted _ htext hsubmit ih =>
    obtain ⟨items, hs⟩ := ih
    obtain ⟨q, hq⟩ := hs.submitted hready htext hsubmit
    exact ⟨items ++ [q], hq⟩
  | dispatched _ hr ih =>
    obtain ⟨items, hs⟩ := ih
    exact ⟨items, hs.dispatched hready hr⟩

/-- The list as the scheduler and a new submission walk it: `next` goes through the items and ends, `prev` goes back,
and the processes are there in the order of their ids, each once. -/
structure InOrder {α : Type} (s : State α) (this : ℕ) (items processes : List ℕ) : Prop where
  chain : ∀ k ≤ items.length, (fun item : Option ℕ => item.bind (ProcessListItem.next s))^[k]
    (Scheduler.firstProcess s this) = some (items.getD k 0)
  ne_null : ∀ item ∈ items, item ≠ 0
  acyclic : items.Nodup
  prev : ∀ k (hk : k < items.length), ProcessListItem.prev s items[k] = (0 :: items)[k]?
  contents : items.map (ProcessListItem.process s) = processes.map some
  ids : processes.map (Process.getId s) = (List.range processes.length).map some
  once : processes.Nodup
  last : items ≠ [] → ∀ extra, lastItem s (items.length + extra) (items.headD 0) = items.getLast?

structure Dispatches {α : Type} (s : State α) (this : ℕ) (items processes : List ℕ) (k extra : ℕ) : Prop where
  lt : k < processes.length
  found : findReady s (items.length + extra) (items.headD 0) = items[k]?
  ready : Process.isReady s processes[k] = some true
  first : ∀ j (hj : j < k), Process.isReady s processes[j] ≠ some true
  current : ∃ args s', runNextProcess s (items.length + extra) this = some (args, s') ∧
    Scheduler.currentProcess s' this = some processes[k]

section Lists

variable {img : Image} {m : Memory} {s : State Frames} {blocks own : List Block} {this : ℕ} {items processes : List ℕ}
    (h : Scheduled img m s blocks own this items processes)
include h

lemma Scheduled.inOrder : InOrder s this items processes := by
  refine ⟨fun k hk => ?_, h.listed.linked.ne_null, h.listed.linked.nodup, h.listed.linked.prev_eq, h.listed.processes,
    h.numbered.ids, ?_, fun hne extra => ?_⟩
  · rw [h.listed.first]
    exact h.listed.linked.follow k hk
  · refine List.Nodup.of_map (Process.getId s) ?_
    rw [h.numbered.ids]
    exact List.nodup_range.map (Option.some_injective ℕ)
  · obtain ⟨a, rest, rfl⟩ := List.exists_cons_of_ne_nil hne
    rw [List.headD_cons, lastItem, List.length_cons, h.listed.linked.last_eq, List.getLast?_cons,
      List.getLastD_eq_getLast?]

lemma Scheduled.dispatches (hready : Ready img m) (hne : processes ≠ []) (extra : ℕ) :
    Dispatches s this items processes 0 extra := by
  obtain ⟨p, ps, rfl⟩ := List.exists_cons_of_ne_nil hne
  cases items with
  | nil => exact absurd h.listed.processes (by simp)
  | cons a rest =>
    obtain ⟨hfirst, _⟩ := List.cons.inj h.listed.processes
    have htest : ∀ i ∈ a :: rest, ((ProcessListItem.process s i).bind (Process.isReady s)) = some true := by
      intro i hi
      have hmem := List.mem_map_of_mem (f := ProcessListItem.process s) hi
      rw [h.listed.processes] at hmem
      obtain ⟨r, hr, heq⟩ := List.mem_map.mp hmem
      rw [← heq, Option.bind_some, h.numbered.ready r hr]
    have hfound : findReady s ((a :: rest).length + extra) a = some a :=
      h.listed.linked.search_eq htest ⟨a, List.mem_cons_self, rfl⟩ extra
    have hthis := h.owned _ h.scheduler
    have hprocess := h.owned _ (h.processBlocks p List.mem_cons_self)
    obtain ⟨s', hs', hrun'⟩ := h.run.storeBytes_run hready hthis (n := 8) p le_rfl (by omega)
    obtain ⟨_, _, hcurrent, _⟩ := h.run.storeField hready hthis le_rfl (by omega)
      (h.run.lt hready hprocess) hs'
    have hentry := hrun'.1.loadBytes hready hprocess (n := 8) (a := p + 40) (by omega) le_rfl
    have hstack :=
      hrun'.1.loadBytes hready hprocess (n := 8) (a := p + 24) (by omega) (by omega)
    have hheap :=
      hrun'.1.loadBytes hready hprocess (n := 8) (a := p + 32) (by omega) (by omega)
    refine ⟨Nat.zero_lt_succ _, hfound, h.numbered.ready p List.mem_cons_self,
      fun j hj => absurd hj (Nat.not_lt_zero j),
      (load (view s') 8 (p + 40), load (view s') 8 (p + 24), load (view s') 8 (p + 32)), s', ?_, hcurrent⟩
    simp only [runNextProcess, h.listed.first, List.headD_cons, hfound, hfirst, hs', Process.getEntryAddress, hentry,
      Process.getStackPointer, hstack, Process.getHeapStartAddress, hheap, Option.bind_eq_bind, Option.bind_some]

end Lists

/-- In every state of every run the list is as its processes were submitted, and the search ends at the first of them
that is ready. -/
theorem schedulerRun_inOrder (img : Image) (m : Memory) (hready : Ready img m) (home : ℕ) (s : State Frames)
    (blocks own : List Block) (this : ℕ) (processes : List ℕ)
    (h : SchedulerRun img m home s blocks own this processes) :
    ∃ items, InOrder s this items processes ∧
      (processes ≠ [] → ∀ extra, ∃ k, Dispatches s this items processes k extra) := by
  obtain ⟨items, hs⟩ := h.scheduled hready
  exact ⟨items, hs.inOrder, fun hne extra => ⟨0, hs.dispatches hready hne extra⟩⟩

section Examples

variable {img : Image} {m : Memory} {s : State Frames} {blocks : List Block} {this : ℕ} (hready : Ready img m)
    (hrun : KernelRun img m s blocks)
include hready hrun

lemma newScheduler_isSome (hleft : 8 ≤ framesLeft img s.mem) :
    ∃ this s', newScheduler s (kallocFrame (reserved img)) 3 = some (this, s') ∧
      ReflTransGen (HeapStep img) (s, blocks) (s', (this, 24) :: blocks) ∧
      framesLeft img s.mem ≤ framesLeft img s'.mem + 8 := by
  obtain ⟨t₁, hk, hrun₁, hleft₁⟩ :=
    hrun.kalloc_run hready (by norm_num : 24 < 2 ^ 62) (by norm_num : 24 / 4096 + 2 < 3) (by omega)
  have hself : (s.freeList + 16, 24) ∈ (s.freeList + 16, 24) :: blocks := List.mem_cons_self
  obtain ⟨t₂, h₂, hrun₂, hleft₂⟩ := hrun₁.storeBytes_run hready hself (n := 8) (a := s.freeList + 16 + 8) 0
    (by omega) (by omega)
  obtain ⟨t₃, h₃, _, hleft₃⟩ :=
    hrun₂.storeBytes_run hready hself (n := 8) (a := s.freeList + 16 + 16) 0 (by omega) le_rfl
  have hsteps : ReflTransGen (HeapStep img) (s, blocks) (t₃, (s.freeList + 16, 24) :: blocks) := by
    refine (ReflTransGen.single (.kalloc (by norm_num) hk)).trans ?_
    refine (storeBytes_steps hself (by omega) (by omega) h₂).trans ?_
    exact storeBytes_steps hself (by omega) (by omega) h₃
  refine ⟨s.freeList + 16, t₃, ?_, hsteps, by omega⟩
  simp only [newScheduler, operatorNew, hk, h₂, h₃, Option.bind_eq_bind, Option.bind_some]

lemma newProcess_isSome {home : ℕ} (id entry stack heap : ℕ) (htext : Steady img s home homeDirectory)
    (hleft : 24 ≤ framesLeft img s.mem) :
    ∃ p path buf s', newProcess s (kallocFrame (reserved img)) 14 home id entry stack heap = some (p, s') ∧
      ReflTransGen (HeapStep img) (s, blocks) (s', (buf, homeDirectory.length) :: (path, 8) :: (p, 48) :: blocks) ∧
      framesLeft img s.mem ≤ framesLeft img s'.mem + 24 := by
  obtain ⟨t₁, hk, hrun₁, hleft₁⟩ :=
    hrun.kalloc_run hready (by norm_num : 48 < 2 ^ 62) (by norm_num : 48 / 4096 + 2 < 14) (by omega)
  generalize hp : s.freeList + 16 = p at hk hrun₁
  have hself : (p, 48) ∈ (p, 48) :: blocks := List.mem_cons_self
  obtain ⟨t₂, h₂, hrun₂, hleft₂⟩ := hrun₁.storeBytes_run hready hself (n := 8) id le_rfl (by omega)
  obtain ⟨t₃, h₃, hrun₃, hleft₃⟩ :=
    hrun₂.storeBytes_run hready hself (n := 8) (a := p + 32) heap (by omega) (by omega)
  obtain ⟨t₄, h₄, hrun₄, hleft₄⟩ :=
    hrun₃.storeBytes_run hready hself (n := 8) (a := p + 24) stack (by omega) (by omega)
  obtain ⟨t₅, h₅, hrun₅, hleft₅⟩ :=
    hrun₄.storeBytes_run hready hself (n := 8) (a := p + 40) entry (by omega) le_rfl
  obtain ⟨t₆, h₆, hrun₆, hleft₆⟩ :=
    hrun₅.storeBytes_run hready hself (n := 4) (a := p + 8) 0 (by omega) (by omega)
  have hsteps₆ : ReflTransGen (HeapStep img) (s, blocks) _ := constructor_steps hk h₂ h₃ h₄ h₅ h₆
  have htext₆ : Steady img t₆ home homeDirectory := htext.of_steps (constructor_steps hk h₂ h₃ h₄ h₅ h₆)
  obtain ⟨path, buf, t₇, h₇, hsteps₇, hleft₇⟩ := newPath_isSome hready hrun₆ htext₆ homeDirectory_nonzero
    (by decide : homeDirectory.length + 3 ≤ 14) (by rw [homeDirectory_length]; omega)
  rw [homeDirectory_length] at hleft₇
  have hrun₇ := hrun₆.heapSteps hsteps₇
  have hmem : (p, 48) ∈ (buf, homeDirectory.length) :: (path, 8) :: (p, 48) :: blocks := by simp
  obtain ⟨t₈, h₈, _, hleft₈⟩ :=
    hrun₇.storeBytes_run hready hmem (n := 8) (a := p + 16) path (by omega) (by omega)
  refine ⟨p, path, buf, t₈, ?_, (hsteps₆.trans hsteps₇).trans (storeBytes_steps hmem (by omega) (by omega) h₈),
    by omega⟩
  simp only [newProcess, operatorNew, hk, h₂, h₃, h₄, h₅, h₆, h₇, h₈, Option.bind_eq_bind, Option.bind_some]

lemma addNewProcess_isSome {process : ℕ} {items processes : List ℕ} (hthis : (this, 24) ∈ blocks)
    (hitems : ∀ i ∈ items, (i, 24) ∈ blocks) (hl : Listed s this items processes) (hlen : items.length ≤ 14)
    (hprocess : process < 2 ^ 64) (hleft : 8 ≤ framesLeft img s.mem) :
    ∃ q s', addNewProcess s (kallocFrame (reserved img)) 14 this process = some s' ∧
      (∀ bs, (this, 24) ∈ bs → (∀ i ∈ items, (i, 24) ∈ bs) →
        ReflTransGen (HeapStep img) (s, bs) (s', (q, 24) :: bs)) ∧
      framesLeft img s.mem ≤ framesLeft img s'.mem + 8 := by
  obtain ⟨t₁, hk, hrun₁, hleft₁⟩ :=
    hrun.kalloc_run hready (by norm_num : 24 < 2 ^ 62) (by norm_num : 24 / 4096 + 2 < 14) (by omega)
  generalize hq : s.freeList + 16 = q at hk hrun₁
  have hself : (q, 24) ∈ (q, 24) :: blocks := List.mem_cons_self
  obtain ⟨t₂, h₂, hrun₂, hleft₂⟩ := hrun₁.storeBytes_run hready hself (n := 24) 0 le_rfl le_rfl
  obtain ⟨t₃, h₃, hrun₃, hleft₃⟩ := hrun₂.storeBytes_run hready hself (n := 8) 0 le_rfl (by omega)
  obtain ⟨t₄, h₄, hrun₄, hleft₄⟩ :=
    hrun₃.storeBytes_run hready hself (n := 8) (a := q + 16) process (by omega) le_rfl
  obtain ⟨_, _, _, _, _, _, hl₄, _⟩ := newItem_listed hready hrun hthis hitems hl hprocess hk h₂ h₃ h₄
  have hfirst : Scheduler.firstProcess t₄ this = some (items.headD 0) := hl₄.first
  have hsteps : ∀ bs, ReflTransGen (HeapStep img) (s, bs) (t₄, (q, 24) :: bs) := fun bs => by
    refine (ReflTransGen.single (.kalloc (by norm_num) hk)).trans ?_
    refine (storeBytes_steps List.mem_cons_self (by omega) (by omega) h₂).trans ?_
    refine (storeBytes_steps List.mem_cons_self (by omega) (by omega) h₃).trans ?_
    exact storeBytes_steps List.mem_cons_self (by omega) (by omega) h₄
  cases items with
  | nil =>
    obtain ⟨s', hs', _, hleft'⟩ := hrun₄.storeBytes_run hready (List.mem_cons_of_mem _ hthis) (n := 8)
      (a := this + 16) q (by omega) le_rfl
    refine ⟨q, s', ?_, fun bs hbs _ => (hsteps bs).trans
      (storeBytes_steps (List.mem_cons_of_mem _ hbs) (by omega) (by omega) hs'), by omega⟩
    simp only [addNewProcess, operatorNew, hk, h₂, h₃, h₄, hfirst, hs', List.headD_nil, Option.bind_eq_bind,
      Option.bind_some, ne_eq, not_true, if_false]
  | cons a rest =>
    have hlast : lastItem t₄ 14 a = some (rest.getLastD a) := by
      rw [List.length_cons] at hlen
      have hwalk := hl₄.linked.last_eq (13 - rest.length)
      rwa [show rest.length + 1 + (13 - rest.length) = 14 by omega] at hwalk
    have hmem : rest.getLastD a ∈ a :: rest :=
      List.mem_of_getLast? (by rw [List.getLast?_cons, List.getLastD_eq_getLast?])
    obtain ⟨t₅, h₅, hrun₅, hleft₅⟩ := hrun₄.storeBytes_run hready (List.mem_cons_of_mem _ (hitems _ hmem)) (n := 8)
      q le_rfl (by omega)
    obtain ⟨s', hs', _, hleft'⟩ := hrun₅.storeBytes_run hready hself (n := 8) (a := q + 8) (rest.getLastD a)
      (by omega) (by omega)
    refine ⟨q, s', ?_, fun bs _ hbs => (hsteps bs).trans ((storeBytes_steps (List.mem_cons_of_mem _ (hbs _ hmem)) le_rfl
      (by omega) h₅).trans (storeBytes_steps List.mem_cons_self (by omega) (by omega) hs')), by omega⟩
    simp only [addNewProcess, operatorNew, hk, h₂, h₃, h₄, hfirst, List.headD_cons, if_pos hl₄.linked.1, hlast, h₅, hs',
      Option.bind_eq_bind, Option.bind_some]

omit hready hrun in
lemma submitProcess_isSome {own : List Block} {items processes : List ℕ} {home : ℕ} (entry stack heap : ℕ)
    (hready : Ready img m) (hs : Scheduled img m s blocks own this items processes)
    (htext : OffHeap img s blocks home homeDirectory) (hlen : items.length ≤ 14) (hleft : 33 ≤ framesLeft img s.mem) :
    ∃ p s' bs, submitProcess s (kallocFrame (reserved img)) 14 this home entry stack heap = some (p, s') ∧
      ReflTransGen (HeapStep img) (s, blocks) (s', bs) ∧ framesLeft img s.mem ≤ framesLeft img s'.mem + 32 := by
  have hthis := hs.owned _ hs.scheduler
  obtain ⟨t₁, h₁, hrun₁, hleft₁⟩ := hs.run.storeBytes_run hready hthis (n := 8) (a := this + 8)
    ((processes.length + 1) % 2 ^ 64) (by omega) (by omega)
  have hid : getNextProcessId s this = some (processes.length, t₁) := by
    have hnext : Scheduler.nextProcessId s this = some processes.length := hs.nextId
    simp only [getNextProcessId, hnext, h₁, Option.bind_eq_bind, Option.bind_some]
  have hsteps₁ : ReflTransGen (HeapStep img) (s, blocks) (t₁, blocks) :=
    storeBytes_steps hthis (by omega) (by omega) h₁
  obtain ⟨p, path, buf, t₂, h₂, hsteps₂, hleft₂⟩ :=
    newProcess_isSome hready hrun₁ processes.length entry stack heap (htext.steady hsteps₁) (by omega)
  obtain ⟨hrun₂, _, hlisted, _⟩ := hs.created hready htext hid h₂
  obtain ⟨q, t₃, h₃, hsteps₃, hleft₃⟩ := addNewProcess_isSome hready hrun₂ (by simp [hthis])
    (fun i hi => by simp [hs.owned _ (hs.itemBlocks i hi)]) hlisted hlen
    (hrun₂.lt hready (b := (p, 48)) (by simp)) (by omega)
  refine ⟨p, t₃, _, ?_, (hsteps₁.trans hsteps₂).trans (hsteps₃ _ (by simp [hthis])
    fun i hi => by simp [hs.owned _ (hs.itemBlocks i hi)]), by omega⟩
  simp only [submitProcess, hid, h₂, h₃, Option.bind_eq_bind, Option.bind_some]

omit hready hrun in
/-- Two processes of a new scheduler, whose path is from a page of a program. -/
theorem schedulerRun_inOrder_two : ∃ s blocks own this p q items,
    SchedulerRun megabyteImage (fun _ => 0) 0x10000 s blocks own this [p, q] ∧ InOrder s this items [p, q] ∧
    ∃ k, Dispatches s this items [p, q] k 0 := by
  obtain ⟨s, hrun, hchars, hzero, hleft⟩ := text_page homeDirectory (by decide)
  obtain ⟨this, t, hnew, hsteps, hleft₁⟩ := newScheduler_isSome megabyteImage_ready hrun (by omega)
  have hs := scheduled_new megabyteImage_ready hrun hnew
  have hheld := holds_lower (hrun.heapInv megabyteImage_ready) ⟨hchars, hzero⟩ (by decide) hsteps
  have htext : OffHeap megabyteImage t [(this, 24)] 0x10000 homeDirectory := fun _ _ hlater =>
    holds_lower (hs.run.heapInv megabyteImage_ready) hheld (by decide) hlater
  obtain ⟨p, t₁, bs, hsubmit₁, hsteps₁, hleft₂⟩ := submitProcess_isSome 0x10000 0x100fa0 0x12000
    megabyteImage_ready hs htext (by decide) (by omega)
  have hheld₁ := holds_lower (hs.run.heapInv megabyteImage_ready) hheld (by decide) hsteps₁
  have hrun₁ := SchedulerRun.submitted (.created hrun hnew) htext hsubmit₁
  obtain ⟨i, hs₁⟩ := hs.submitted megabyteImage_ready htext hsubmit₁
  have htext₁ : OffHeap megabyteImage t₁ (submissionBlocks p ++ [(this, 24)]) 0x10000 homeDirectory := fun _ _ hlater =>
    holds_lower (hs₁.run.heapInv megabyteImage_ready) hheld₁ (by decide) hlater
  obtain ⟨q, t₂, _, hsubmit₂, _⟩ := submitProcess_isSome 0x20000 0x100fa0 0x22000 megabyteImage_ready hs₁ htext₁
    (by simp) (by omega)
  have hrun₂ := SchedulerRun.submitted hrun₁ htext₁ hsubmit₂
  obtain ⟨items, hitems, hsearch⟩ := schedulerRun_inOrder _ _ megabyteImage_ready _ _ _ _ _ _ hrun₂
  exact ⟨t₂, _, _, this, p, q, items, hrun₂, hitems, hsearch (by simp) 0⟩

end Examples

end TetraOS.Processes
