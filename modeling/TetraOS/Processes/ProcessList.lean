import TetraOS.Library.LinkedList
import TetraOS.Processes.WorkingDirectory

/-! The list of processes (kernel/process/scheduler.cpp, kernel/process/process.cpp), as it lies in the kernel heap. -/

namespace TetraOS.Processes

open Memory Library.ByteMemory Library.BumpBlocks Library.LinkedList PhysicalAllocator Relation

section Objects

variable {α : Type} (s : State α)

namespace ProcessListItem

def next (item : ℕ) : Option ℕ := loadBytes s 8 item
def prev (item : ℕ) : Option ℕ := loadBytes s 8 (item + 8)
def process (item : ℕ) : Option ℕ := loadBytes s 8 (item + 16)

end ProcessListItem

namespace Process

def getId (this : ℕ) : Option ℕ := loadBytes s 8 this
def isReady (this : ℕ) : Option Bool := (loadBytes s 4 (this + 8)).map fun state => state == 0
def getCwd (this : ℕ) : Option ℕ := loadBytes s 8 (this + 16)
def getStackPointer (this : ℕ) : Option ℕ := loadBytes s 8 (this + 24)
def getHeapStartAddress (this : ℕ) : Option ℕ := loadBytes s 8 (this + 32)
def getEntryAddress (this : ℕ) : Option ℕ := loadBytes s 8 (this + 40)

end Process

namespace Scheduler

def currentProcess (this : ℕ) : Option ℕ := loadBytes s 8 this
def nextProcessId (this : ℕ) : Option ℕ := loadBytes s 8 (this + 8)
def firstProcess (this : ℕ) : Option ℕ := loadBytes s 8 (this + 16)

end Scheduler

variable (k : FrameAlloc α) (fuel : ℕ)

def newScheduler : Option (ℕ × State α) := do
  let (this, s) ← operatorNew k fuel s 24
  let s ← storeBytes s 8 (this + 8) 0
  let s ← storeBytes s 8 (this + 16) 0
  some (this, s)

def getNextProcessId (this : ℕ) : Option (ℕ × State α) := do
  let id ← Scheduler.nextProcessId s this
  let s ← storeBytes s 8 (this + 8) ((id + 1) % 2 ^ 64)
  some (id, s)

/-- `new Process(...)`, where the text `/home/user/` is at `home`. -/
def newProcess (home id entry stack heapStart : ℕ) : Option (ℕ × State α) := do
  let (this, s) ← operatorNew k fuel s 48
  let s ← storeBytes s 8 this id
  let s ← storeBytes s 8 (this + 32) heapStart
  let s ← storeBytes s 8 (this + 24) stack
  let s ← storeBytes s 8 (this + 40) entry
  let s ← storeBytes s 4 (this + 8) 0
  let (path, s) ← newPath k fuel s home
  let s ← storeBytes s 8 (this + 16) path
  some (this, s)

def lastItem (item : ℕ) : Option ℕ := last 0 (ProcessListItem.next s) fuel item

def addNewProcess (this process : ℕ) : Option (State α) := do
  let (newItem, s) ← operatorNew k fuel s 24
  -- `new ProcessListItem()` clears the item
  let s ← storeBytes s 24 newItem 0
  let s ← storeBytes s 8 newItem 0
  let s ← storeBytes s 8 (newItem + 16) process
  let first ← Scheduler.firstProcess s this
  if first ≠ 0 then do
    let item ← lastItem s fuel first
    let s ← storeBytes s 8 item newItem
    storeBytes s 8 (newItem + 8) item
  else storeBytes s 8 (this + 16) newItem

/-- The end of `submit_new_process`, with the process. -/
def submitProcess (this home entry stack heapStart : ℕ) : Option (ℕ × State α) := do
  let (id, s) ← getNextProcessId s this
  let (process, s) ← newProcess s k fuel home id entry stack heapStart
  let s ← addNewProcess s k fuel this process
  some (process, s)

def findReady (item : ℕ) : Option ℕ :=
  search (ProcessListItem.next s) (fun item => (ProcessListItem.process s item).bind (Process.isReady s)) fuel item

/-- `run_next_process` up to the switch, with the arguments of the switch. -/
def runNextProcess (this : ℕ) : Option ((ℕ × ℕ × ℕ) × State α) := do
  let processItem ← Scheduler.firstProcess s this
  let processItem ← findReady s fuel processItem
  let process ← ProcessListItem.process s processItem
  let s ← storeBytes s 8 this process
  let entry ← Process.getEntryAddress s process
  let stack ← Process.getStackPointer s process
  let heapStart ← Process.getHeapStartAddress s process
  some ((entry, stack, heapStart), s)

end Objects

structure Listed {α : Type} (s : State α) (this : ℕ) (items processes : List ℕ) : Prop where
  first : Scheduler.firstProcess s this = some (items.headD 0)
  linked : Linked 0 (ProcessListItem.next s) (ProcessListItem.prev s) 0 items
  processes : items.map (ProcessListItem.process s) = processes.map some

structure Numbered {α : Type} (s : State α) (processes : List ℕ) : Prop where
  ids : processes.map (Process.getId s) = (List.range processes.length).map some
  ready : ∀ p ∈ processes, Process.isReady s p = some true

section Objects

variable {img : Image} {m : Memory} {s s' : State Frames} {blocks blocks' : List Block} {this : ℕ}
    {items processes : List ℕ} (hready : Ready img m)

lemma Numbered.snoc {p : ℕ} (h : Numbered s processes) (hid : Process.getId s p = some processes.length)
    (hp : Process.isReady s p = some true) : Numbered s (processes ++ [p]) := by
  refine ⟨?_, fun q hq => ?_⟩
  · rw [List.map_append, h.ids, List.map_singleton, hid, List.length_append, List.length_singleton, List.range_succ,
      List.map_append, List.map_singleton]
  · rcases List.mem_append.mp hq with hq | hq
    · exact h.ready q hq
    · rwa [List.mem_singleton.mp hq]

include hready

lemma Numbered.congr (h : Numbered s processes) (hrun : KernelRun img m s blocks) (hrun' : KernelRun img m s' blocks')
    (hsub : ∀ b ∈ blocks, b ∈ blocks') (hprocesses : ∀ p ∈ processes, (p, 48) ∈ blocks)
    (hview : ∀ p ∈ processes, ∀ x ∈ Block.range (p, 48), view s' x = view s x) : Numbered s' processes := by
  have hfield : ∀ p ∈ processes, ∀ n a, p ≤ a → a + n ≤ p + 48 → loadBytes s' n a = loadBytes s n a := by
    intro p hp n a hlo hhi
    refine hrun.loadBytes_congr hready hrun' (hprocesses p hp) (hsub _ (hprocesses p hp)) hlo hhi fun x hx hx' => ?_
    exact hview p hp x (Block.mem_range.mpr ⟨hlo.trans hx, by omega⟩)
  refine ⟨?_, fun p hp => ?_⟩
  · rw [← h.ids]
    exact List.map_congr_left fun p hp => hfield p hp 8 p le_rfl (by omega)
  · rw [← h.ready p hp, Process.isReady, Process.isReady, hfield p hp 4 (p + 8) (by omega) (by omega)]

lemma Listed.congr (hl : Listed s this items processes) (hrun : KernelRun img m s blocks)
    (hrun' : KernelRun img m s' blocks') (hsub : ∀ b ∈ blocks, b ∈ blocks') (hthis : (this, 24) ∈ blocks)
    (hitems : ∀ i ∈ items, (i, 24) ∈ blocks) (hfirst : ∀ x, this + 16 ≤ x → x < this + 24 → view s' x = view s x)
    (hview : ∀ i ∈ items, ∀ x ∈ Block.range (i, 24), view s' x = view s x) : Listed s' this items processes := by
  have hfield : ∀ i ∈ items, ∀ a, i ≤ a → a + 8 ≤ i + 24 → loadBytes s' 8 a = loadBytes s 8 a := by
    intro i hi a hlo hhi
    refine hrun.loadBytes_congr hready hrun' (hitems i hi) (hsub _ (hitems i hi)) hlo hhi fun x hx hx' => ?_
    exact hview i hi x (Block.mem_range.mpr ⟨hlo.trans hx, by omega⟩)
  refine ⟨?_, hl.linked.congr ?_ ?_, ?_⟩
  · rw [← hl.first]
    exact hrun.loadBytes_congr hready hrun' hthis (hsub _ hthis) (by omega) (by omega)
      fun x hx hx' => hfirst x hx (by omega)
  · exact fun i hi => hfield i hi i le_rfl (by omega)
  · exact fun i hi => hfield i hi (i + 8) (by omega) (by omega)
  · rw [← hl.processes]
    exact List.map_congr_left fun i hi => hfield i hi (i + 16) (by omega) (by omega)

end Objects

section Adding

variable {img : Image} {m : Memory} {s s' : State Frames} {blocks : List Block} {this process fuel : ℕ}
    {items processes : List ℕ} (hready : Ready img m) (hrun : KernelRun img m s blocks)
include hready hrun

lemma newItem_spec {q : ℕ} (hblock : (q, 24) ∈ blocks) (hprocess : process < 2 ^ 64) {t₁ t₂ : State Frames}
    (h₁ : storeBytes s 24 q 0 = some t₁) (h₂ : storeBytes t₁ 8 q 0 = some t₂)
    (h₃ : storeBytes t₂ 8 (q + 16) process = some s') :
    KernelRun img m s' blocks ∧ s'.freeList = s.freeList ∧ load (view s') 8 q = 0 ∧ load (view s') 8 (q + 8) = 0 ∧
      load (view s') 8 (q + 16) = process ∧ ∀ x, InHeap x → x < q ∨ q + 24 ≤ x → view s' x = view s x := by
  obtain ⟨hrun₁, hfl₁, _, hview₁⟩ := hrun.storeBytes hready hblock (n := 24) le_rfl le_rfl h₁
  obtain ⟨hrun₂, hfl₂, _, hview₂⟩ := hrun₁.storeBytes hready hblock (n := 8) le_rfl (by omega) h₂
  obtain ⟨hrun₃, hfl₃, _, hview₃⟩ :=
    hrun₂.storeBytes hready hblock (n := 8) (by omega) (by omega) h₃
  have hin : ∀ x, q ≤ x → x < q + 24 → InHeap x := fun x hx hx' => hrun.inHeap hready hblock ⟨hx, hx'⟩
  have hzero : ∀ x, q ≤ x → x < q + 16 → view s' x = 0 := by
    intro x hx hx'
    have hheap := hin x hx (by omega)
    rw [hview₃ x hheap, store_outside (by omega), hview₂ x hheap, store, hview₁ x hheap, store, Nat.zero_div,
      if_pos (⟨hx, by omega⟩ : q ≤ x ∧ x < q + 24)]
    exact ite_self _
  have hword : Zero (view s') q 16 := hzero
  refine ⟨hrun₃, hfl₃.trans (hfl₂.trans hfl₁), hword.load le_rfl (by omega), hword.load (by omega) (by omega), ?_,
    fun x hx hout => ?_⟩
  · rw [load_congr fun x hx hx' => hview₃ x (hin x (by omega) (by omega)), load_store_of_lt (by omega)]
  · rw [hview₃ x hx, store_outside (by omega), hview₂ x hx, store_outside (by omega), hview₁ x hx,
      store_outside (by omega)]

lemma items_apart {i j : ℕ} (hi : (i, 24) ∈ blocks) (hj : (j, 24) ∈ blocks) (hne : i ≠ j) :
    i + 24 ≤ j ∨ j + 24 ≤ i := by
  have happart := (Layout.run hready hrun).consecutive.apart_of_ne hi hj fun h => hne (Prod.mk.inj h).1
  dsimp only at happart
  omega

lemma link_stores {item q : ℕ} {t : State Frames} (hitem : (item, 24) ∈ blocks) (hblock : (q, 24) ∈ blocks)
    (hapart : item + 24 ≤ q) (h₁ : storeBytes s 8 item q = some t) (h₂ : storeBytes t 8 (q + 8) item = some s') :
    KernelRun img m s' blocks ∧ s'.freeList = s.freeList ∧ loadBytes s' 8 item = some q ∧
      loadBytes s' 8 (q + 8) = some item ∧
      (∀ i, (i, 24) ∈ blocks → ∀ b, i ≤ b → b + 8 ≤ i + 24 → b + 8 ≤ item ∨ item + 8 ≤ b →
        b + 8 ≤ q + 8 ∨ q + 16 ≤ b → loadBytes s' 8 b = loadBytes s 8 b) ∧
      ∀ x, InHeap x → x < q → x < item ∨ item + 8 ≤ x → view s' x = view s x := by
  obtain ⟨hrun₁, hfl₁, hnext, hview₁⟩ := hrun.storeField hready hitem (by omega) (by omega) (hrun.lt hready hblock) h₁
  obtain ⟨hrun₂, hfl₂, hprev, hview₂⟩ := hrun₁.storeField hready hblock (by omega) (by omega)
    (hrun.lt hready hitem) h₂
  refine ⟨hrun₂, hfl₂.trans hfl₁, ?_, hprev, fun i hi b hlo hhi hout hout' => ?_, fun x hx hxq hout => ?_⟩
  · rw [hrun₁.loadBytes_other hready hrun₂ hitem le_rfl (by omega) hview₂ (by omega), hnext]
  · rw [hrun₁.loadBytes_other hready hrun₂ hi hlo hhi hview₂ (by omega),
      hrun.loadBytes_other hready hrun₁ hi hlo hhi hview₁ hout]
  · rw [hview₂ x hx (by omega), hview₁ x hx hout]

variable (hthis : (this, 24) ∈ blocks) (hitems : ∀ i ∈ items, (i, 24) ∈ blocks) (hafter : ∀ i ∈ items, this < i)
    (hl : Listed s this items processes)
include hthis hitems hafter hl

variable {q : ℕ} (hblock : (q, 24) ∈ blocks) (hnew : this < q) (hnext : load (view s) 8 q = 0)
    (hprev : load (view s) 8 (q + 8) = 0) (hvalue : load (view s) 8 (q + 16) = process)
include hblock hnew hnext hprev hvalue

omit hitems hafter hl in
lemma link_first (hl : Listed s this [] processes) (hs : storeBytes s 8 (this + 16) q = some s') :
    KernelRun img m s' blocks ∧ s'.freeList = s.freeList ∧ Listed s' this [q] (processes ++ [process]) ∧
      ∀ x, InHeap x → x < this + 16 ∨ this + 16 + 8 ≤ x → view s' x = view s x := by
  have happart := items_apart hready hrun hthis hblock hnew.ne
  obtain ⟨hrun', hfl', hfirst, hview⟩ := hrun.storeField hready hthis (by omega) (by omega)
    (hrun.lt hready hblock) hs
  have hfield : ∀ a, q ≤ a → a + 8 ≤ q + 24 → loadBytes s' 8 a = some (load (view s) 8 a) := fun a hlo hhi => by
    rw [hrun.loadBytes_other hready hrun' hblock hlo hhi hview (by omega), hrun.loadBytes hready hblock hlo hhi]
  have hprocesses : processes = [] := List.map_eq_nil_iff.mp hl.processes.symm
  refine ⟨hrun', hfl', ⟨hfirst, ⟨by omega, ?_, ?_, trivial⟩, ?_⟩, hview⟩
  · rw [ProcessListItem.prev, hfield _ (by omega) (by omega), hprev]
  · rw [ProcessListItem.next, hfield _ (by omega) (by omega), hnext]
    rfl
  · rw [hprocesses, List.nil_append, List.map_singleton, List.map_singleton, ProcessListItem.process,
      hfield _ (by omega) (by omega), hvalue]

omit hprev in
lemma link_last {item : ℕ} {t : State Frames} (hlast : ∀ i ∈ items, i < q) (hgetLast : items.getLast? = some item)
    (h₁ : storeBytes s 8 item q = some t) (h₂ : storeBytes t 8 (q + 8) item = some s') :
    KernelRun img m s' blocks ∧ s'.freeList = s.freeList ∧ Listed s' this (items ++ [q]) (processes ++ [process]) ∧
      ∀ x, InHeap x → x < q → x < item ∨ item + 8 ≤ x → view s' x = view s x := by
  have hmem := List.mem_of_getLast? hgetLast
  have happart : ∀ i ∈ items, i + 24 ≤ q := fun i hi => by
    have := items_apart hready hrun (hitems i hi) hblock (hlast i hi).ne
    have := hlast i hi
    omega
  have hitem := happart item hmem
  have hlt := hafter item hmem
  have hthis_item := items_apart hready hrun hthis (hitems item hmem) hlt.ne
  obtain ⟨hrun', hfl', hnext', hprev', hkeep, hview⟩ :=
    link_stores hready hrun (hitems item hmem) hblock hitem h₁ h₂
  -- the link to the new item is the one field of the old ones that changes
  have hkept : ∀ i ∈ items, ∀ b, i ≤ b → b + 8 ≤ i + 24 → i ≠ item ∨ i + 8 ≤ b →
      loadBytes s' 8 b = loadBytes s 8 b := by
    intro i hi b hlo hhi hout
    have hq := happart i hi
    refine hkeep i (hitems i hi) b hlo hhi ?_ (by omega)
    by_cases hne : i = item
    · omega
    · have := items_apart hready hrun (hitems i hi) (hitems item hmem) hne
      omega
  have hfield : ∀ b, q ≤ b → b + 8 ≤ q + 24 → b + 8 ≤ q + 8 ∨ q + 16 ≤ b →
      loadBytes s' 8 b = some (load (view s) 8 b) := fun b hlo hhi hout => by
    rw [hkeep q hblock b hlo hhi (by omega) hout, hrun.loadBytes hready hblock hlo hhi]
  refine ⟨hrun', hfl',
    ⟨?_, hl.linked.snoc (by omega) ?_ ?_ (fun i hi => ?_) (fun i hi => ?_) fun i hi => ?_, ?_⟩, hview⟩
  · obtain ⟨a, rest, rfl⟩ := List.exists_cons_of_ne_nil (List.ne_nil_of_mem hmem)
    rw [Scheduler.firstProcess, hkeep this hthis _ (by omega) (by omega) (by omega) (by omega)]
    exact hl.first
  · rw [ProcessListItem.next, hfield q le_rfl (by omega) (by omega), hnext]
  · rw [ProcessListItem.prev, hprev', List.getLastD_eq_getLast?, hgetLast]
    rfl
  · obtain rfl := Option.some.inj (hgetLast.symm.trans hi)
    exact hnext'
  · have hne := hl.linked.ne_of_mem_dropLast hi hgetLast
    exact hkept i (List.mem_of_mem_dropLast hi) i le_rfl (by omega) (Or.inl hne)
  · exact hkept i hi (i + 8) (by omega) (by omega) (Or.inr le_rfl)
  · have hmap : items.map (ProcessListItem.process s') = items.map (ProcessListItem.process s) :=
      List.map_congr_left fun i hi => hkept i hi (i + 16) (by omega) le_rfl (Or.inr (by omega))
    rw [List.map_append, List.map_append, hmap, hl.processes, List.map_singleton, List.map_singleton,
      ProcessListItem.process, hfield (q + 16) (by omega) le_rfl (by omega), hvalue]

omit hblock hnew hnext hprev hvalue hafter in
lemma newItem_listed {q : ℕ} {t₁ t₂ t₃ : State Frames} (hprocess : process < 2 ^ 64)
    (hk : operatorNew (kallocFrame (reserved img)) fuel s 24 = some (q, t₁)) (h₁ : storeBytes t₁ 24 q 0 = some t₂)
    (h₂ : storeBytes t₂ 8 q 0 = some t₃) (h₃ : storeBytes t₃ 8 (q + 16) process = some s') :
    q = s.freeList + 16 ∧ KernelRun img m s' ((q, 24) :: blocks) ∧ s'.freeList = q + 24 ∧ load (view s') 8 q = 0 ∧
      load (view s') 8 (q + 8) = 0 ∧ load (view s') 8 (q + 16) = process ∧ Listed s' this items processes ∧
      ∀ x, heapStart ≤ x → x < s.freeList → view s' x = view s x := by
  obtain ⟨hrun₁, hq, hfl₁, hkept₁, _⟩ := hrun.kalloc_spec hready (by norm_num) hk
  obtain ⟨hrun', hfl', hnext, hprev, hvalue, hview'⟩ :=
    newItem_spec hready hrun₁ List.mem_cons_self hprocess h₁ h₂ h₃
  have hkept' : ∀ x, heapStart ≤ x → x < s.freeList → view s' x = view s x := fun x hx hx' => by
    rw [hview' x (inHeap_of_freeList (hrun.heapInv hready).heap hx hx').1 (by omega), hkept₁ x hx hx']
  have hblocks : ∀ b ∈ blocks, ∀ x ∈ Block.range b, view s' x = view s x := fun b hb x hx => by
    obtain ⟨hlo, hhi, _⟩ := (hrun.heapInv hready).mem_range hb hx
    exact hkept' x hlo hhi
  refine ⟨hq, hrun', by omega, hnext, hprev, hvalue, ?_, hkept'⟩
  exact hl.congr hready hrun hrun' (fun b hb => List.mem_cons_of_mem _ hb) hthis hitems
    (fun x hx hx' => hblocks _ hthis x (Block.mem_range.mpr ⟨by omega, by omega⟩)) fun i hi => hblocks _ (hitems i hi)

omit hblock hnew hnext hprev hvalue in
lemma addNewProcess_spec (hprocess : process < 2 ^ 64)
    (ha : addNewProcess s (kallocFrame (reserved img)) fuel this process = some s') :
    ∃ q link, q = s.freeList + 16 ∧ KernelRun img m s' ((q, 24) :: blocks) ∧ s'.freeList = q + 24 ∧
      Listed s' this (items ++ [q]) (processes ++ [process]) ∧ (link = this + 16 ∨ link ∈ items) ∧
      ∀ x, heapStart ≤ x → x < s.freeList → x < link ∨ link + 8 ≤ x → view s' x = view s x := by
  obtain ⟨⟨q, t₁⟩, hk, ha⟩ := Option.bind_eq_some_iff.mp ha
  obtain ⟨t₂, h₂, ha⟩ := Option.bind_eq_some_iff.mp ha
  obtain ⟨t₃, h₃, ha⟩ := Option.bind_eq_some_iff.mp ha
  obtain ⟨t₄, h₄, ha⟩ := Option.bind_eq_some_iff.mp ha
  obtain ⟨first, hfirst, ha⟩ := Option.bind_eq_some_iff.mp ha
  obtain ⟨hq, hrun₄, hfl₄, hnext, hprev, hvalue, hl₄, hkept₄⟩ :=
    newItem_listed hready hrun hthis hitems hl hprocess hk h₂ h₃ h₄
  have hself : (q, 24) ∈ (q, 24) :: blocks := List.mem_cons_self
  have hold : ∀ b ∈ blocks, b ∈ (q, 24) :: blocks := fun b hb => List.mem_cons_of_mem _ hb
  have hbelow : ∀ i, (i, 24) ∈ blocks → i < q := fun i hi => by
    have := (hrun.heapInv hready).blocks.below _ hi
    dsimp only at this
    omega
  have hheap : ∀ x, heapStart ≤ x → x < s.freeList → InHeap x := fun x hx hx' =>
    (inHeap_of_freeList (hrun.heapInv hready).heap hx hx').1
  obtain rfl := Option.some.inj (hl₄.first.symm.trans hfirst)
  cases items with
  | nil =>
    rw [List.headD_nil, if_neg (not_not.mpr rfl)] at ha
    obtain ⟨hrun', hfl', hl', hview⟩ :=
      link_first hready hrun₄ (hold _ hthis) hself (hbelow this hthis) hnext hprev hvalue hl₄ ha
    refine ⟨q, this + 16, hq, hrun', by omega, hl', Or.inl rfl, fun x hx hx' hout => ?_⟩
    rw [hview x (hheap x hx hx') hout, hkept₄ x hx hx']
  | cons a rest =>
    rw [List.headD_cons, if_pos hl₄.linked.1] at ha
    obtain ⟨item, hitem, ha⟩ := Option.bind_eq_some_iff.mp ha
    obtain ⟨t, hs₁, hs₂⟩ := Option.bind_eq_some_iff.mp ha
    obtain rfl := hl₄.linked.last_of_some hitem
    have hgetLast : (a :: rest).getLast? = some (rest.getLastD a) := by
      rw [List.getLast?_cons, List.getLastD_eq_getLast?]
    obtain ⟨hrun', hfl', hl', hview⟩ := link_last hready hrun₄ (hold _ hthis) (fun i hi => hold _ (hitems i hi)) hafter
      hl₄ hself (hbelow this hthis) hnext hvalue (fun i hi => hbelow i (hitems i hi)) hgetLast hs₁ hs₂
    refine ⟨q, rest.getLastD a, hq, hrun', by omega, hl', Or.inr (List.mem_of_getLast? hgetLast),
      fun x hx hx' hout => ?_⟩
    rw [hview x (hheap x hx hx') (by omega) hout, hkept₄ x hx hx']

end Adding

section Submitting

variable {img : Image} {m : Memory} {s s' : State Frames} {blocks : List Block} {this : ℕ} (hready : Ready img m)
    (hrun : KernelRun img m s blocks)
include hready hrun

lemma getNextProcessId_spec {id : ℕ} (hthis : (this, 24) ∈ blocks) (hg : getNextProcessId s this = some (id, s')) :
    Scheduler.nextProcessId s this = some id ∧ KernelRun img m s' blocks ∧ s'.freeList = s.freeList ∧
      ReflTransGen (HeapStep img) (s, blocks) (s', blocks) ∧
      Scheduler.nextProcessId s' this = some ((id + 1) % 2 ^ 64) ∧
      ∀ x, InHeap x → x < this + 8 ∨ this + 8 + 8 ≤ x → view s' x = view s x := by
  obtain ⟨id', hid, hg⟩ := Option.bind_eq_some_iff.mp hg
  obtain ⟨t, hstore, hg⟩ := Option.bind_eq_some_iff.mp hg
  obtain ⟨rfl, rfl⟩ := Prod.mk.inj (Option.some.inj hg)
  obtain ⟨hrun', hfl, hnext, hview⟩ := hrun.storeField hready hthis (by omega) (by omega)
    (Nat.mod_lt _ (by norm_num)) hstore
  exact ⟨hid, hrun', hfl, storeBytes_steps hthis (by omega) (by omega) hstore, hnext, hview⟩

omit hready hrun in
lemma constructor_steps {bs : List Block} {p id entry stack heap fuel : ℕ} {t₁ t₂ t₃ t₄ t₅ : State Frames}
    (hk : operatorNew (kallocFrame (reserved img)) fuel s 48 = some (p, t₁)) (h₁ : storeBytes t₁ 8 p id = some t₂)
    (h₂ : storeBytes t₂ 8 (p + 32) heap = some t₃) (h₃ : storeBytes t₃ 8 (p + 24) stack = some t₄)
    (h₄ : storeBytes t₄ 8 (p + 40) entry = some t₅) (h₅ : storeBytes t₅ 4 (p + 8) 0 = some s') :
    ReflTransGen (HeapStep img) (s, bs) (s', (p, 48) :: bs) := by
  have hmem : (p, 48) ∈ (p, 48) :: bs := List.mem_cons_self
  refine (ReflTransGen.single (.kalloc (by norm_num) hk)).trans ?_
  refine (storeBytes_steps hmem (by omega) (by omega) h₁).trans ?_
  refine (storeBytes_steps hmem (by omega) (by omega) h₂).trans ?_
  refine (storeBytes_steps hmem (by omega) (by omega) h₃).trans ?_
  refine (storeBytes_steps hmem (by omega) (by omega) h₄).trans ?_
  exact storeBytes_steps hmem (by omega) (by omega) h₅

lemma constructor_spec {p id entry stack heap fuel : ℕ} {t₁ t₂ t₃ t₄ t₅ : State Frames} (hid : id < 2 ^ 64)
    (hk : operatorNew (kallocFrame (reserved img)) fuel s 48 = some (p, t₁)) (h₁ : storeBytes t₁ 8 p id = some t₂)
    (h₂ : storeBytes t₂ 8 (p + 32) heap = some t₃) (h₃ : storeBytes t₃ 8 (p + 24) stack = some t₄)
    (h₄ : storeBytes t₄ 8 (p + 40) entry = some t₅) (h₅ : storeBytes t₅ 4 (p + 8) 0 = some s') :
    p = s.freeList + 16 ∧ KernelRun img m s' ((p, 48) :: blocks) ∧ s'.freeList = p + 48 ∧
      (∀ x, heapStart ≤ x → x < s.freeList → view s' x = view s x) ∧ load (view s') 8 p = id ∧
      load (view s') 4 (p + 8) = 0 := by
  obtain ⟨hrun₀, hp, hfl₀, hkept₀, _⟩ := hrun.kalloc_spec hready (by norm_num) hk
  have hself : (p, 48) ∈ (p, 48) :: blocks := List.mem_cons_self
  obtain ⟨hrun₁, hfl₁, _, hview₁⟩ := hrun₀.storeBytes hready hself (n := 8) le_rfl (by omega) h₁
  obtain ⟨hrun₂, hfl₂, _, hview₂⟩ := hrun₁.storeBytes hready hself (n := 8) (by omega) (by omega) h₂
  obtain ⟨hrun₃, hfl₃, _, hview₃⟩ := hrun₂.storeBytes hready hself (n := 8) (by omega) (by omega) h₃
  obtain ⟨hrun₄, hfl₄, _, hview₄⟩ := hrun₃.storeBytes hready hself (n := 8) (by omega) (by omega) h₄
  obtain ⟨hrun₅, hfl₅, _, hview₅⟩ := hrun₄.storeBytes hready hself (n := 4) (by omega) (by omega) h₅
  have hin : ∀ x, p ≤ x → x < p + 48 → InHeap x := fun x hx hx' =>
    hrun₅.inHeap hready hself (Block.mem_range.mpr ⟨hx, hx'⟩)
  -- the later fields are behind the id
  have hfirst : ∀ x, InHeap x → x < p + 8 → view s' x = store (view t₁) 8 p id x := fun x hx hx' => by
    rw [hview₅ x hx, store_outside (by omega), hview₄ x hx, store_outside (by omega), hview₃ x hx,
      store_outside (by omega), hview₂ x hx, store_outside (by omega), hview₁ x hx]
  refine ⟨hp, hrun₅, by omega, fun x hx hx' => ?_, ?_, ?_⟩
  · have hxin := (inHeap_of_freeList (hrun.heapInv hready).heap hx hx').1
    rw [hfirst x hxin (by omega), store_outside (by omega), hkept₀ x hx hx']
  · rw [load_congr fun x hx hx' => hfirst x (hin x hx (by omega)) hx', load_store_of_lt (by omega)]
  · rw [load_congr fun x hx hx' => hview₅ x (hin x (by omega) (by omega)), load_store_of_lt (by norm_num)]

lemma newProcess_spec {home id entry stack heap process fuel : ℕ} (htext : Steady img s home homeDirectory)
    (hid : id < 2 ^ 64)
    (hn : newProcess s (kallocFrame (reserved img)) fuel home id entry stack heap = some (process, s')) :
    process = s.freeList + 16 ∧
      KernelRun img m s' ((process + 88, 11) :: (process + 64, 8) :: (process, 48) :: blocks) ∧
      s'.freeList = process + 99 ∧ (∀ x, heapStart ≤ x → x < s.freeList → view s' x = view s x) ∧
      Process.getId s' process = some id ∧ Process.isReady s' process = some true := by
  obtain ⟨⟨p, t₁⟩, hk, hn⟩ := Option.bind_eq_some_iff.mp hn
  obtain ⟨t₂, h₂, hn⟩ := Option.bind_eq_some_iff.mp hn
  obtain ⟨t₃, h₃, hn⟩ := Option.bind_eq_some_iff.mp hn
  obtain ⟨t₄, h₄, hn⟩ := Option.bind_eq_some_iff.mp hn
  obtain ⟨t₅, h₅, hn⟩ := Option.bind_eq_some_iff.mp hn
  obtain ⟨t₆, h₆, hn⟩ := Option.bind_eq_some_iff.mp hn
  obtain ⟨⟨path, t₇⟩, hpath, hn⟩ := Option.bind_eq_some_iff.mp hn
  obtain ⟨t₈, h₈, hn⟩ := Option.bind_eq_some_iff.mp hn
  obtain ⟨rfl, rfl⟩ := Prod.mk.inj (Option.some.inj hn)
  obtain ⟨hp, hrun₆, hfl₆, hkept₆, hid₆, hstate₆⟩ := constructor_spec hready hrun hid hk h₂ h₃ h₄ h₅ h₆
  have hsteps : ReflTransGen (HeapStep img) (s, []) _ := constructor_steps hk h₂ h₃ h₄ h₅ h₆
  obtain ⟨buf, hrun₇, hthis, rfl, hfl₇, hkept₇, _⟩ :=
    newPath_spec hready hrun₆ (htext.of_steps hsteps) homeDirectory_nonzero hpath
  obtain rfl : path = p + 64 := by omega
  have hmem : (p, 48) ∈ (p + 64 + 24, homeDirectory.length) :: (p + 64, 8) :: (p, 48) :: blocks := by simp
  obtain ⟨hrun₈, hfl₈, _, hview₈⟩ := hrun₇.storeField hready hmem (by omega) (by omega)
    (hrun₇.lt hready (b := (p + 64, 8)) (by simp)) h₈
  have hfirst : ∀ x, p ≤ x → x < p + 16 → view t₈ x = view t₆ x := fun x hx hx' => by
    have hge := (hrun₈.heapInv hready).blocks.above _ hmem
    dsimp only at hge
    have hxin := hrun₈.inHeap hready hmem (Block.mem_range.mpr ⟨hx, by omega⟩)
    rw [hview₈ x hxin (by omega), hkept₇ x (by omega) (by omega)]
  refine ⟨hp, hrun₈, by rw [hfl₈, hfl₇, homeDirectory_length], fun x hx hx' => ?_, ?_, ?_⟩
  · have hxin := (inHeap_of_freeList (hrun.heapInv hready).heap hx hx').1
    rw [hview₈ x hxin (by omega), hkept₇ x hx (by omega), hkept₆ x hx hx']
  · rw [Process.getId, hrun₈.loadBytes hready hmem le_rfl (by omega),
      load_congr fun x hx hx' => hfirst x hx (by omega), hid₆]
  · rw [Process.isReady, hrun₈.loadBytes hready hmem (by omega) (by omega),
      load_congr fun x hx hx' => hfirst x (by omega) (by omega), hstate₆]
    rfl

end Submitting

end TetraOS.Processes
