import TetraOS.Library.MemoryProgram
import TetraOS.Libc.Blocks
import TetraOS.Processes.ProcessImage

/-! The heap of a program on the pages that the kernel has mapped for it. `malloc` (tlibc/malloc.c) asks for no page, so
a store that finds none is the end of the program. -/

namespace TetraOS.Libc

open Memory Processes Library.ByteMemory Library.MemoryProgram PhysicalAllocator

namespace Code

def mallocInit (heapStart : ℕ) : Program ℕ :=
  .store 8 heapStart pageSize <| .store 8 (heapStart + 16) 0 <| .store 8 (heapStart + 16) 0 <|
  .store 2 (heapStart + 8) 1 <| .store 2 (heapStart + 10) 1 <| .done heapStart

def findItem (size : ℕ) : (fuel current : ℕ) → Program ℕ
  | 0, _ => .fail
  | fuel + 1, current => .load 8 current fun itemSize =>
    if itemSize < size then
      .load 2 (current + 8) fun isLast =>
        if isLast = 0 then .load 8 (current + 16) fun nextItem => findItem size fuel nextItem else .done current
    else .done current

def cut (size newItem : ℕ) : Program (ℕ × ℕ) :=
  let newFreeItem := (newItem + allocationItemSize + size) % 2 ^ 64
  .load 2 (newItem + 8) fun _ =>
  .store 8 newItem magicString <| .store 8 (newItem + 8) size <|
  .load 8 newItem fun itemSize =>
  .store 8 newFreeItem ((itemSize + 2 ^ 64 - (size + allocationItemSize) % 2 ^ 64) % 2 ^ 64) <|
  .done ((newItem + allocationItemSize) % 2 ^ 64, newFreeItem)

/-- `malloc`, which returns its block and the new `first_item`. -/
def malloc (fuel firstItem size : ℕ) : Program (ℕ × ℕ) := (findItem size fuel firstItem).bind (cut size)

end Code

section Code

variable (m : Memory) (fuel size : ℕ)

lemma run_findItem (current : ℕ) : (Code.findItem size fuel current).run Program.flat m =
    (findItem m size fuel current).map fun item => (item, m) := by
  induction fuel generalizing current with
  | zero => rfl
  | succ fuel ih =>
    rw [Code.findItem, findItem, FreeItem.size, FreeItem.isLast, FreeItem.nextItem, Program.run, Program.flat,
      Option.bind_some]
    by_cases hsize : load m 8 current < size
    · rw [if_pos hsize, Program.run, Program.flat, Option.bind_some]
      by_cases hlast : load m 2 (current + 8) = 0
      · rw [if_pos hlast, if_pos ⟨hsize, hlast⟩]
        exact ih _
      · rw [if_neg hlast, if_neg fun h => hlast h.2]
        rfl
    · rw [if_neg hsize, if_neg fun h => hsize h.1]
      rfl

lemma run_malloc (firstItem : ℕ) : (Code.malloc fuel firstItem size).run Program.flat m =
    (malloc fuel ⟨m, firstItem⟩ size).map fun r => ((r.1, r.2.firstItem), r.2.mem) := by
  rw [Code.malloc, Program.run_bind, run_findItem, malloc]
  cases findItem m size fuel firstItem <;> rfl

end Code

section Pages

variable {α : Type} {S : FrameSource α} {s s' s₁ : State α} {m : Memory} {left n a : ℕ}

/-- A program has no access to the upper half, which is mapped without the bit for the user. -/
def userLoad (s : State α) (n a : ℕ) : Option ℕ := if a + n ≤ 2 ^ 47 then loadBytes s n a else none

def userStore (s : State α) (n a v : ℕ) : Option (State α) := if a + n ≤ 2 ^ 47 then storeBytes s n a v else none

def HasPages (s : State α) (a n : ℕ) : Prop := a + n ≤ 2 ^ 47 ∧ ∀ x, a ≤ x → x < a + n → (loadByte s x).isSome

lemma HasPages.sub (h : HasPages s a n) {b k : ℕ} (hlo : a ≤ b) (hhi : b + k ≤ a + n) : HasPages s b k :=
  ⟨hhi.trans h.1, fun x hx hx' => h.2 x (by omega) (by omega)⟩

structure Shown (S : FrameSource α) (s : State α) (left : ℕ) (s₁ : State α) (m : Memory) : Prop where
  kernel : Kernel S s₁
  left : S.left s₁.mem s₁.frames = left
  sees : ∀ x < 2 ^ 47, loadByte s₁ x = (loadByte s x).map fun _ => m x

lemma shown_start (h : Kernel S s) : Shown S s (S.left s.mem s.frames) s (view s) := by
  refine ⟨h, rfl, fun x hx => ?_⟩
  by_cases hm : Mapped s x
  · rw [loadByte_eq h.tree (usable_of_lower hx) hm]
    rfl
  · rw [loadByte_eq_none h.tree (usable_of_lower hx) hm]
    rfl

section Accesses

variable (h : Shown S s left s₁ m)
include h

lemma Shown.loadBytes (hpages : HasPages s a n) : Memory.loadBytes s₁ n a = some (load m n a) := by
  induction n generalizing a with
  | zero => rfl
  | succ n ih =>
    obtain ⟨hlow, hpage⟩ := hpages
    obtain ⟨b, hb⟩ := Option.isSome_iff_exists.mp (hpage a le_rfl (by omega))
    rw [Memory.loadBytes, h.sees a (by omega), hb, ih ⟨by omega, fun x hx hx' => hpage x (by omega) (by omega)⟩]
    rfl

lemma Shown.loadBytes_none (hlow : a + n ≤ 2 ^ 47) (hpages : ¬ HasPages s a n) : Memory.loadBytes s₁ n a = none := by
  induction n generalizing a with
  | zero => exact absurd ⟨hlow, fun x _ _ => by omega⟩ hpages
  | succ n ih =>
    rw [Memory.loadBytes, h.sees a (by omega)]
    cases hfirst : loadByte s a with
    | none => rfl
    | some b =>
      rw [ih (by omega) fun hrest => hpages ⟨hlow, fun x hx hx' => ?_⟩]
      · rfl
      · rcases hx.eq_or_lt with rfl | hlt
        · rw [hfirst]
          rfl
        · exact hrest.2 x hlt (by omega)

lemma Shown.storeByte {x : ℕ} (hx : x < 2 ^ 47) (hpage : (loadByte s x).isSome) (b : UInt8) :
    ∃ s₂, Memory.storeByte s₁ x b = some s₂ ∧ Shown S s left s₂ (Function.update m x b) := by
  have hpage₁ : (loadByte s₁ x).isSome := by rwa [h.sees x hx, Option.isSome_map]
  obtain ⟨s₂, hs₂, h₂, hleft₂, hloads⟩ := h.kernel.write_lower hx hpage₁ b
  refine ⟨s₂, hs₂, h₂, hleft₂.trans h.left, fun y hy => ?_⟩
  rw [hloads y hy, h.sees y hy, Option.map_map]
  simp only [Function.comp_def, Function.update_apply]

lemma Shown.storeBytes (hpages : HasPages s a n) (v : ℕ) :
    ∃ s₂, Memory.storeBytes s₁ n a v = some s₂ ∧ Shown S s left s₂ (store m n a v) := by
  induction n generalizing a v s₁ m with
  | zero =>
    have hsame : store m 0 a v = m := funext fun x => store_outside (by omega)
    exact ⟨s₁, rfl, by rwa [hsame]⟩
  | succ n ih =>
    obtain ⟨hlow, hpage⟩ := hpages
    obtain ⟨s₂, hs₂, h₂⟩ := h.storeByte (by omega) (hpage a le_rfl (by omega)) (UInt8.ofNat v)
    have hrest : HasPages s (a + 1) n := ⟨by omega, fun x hx hx' => hpage x (by omega) (by omega)⟩
    obtain ⟨s₃, hs₃, h₃⟩ := ih h₂ hrest (v / 256)
    refine ⟨s₃, ?_, by rwa [store_succ]⟩
    rw [Memory.storeBytes, hs₂]
    exact hs₃

lemma Shown.storeBytes_none (hlow : a + n ≤ 2 ^ 47) (hpages : ¬ HasPages s a n) (v : ℕ) :
    Memory.storeBytes s₁ n a v = none := by
  induction n generalizing a v s₁ m with
  | zero => exact absurd ⟨hlow, fun x _ _ => by omega⟩ hpages
  | succ n ih =>
    rw [Memory.storeBytes]
    cases hfirst : loadByte s a with
    | none =>
      have hnone := h.sees a (by omega)
      rw [hfirst, Option.map_none, loadByte, Option.map_eq_none_iff] at hnone
      rw [Memory.storeByte, hnone]
      rfl
    | some b =>
      obtain ⟨s₂, hs₂, h₂⟩ := h.storeByte (x := a) (by omega) (by rw [hfirst]; rfl) (UInt8.ofNat v)
      rw [hs₂]
      refine ih h₂ (by omega) (fun hrest => hpages ⟨hlow, fun x hx hx' => ?_⟩) _
      rcases hx.eq_or_lt with rfl | hlt
      · rw [hfirst]
        rfl
      · exact hrest.2 x hlt (by omega)

end Accesses

lemma pages_implement (S : FrameSource α) (s : State α) (left : ℕ) : Program.Implements userLoad userStore
    (fun e => HasPages s e.address e.length) (Shown S s left) where
  load h hok := by rw [userLoad, if_pos hok.1, h.loadBytes hok]
  store v h hok := by
    obtain ⟨s₂, hs₂, h₂⟩ := h.storeBytes hok v
    exact ⟨s₂, by rw [userStore, if_pos hok.1, hs₂], h₂⟩
  loadFault {_ _ a n} h hok := by
    by_cases hlow : a + n ≤ 2 ^ 47
    · rw [userLoad, if_pos hlow, h.loadBytes_none hlow hok]
    · rw [userLoad, if_neg hlow]
  storeFault {_ _ a n} v h hok := by
    by_cases hlow : a + n ≤ 2 ^ 47
    · rw [userStore, if_pos hlow, h.storeBytes_none hlow hok]
    · rw [userStore, if_neg hlow]

end Pages

/-- What a program does with its heap: `malloc_init`, calls of `malloc`, writes to its blocks, and system calls that
leave its memory as it is. -/
inductive HeapRun {α : Type} (S : FrameSource α) (s₀ : State α) (heapStart : ℕ) : State α → ℕ → List Block → Prop
  | init {s firstItem} : (Code.mallocInit heapStart).runOn userLoad userStore s₀ = some (firstItem, s) →
      HeapRun S s₀ heapStart s firstItem []
  | malloc {s s' firstItem firstItem' blocks fuel size p} : HeapRun S s₀ heapStart s firstItem blocks →
      size < 2 ^ 64 → (Code.malloc fuel firstItem size).runOn userLoad userStore s = some ((p, firstItem'), s') →
      HeapRun S s₀ heapStart s' firstItem' ((p, size) :: blocks)
  | write {s s' firstItem blocks b x v} : HeapRun S s₀ heapStart s firstItem blocks → b ∈ blocks → b.1 ≤ x →
      x < b.1 + b.2 → x < 2 ^ 47 → storeByte s x v = some s' → HeapRun S s₀ heapStart s' firstItem blocks
  | systemCall {s s' firstItem blocks} : HeapRun S s₀ heapStart s firstItem blocks → Kernel S s' →
      (∀ x < 2 ^ 47, loadByte s' x = loadByte s x) → HeapRun S s₀ heapStart s' firstItem blocks

section Runs

variable {α : Type} {S : FrameSource α} {s₀ s s' : State α} {heapStart firstItem : ℕ} {blocks : List Block}
    (hs₀ : Kernel S s₀)
include hs₀

lemma heapRun_start (hpages : HasPages s₀ heapStart 24) : ∃ s, HeapRun S s₀ heapStart s heapStart [] := by
  have hstays : (Code.mallocInit heapStart).Stays Program.flat (fun e => HasPages s₀ e.address e.length) (view s₀)
      fun firstItem _ => firstItem = heapStart := by
    simp only [Code.mallocInit, Program.Stays, Program.flat, Option.some.injEq, exists_eq_left', exists_eq', and_true]
    exact ⟨hpages.sub le_rfl (by omega), hpages.sub (by omega) (by omega), hpages.sub (by omega) (by omega),
      hpages.sub (by omega) (by omega), hpages.sub (by omega) (by omega)⟩
  obtain ⟨_, s, _, hinit, _, rfl⟩ := (pages_implement S s₀ _).run (shown_start hs₀) hstays
  exact ⟨s, .init hinit⟩

lemma HeapRun.shown (h : HeapRun S s₀ heapStart s firstItem blocks) :
    ∃ left m, Shown S s₀ left s m ∧ Runs heapStart ⟨m, firstItem⟩ blocks := by
  induction h with
  | init hinit =>
    have hstays := (pages_implement S s₀ _).stays (shown_start hs₀) hinit
    obtain ⟨_, _, hflat, rfl, hshown⟩ := hstays.run
    obtain ⟨rfl, rfl⟩ := Prod.mk.inj (Option.some.inj hflat)
    exact ⟨_, _, hshown, .init (view s₀)⟩
  | malloc _ hsize hcall ih =>
    obtain ⟨left, m, hshown, hruns⟩ := ih
    obtain ⟨_, m', hflat, rfl, hshown'⟩ := ((pages_implement S s₀ _).stays hshown hcall).run
    rw [run_malloc, Option.map_eq_some_iff] at hflat
    obtain ⟨⟨q, h'⟩, hmalloc, heq⟩ := hflat
    obtain ⟨hq, rfl⟩ := Prod.mk.inj heq
    obtain ⟨rfl, rfl⟩ := Prod.mk.inj hq
    exact ⟨left, _, hshown', hruns.malloc hsize hmalloc⟩
  | @write s s' firstItem blocks b x v _ hb hlo hhi hlow hstore ih =>
    obtain ⟨left, m, hshown, hruns⟩ := ih
    have hpage : (loadByte s₀ x).isSome := by
      obtain ⟨p, hp, _⟩ := Option.map_eq_some_iff.mp hstore
      have hload : (loadByte s x).isSome := by
        rw [loadByte, hp]
        rfl
      rwa [hshown.sees x hlow, Option.isSome_map] at hload
    obtain ⟨s₂, hs₂, hshown₂⟩ := hshown.storeByte hlow hpage v
    obtain rfl := Option.some.inj (hs₂.symm.trans hstore)
    exact ⟨left, _, hshown₂, hruns.write hb hlo hhi⟩
  | systemCall _ hkernel hsame ih =>
    obtain ⟨_, m, hshown, hruns⟩ := ih
    exact ⟨_, m, ⟨hkernel, rfl, fun x hx => (hsame x hx).trans (hshown.sees x hx)⟩, hruns⟩

end Runs

section Returns

variable {α : Type} {S : FrameSource α} {s₀ s s' : State α} {heapStart firstItem size p : ℕ} {blocks : List Block}
    {m : Memory} {ok : Access → Prop}

lemma findItem_stays {item : ℕ} {Q : ℕ → Memory → Prop} (fuel : ℕ)
    (hstops : ¬ (load m 8 item < size ∧ load m 2 (item + 8) = 0)) :
    (Code.findItem size (fuel + 1) item).Stays Program.flat ok m Q ↔
      ok ⟨item, 8⟩ ∧ (load m 8 item < size → ok ⟨item + 8, 2⟩) ∧ Q item m := by
  rw [Code.findItem]
  simp only [Program.Stays, Program.flat, Option.some.injEq, exists_eq_left']
  by_cases hsize : load m 8 item < size
  · have hlast : ¬ load m 2 (item + 8) = 0 := fun hzero => hstops ⟨hsize, hzero⟩
    rw [if_pos hsize]
    simp only [Program.Stays, Program.flat, Option.some.injEq, exists_eq_left', if_neg hlast, hsize, forall_const]
  · rw [if_neg hsize]
    simp only [Program.Stays, hsize, false_imp_iff, true_and]

lemma malloc_stays {item : ℕ} (fuel : ℕ) (hstops : ¬ (load m 8 item < size ∧ load m 2 (item + 8) = 0)) :
    ((Code.malloc (fuel + 1) item size).Stays Program.flat (fun e => HasPages s e.address e.length) m
      fun _ _ => True) ↔ HasPages s item 16 ∧ HasPages s ((item + allocationItemSize + size) % 2 ^ 64) 8 := by
  rw [Code.malloc, Program.stays_bind, findItem_stays fuel hstops, Code.cut]
  simp only [Program.Stays, Program.flat, Option.some.injEq, exists_eq_left', exists_eq', and_true]
  constructor
  · rintro ⟨hfirst, _, _, _, hsecond, _, hnext⟩
    refine ⟨⟨by have := hsecond.1; omega, fun x hx hx' => ?_⟩, hnext⟩
    by_cases hlt : x < item + 8
    · exact hfirst.2 x hx hlt
    · exact hsecond.2 x (by omega) (by omega)
  · rintro ⟨hitem, hnext⟩
    exact ⟨hitem.sub le_rfl (by omega), fun _ => hitem.sub (by omega) (by omega), hitem.sub (by omega) (by omega),
      hitem.sub le_rfl (by omega), hitem.sub (by omega) (by omega), hitem.sub le_rfl (by omega), hnext⟩

lemma Filled.stops_at {h : Heap} (hf : Filled heapStart h blocks)
    (hsize : taken blocks + (size + allocationItemSize) < 2 ^ 31) :
    ¬ (load h.mem 8 h.firstItem < size ∧ load h.mem 2 (h.firstItem + 8) = 0) := by
  rintro ⟨hlt, hlast⟩
  rcases hf.stops with hs | hs
  · exact hs hlast
  · rw [FreeItem.size] at hs
    omega

structure Allocated (S : FrameSource α) (heapStart : ℕ) (s s' : State α) (blocks : List Block) (b : Block) : Prop where
  address : b.1 = heapStart + allocationItemSize + taken blocks
  kernel : Kernel S s'
  left : S.left s'.mem s'.frames = S.left s.mem s.frames
  kept : ∀ x < 2 ^ 47, (x < heapStart + taken blocks ∨ heapStart + taken blocks + 16 ≤ x) →
    (x < heapStart + taken (b :: blocks) ∨ heapStart + taken (b :: blocks) + 8 ≤ x) → loadByte s' x = loadByte s x

section Call

variable (hs₀ : Kernel S s₀) (h : HeapRun S s₀ heapStart s firstItem blocks)
    (hfits : Fits heapStart ((p, size) :: blocks))
include hs₀ h hfits

lemma HeapRun.returns_iff (fuel : ℕ) :
    (∃ r, (Code.malloc (fuel + 1) firstItem size).runOn userLoad userStore s = some r) ↔
      HasPages s₀ (heapStart + taken blocks) 16 ∧ HasPages s₀ (heapStart + taken ((p, size) :: blocks)) 8 := by
  obtain ⟨left, m, hshown, hruns⟩ := h.shown hs₀
  have hf := hruns.filled hfits.of_cons
  have hfirst : firstItem = heapStart + taken blocks := hf.first
  have hsum := hfits.sum
  have hroom := hfits.room
  rw [taken_cons] at hsum hroom ⊢
  have hnext : (firstItem + allocationItemSize + size) % 2 ^ 64 =
      heapStart + (size + allocationItemSize + taken blocks) := by
    simp only [allocationItemSize] at hroom ⊢
    rw [Nat.mod_eq_of_lt (by omega)]
    omega
  rw [(pages_implement S s₀ left).returns_iff hshown,
    malloc_stays fuel (hf.stops_at (by dsimp only at hsum ⊢; omega)), hnext, hfirst]

lemma HeapRun.allocated {fuel q next : ℕ}
    (hcall : (Code.malloc fuel firstItem size).runOn userLoad userStore s = some ((q, next), s')) :
    Allocated S heapStart s s' blocks (q, size) := by
  obtain ⟨left, m, hshown, hruns⟩ := h.shown hs₀
  have hf := hruns.filled hfits.of_cons
  obtain ⟨_, m', hflat, rfl, hshown'⟩ := ((pages_implement S s₀ left).stays hshown hcall).run
  rw [run_malloc, Option.map_eq_some_iff] at hflat
  obtain ⟨⟨q, h'⟩, hmalloc, heq⟩ := hflat
  obtain ⟨hq, rfl⟩ := Prod.mk.inj heq
  obtain ⟨rfl, rfl⟩ := Prod.mk.inj hq
  have hfits' : Fits heapStart ((q, size) :: blocks) := ⟨hfits.sum, hfits.room⟩
  have hf' := hf.malloc hfits' hmalloc
  obtain ⟨item, hitem, _, _, hmem⟩ := malloc_cases hmalloc
  have hsum := hfits.sum
  rw [taken_cons] at hsum
  have hstop : item = firstItem := by
    cases fuel with
    | zero => cases hitem
    | succ fuel =>
      rw [hf.findItem (by dsimp only at hsum ⊢; omega) fuel] at hitem
      exact (Option.some.inj hitem).symm
  have hfirst : firstItem = heapStart + taken blocks := hf.first
  refine ⟨hf'.consecutive.1, hshown'.kernel, hshown'.left.trans hshown.left.symm, fun x hx hitem' hnext => ?_⟩
  rw [hshown'.sees x hx, hshown.sees x hx, hmem, hf'.first, hstop, hfirst, store_outside hnext,
    store_outside (by omega), store_outside (by omega)]

end Call

end Returns

/-- Over every run, and whatever else is mapped: a call returns if and only if there are pages for the header of its
block and for the size of the item behind it. Then it has taken the next address, and all other bytes of the program
are as they were. -/
theorem malloc_returns_iff {α : Type} (S : FrameSource α) (s₀ : State α) (hs₀ : Kernel S s₀) (heapStart : ℕ)
    (s : State α) (firstItem : ℕ) (blocks : List Block) (h : HeapRun S s₀ heapStart s firstItem blocks) (size p : ℕ)
    (hfits : Fits heapStart ((p, size) :: blocks)) (fuel : ℕ) :
    ((∃ r, (Code.malloc (fuel + 1) firstItem size).runOn userLoad userStore s = some r) ↔
      HasPages s₀ (heapStart + taken blocks) 16 ∧ HasPages s₀ (heapStart + taken ((p, size) :: blocks)) 8) ∧
    ∀ q next s', (Code.malloc (fuel + 1) firstItem size).runOn userLoad userStore s = some ((q, next), s') →
      Allocated S heapStart s s' blocks (q, size) :=
  ⟨h.returns_iff hs₀ hfits fuel, fun _ _ _ hcall => h.allocated hs₀ hfits hcall⟩

section OnePage

variable {α : Type} {S : FrameSource α} {s₀ s : State α} {heapStart firstItem : ℕ} {blocks : List Block}

structure OnePage (s : State α) (heapStart : ℕ) : Prop where
  page : HasPages s heapStart pageSize
  noPage : ∀ x < 2 ^ 47, heapStart + pageSize ≤ x → x < heapStart + 2 * pageSize → loadByte s x = none

lemma OnePage.hasPages_iff (h : OnePage s₀ heapStart) {offset n : ℕ} (hn : 0 < n)
    (hoffset : offset + n ≤ 2 * pageSize) :
    HasPages s₀ (heapStart + offset) n ↔ offset + n ≤ pageSize := by
  refine ⟨fun hpages => ?_, fun hin => h.page.sub (by omega) (by omega)⟩
  by_contra hout
  have hlow := hpages.1
  have hlast := hpages.2 (heapStart + offset + n - 1) (by omega) (by omega)
  rw [h.noPage _ (by omega) (by omega) (by omega)] at hlast
  cases hlast

variable (hs₀ : Kernel S s₀) (hone : OnePage s₀ heapStart)
include hs₀ hone

lemma HeapRun.returns_iff_page (h : HeapRun S s₀ heapStart s firstItem blocks) (htaken : taken blocks + 8 ≤ pageSize)
    {size : ℕ} (hsize : size + allocationItemSize ≤ pageSize) (fuel : ℕ) :
    (∃ r, (Code.malloc (fuel + 1) firstItem size).runOn userLoad userStore s = some r) ↔
      taken blocks + size + 40 ≤ pageSize := by
  have hlow := hone.page.1
  have hcons := taken_cons (0, size) blocks
  simp only [pageSize, allocationItemSize] at hlow htaken hsize hcons
  have hfits : Fits heapStart ((0, size) :: blocks) := by
    refine ⟨by rw [hcons]; omega, ?_⟩
    rw [hcons, allocationItemSize]
    omega
  rw [h.returns_iff hs₀ hfits fuel, hone.hasPages_iff (by omega) (by simp only [pageSize]; omega),
    hone.hasPages_iff (by omega) (by simp only [pageSize]; omega), hcons]
  simp only [pageSize]
  omega

lemma HeapRun.taken_le (h : HeapRun S s₀ heapStart s firstItem blocks)
    (hsmall : ∀ b ∈ blocks, b.2 + allocationItemSize ≤ pageSize) : taken blocks + 8 ≤ pageSize := by
  induction h with
  | init => decide
  | @malloc s s' firstItem firstItem' blocks fuel size p hrun _ hcall ih =>
    obtain ⟨hsize, hsmall⟩ := List.forall_mem_cons.mp hsmall
    cases fuel with
    | zero => cases hcall
    | succ fuel =>
      have hpage := (hrun.returns_iff_page hs₀ hone (ih hsmall) hsize fuel).mp ⟨_, hcall⟩
      rw [taken_cons]
      simp only [pageSize, allocationItemSize] at hpage ⊢
      omega
  | write _ _ _ _ _ _ ih => exact ih hsmall
  | systemCall _ _ _ ih => exact ih hsmall

end OnePage

section Loaded

variable {α : Type} {S : FrameSource α} {s s' s₆ s₇ : State α} {file : ℕ → UInt8} {size fuel n : ℕ}
  {segs : List Segment}

lemma loadedAll_behind (hsegs : ∀ g ∈ segs, Lower size g) {e x : ℕ} (hx : 4096 * (dataEnd segs e / 4096 + 1) ≤ x)
    (m : Space) : loadedAll file segs m x = m x := by
  have hend : ∀ g ∈ segs, g.vaddr + g.memsz ≤ dataEnd segs e := le_dataEnd.2
  generalize dataEnd segs e = stop at hx hend
  induction segs generalizing m with
  | nil => rfl
  | cons g segs ih =>
    have hg := hend g List.mem_cons_self
    have hsize := (hsegs g List.mem_cons_self).filesz
    rw [loadedAll,
      ih (fun k hk => hsegs k (List.mem_cons_of_mem _ hk)) _ fun k hk => hend k (List.mem_cons_of_mem _ hk),
      Segment.loaded_outside (by omega), if_neg (by rw [Segment.page]; omega)]

lemma onePage_submitted (hx : LowerElf file size) (hsub : Submits S fuel file n s s₆ s₇ s')
    (hstack : heapPage (segments file) + 1 ≠ stackPage / 4096)
    (hfree : ∀ x < 2 ^ 47, x / 4096 = heapPage (segments file) + 1 → loadByte s x = none) :
    OnePage s' (4096 * heapPage (segments file)) := by
  have hheap := hx.heap
  have hsize : pageSize = 4096 := rfl
  have hpage : ∀ x < 2 ^ 47, x / 4096 = heapPage (segments file) → loadByte s' x = some 0 := fun x hlow hpage => by
    rw [hsub.lower x hlow, submitted, Space.mapZero, Space.mapZero, if_pos hpage, ite_self]
  constructor
  · refine ⟨by omega, fun x hlo hhi => ?_⟩
    rw [hpage x (by omega) (by omega)]
    rfl
  · intro x hlow hlo hhi
    have hbehind : x / 4096 = heapPage (segments file) + 1 := by omega
    rw [hsub.lower x hlow, submitted, Space.mapZero, if_neg (by omega), Space.mapZero, if_neg (by omega),
      loadedAll_behind (e := 0) hx.each (by rw [← heapPage]; omega), hfree x hlow hbehind]

end Loaded

/-- From the loader on, and however the program fills its blocks and calls the system: what the library answers comes,
with 32 bytes for each header, to at most 4088 bytes. The first request beyond that is a page fault. -/
theorem heap_is_one_page (img : Image) (m : Memory) (hready : Ready img m) (s : State Frames)
    (taken₀ : List Memory.Block) (hrun : KernelRun img m s taken₀) (fs : FileSystem Frames) (file : ℕ → UInt8)
    (size cost : ℕ) (hreads : Reads (source img hready.room) fs file size cost) (hx : LowerElf file size)
    (scheduler : Scheduler) (fuel : ℕ) (hfuel : size / 4096 + 2 < fuel)
    (hframes : framesNeeded file size cost ≤ framesLeft img s.mem)
    (hstack : heapPage (segments file) + 1 ≠ stackPage / 4096)
    (hfree : ∀ x < 2 ^ 47, x / 4096 = heapPage (segments file) + 1 → loadByte s x = none)
    (scheduler' : Scheduler) (s₀ : State Frames)
    (hsubmit : submitNewProcess (kallocFrame (reserved img)) fs fuel scheduler s = some (scheduler', s₀))
    (s' : State Frames) (firstItem : ℕ) (blocks : List Block)
    (h : HeapRun (source img hready.room) s₀ (4096 * heapPage (segments file)) s' firstItem blocks)
    (hsmall : ∀ b ∈ blocks, b.2 + allocationItemSize ≤ pageSize) (request : ℕ)
    (hrequest : request + allocationItemSize ≤ pageSize) (rounds : ℕ) :
    taken blocks + 8 ≤ pageSize ∧
    ((∃ r, (Code.malloc (rounds + 1) firstItem request).runOn userLoad userStore s' = some r) ↔
      taken blocks + request + 40 ≤ pageSize) := by
  have hkernel := (KernelInv.run hready hrun).kernel
  obtain ⟨hreturn, hfault⟩ := submit_parts hkernel hreads hx hfuel hframes scheduler
  have hloadable : LoadableAll file (segments file) (loadByte s) := by
    by_contra hnot
    cases hsubmit.symm.trans (hfault hnot)
  obtain ⟨_, s₆, s₇, s₁, hsubmit', hsub⟩ := hreturn hloadable
  obtain ⟨_, rfl⟩ := Prod.mk.inj (Option.some.inj (hsubmit'.symm.trans hsubmit))
  have hone := onePage_submitted hx hsub hstack hfree
  have htaken := h.taken_le hsub.kernel hone hsmall
  exact ⟨htaken, h.returns_iff_page hsub.kernel hone htaken hrequest rounds⟩

section Examples

lemma program_loaded : ∃ s scheduler' s₀, KernelRun megabyteImage (fun _ => 0) s [] ∧
    framesNeeded (program 4096) 128 0 ≤ framesLeft megabyteImage s.mem ∧ (∀ x < 2 ^ 47, loadByte s x = none) ∧
    submitNewProcess (kallocFrame (reserved megabyteImage)) (oneFile (program 4096) 128) 3 ⟨0, []⟩ s =
      some (scheduler', s₀) ∧
    Kernel (source megabyteImage megabyteImage_ready.room) s₀ ∧ OnePage s₀ 0x12000 := by
  obtain ⟨s, hrun, hleft, hbooted⟩ := boot_kernel
  have hsegs : segments (program 4096) = [programSegment 4096] := by rfl
  have hx : Executable (program 4096) 128 := program_executable hsegs (by decide) (by decide) (by decide)
  have hframes : framesNeeded (program 4096) 128 0 ≤ framesLeft megabyteImage s.mem := by
    rw [hleft]
    exact program_frames hsegs (by decide)
  have hempty : ∀ x < 2 ^ 47, loadByte s x = none := fun x hx => loadByte_booted hbooted hx
  have hloadable : LoadableAll (program 4096) (segments (program 4096)) (loadByte s) := by
    rw [hsegs]
    refine ⟨Segment.loadable_iff.mpr fun j hj => Or.inl ?_, trivial⟩
    simp only [programSegment, Segment.page] at hj ⊢
    omega
  obtain ⟨scheduler', _, _, s₀, hsubmit, hsub⟩ := (submit_parts hbooted.heap (oneFile_reads _ _ (by decide))
    hx.lowerElf (by decide : 128 / 4096 + 2 < 3) (by rw [source_left]; exact hframes) ⟨0, []⟩).1 hloadable
  have hheap : heapPage (segments (program 4096)) = 0x12 := by
    rw [hsegs]
    decide
  have hone := onePage_submitted hx.lowerElf hsub (by rw [hheap]; decide) fun x hlow _ => hempty x hlow
  rw [hheap] at hone
  exact ⟨s, scheduler', s₀, hrun, hframes, hempty, hsubmit, hsub.kernel, hone⟩

theorem malloc_returns_buffer : ∃ s₀ s : State Frames, ∃ r,
    HeapRun (source megabyteImage megabyteImage_ready.room) s₀ 0x12000 s 0x12000 [] ∧
    (Code.malloc 1 0x12000 200).runOn userLoad userStore s = some r ∧ r.1.1 = 0x12020 := by
  obtain ⟨_, _, s₀, _, _, _, _, hkernel, hone⟩ := program_loaded
  obtain ⟨s, hstart⟩ := heapRun_start hkernel (hone.page.sub le_rfl (by decide))
  obtain ⟨hiff, hdone⟩ := malloc_returns_iff _ s₀ hkernel 0x12000 s 0x12000 [] hstart 200 0 ⟨by decide, by decide⟩ 0
  obtain ⟨r, hr⟩ := hiff.mpr ⟨hone.page.sub (by decide) (by decide), hone.page.sub (by decide) (by decide)⟩
  exact ⟨s₀, s, r, hstart, hr, (hdone _ _ _ hr).address⟩

theorem heap_is_one_page_first : ∃ s₀ s : State Frames,
    HeapRun (source megabyteImage megabyteImage_ready.room) s₀ 0x12000 s 0x12000 [] ∧
    (∃ r, (Code.malloc 1 0x12000 4056).runOn userLoad userStore s = some r) ∧
    ¬ ∃ r, (Code.malloc 1 0x12000 4057).runOn userLoad userStore s = some r := by
  obtain ⟨s, scheduler', s₀, hrun, hframes, hempty, hsubmit, hkernel, hone⟩ := program_loaded
  obtain ⟨s₁, hstart⟩ := heapRun_start hkernel (hone.page.sub le_rfl (by decide))
  have hsegs : segments (program 4096) = [programSegment 4096] := by rfl
  have hx : Executable (program 4096) 128 := program_executable hsegs (by decide) (by decide) (by decide)
  have hheap : heapPage (segments (program 4096)) = 0x12 := by
    rw [hsegs]
    decide
  have hpage : ∀ request ≤ 4064, (∃ r, (Code.malloc 1 0x12000 request).runOn userLoad userStore s₁ = some r) ↔
      request + 40 ≤ 4096 := fun request hrequest => by
    obtain ⟨_, hiff⟩ := heap_is_one_page megabyteImage _ megabyteImage_ready s [] hrun _ (program 4096) 128 0
      (oneFile_reads _ _ (by decide)) hx.lowerElf ⟨0, []⟩ 3 (by decide) hframes (by rw [hheap]; decide)
      (fun x hlow _ => hempty x hlow) scheduler' s₀ hsubmit s₁ 0x12000 [] (by rw [hheap]; exact hstart) (by simp)
      request (by simp only [allocationItemSize, pageSize]; omega) 0
    rw [hiff, taken, List.map_nil, List.sum_nil, Nat.zero_add]
  refine ⟨s₀, s₁, hstart, (hpage 4056 (by decide)).mpr (by decide), fun h => ?_⟩
  exact absurd ((hpage 4057 (by decide)).mp h) (by decide)

end Examples

end TetraOS.Libc
