import TetraOS.Processes.BlockLayout

/-! Objects in blocks of the kernel heap: what their owner stores there, and what the others leave as it is. -/

namespace TetraOS.Processes

open Memory Library.ByteMemory Library.BumpBlocks PhysicalAllocator Relation

/-- `operator new`, in its two forms. -/
def operatorNew {α : Type} (k : FrameAlloc α) (fuel : ℕ) (s : State α) (size : ℕ) : Option (ℕ × State α) :=
  kalloc k fuel s size

/-- What goes on in the kernel besides the owner of the blocks `own`, and in its programs. -/
inductive OthersStep (img : Image) (own : List Block) : State Frames × List Block → State Frames × List Block → Prop
  | kalloc {s s' blocks fuel size p} : size + 32 < 2 ^ 64 →
      kalloc (kallocFrame (reserved img)) fuel s size = some (p, s') →
      OthersStep img own (s, blocks) (s', (p, size) :: blocks)
  | kallocFrame {s s' blocks f} : s.kallocFrame (kallocFrame (reserved img)) = some (f, s') →
      OthersStep img own (s, blocks) (s', blocks)
  | mapFrame {s s' blocks v} : v < 2 ^ 47 → mapFrame (kallocFrame (reserved img)) v s = some s' →
      OthersStep img own (s, blocks) (s', blocks)
  | write {s s' blocks va x} : (∃ b ∈ blocks, b ∉ own ∧ va ∈ Block.range b) ∨ va < 2 ^ 47 →
      storeByte s va x = some s' → OthersStep img own (s, blocks) (s', blocks)

section Owner

variable {img : Image} {m : Memory} {s s' : State Frames} {blocks : List Block} (hready : Ready img m)
    (hrun : KernelRun img m s blocks)
include hready hrun

lemma KernelRun.write {b : Block} (hb : b ∈ blocks) {a : ℕ} {v : UInt8} (ha : a ∈ b.range)
    (hs : storeByte s a v = some s') :
    KernelRun img m s' blocks ∧ s'.freeList = s.freeList ∧ framesLeft img s'.mem = framesLeft img s.mem ∧
      ∀ x, InHeap x → view s' x = if x = a then v else view s x := by
  have h := hrun.heapInv hready
  obtain ⟨h₁, h₂, h₃⟩ := h.mem_range hb ha
  obtain ⟨_, hsame, hview⟩ := h.heap.storeByte (h.heap.inHeap h₁ h₃).outside trivial (Or.inl h₂) hs
  have hleft := hsame.left h.heap.tree.good
  rw [source_left, source_left] at hleft
  obtain ⟨s₀, hboot, hrun⟩ := hrun
  exact ⟨⟨s₀, hboot, hrun.tail (.write (Or.inl ⟨b, hb, ha⟩) hs)⟩, hsame.freeList, hleft,
    fun x hx => hview x hx.outside hx.canonical trivial⟩

lemma KernelRun.usable_mapped {o size : ℕ} (hb : (o, size) ∈ blocks) {n a : ℕ} (hlo : o ≤ a)
    (hhi : a + n ≤ o + size) :
    (∀ x, a ≤ x → x < a + n → Usable Everywhere Everywhere x) ∧ ∀ x, a ≤ x → x < a + n → Mapped s x := by
  have h := hrun.heapInv hready
  have hin : ∀ x, a ≤ x → x < a + n → heapStart ≤ x ∧ x < s.freeList ∧ x < s.virtualAllocEnd := fun x hx hx' =>
    h.mem_range hb (Block.mem_range.mpr ⟨by omega, by omega⟩)
  exact ⟨fun x hx hx' => h.heap.usable (h.heap.inHeap (hin x hx hx').1 (hin x hx hx').2.2),
    fun x hx hx' => h.heap.mapped x (hin x hx hx').1 (hin x hx hx').2.2⟩

lemma KernelRun.loadBytes {o size : ℕ} (hb : (o, size) ∈ blocks) {n a : ℕ} (hlo : o ≤ a) (hhi : a + n ≤ o + size) :
    loadBytes s n a = some (load (view s) n a) := by
  obtain ⟨hu, hm⟩ := hrun.usable_mapped hready hb hlo hhi
  exact loadBytes_eq (hrun.heapInv hready).heap.tree hu hm

lemma KernelRun.loadBytes_congr {s₁ : State Frames} {blocks₁ : List Block} (hrun₁ : KernelRun img m s₁ blocks₁)
    {o size : ℕ} (hb : (o, size) ∈ blocks) (hb₁ : (o, size) ∈ blocks₁) {n a : ℕ} (hlo : o ≤ a) (hhi : a + n ≤ o + size)
    (hview : ∀ x, a ≤ x → x < a + n → view s₁ x = view s x) : Memory.loadBytes s₁ n a = Memory.loadBytes s n a := by
  rw [hrun.loadBytes hready hb hlo hhi, hrun₁.loadBytes hready hb₁ hlo hhi, load_congr hview]

lemma KernelRun.storeBytes_isSome {o size : ℕ} (hb : (o, size) ∈ blocks) {n a : ℕ} (v : ℕ) (hlo : o ≤ a)
    (hhi : a + n ≤ o + size) : ∃ s', storeBytes s n a v = some s' := by
  obtain ⟨hu, hm⟩ := hrun.usable_mapped hready hb hlo hhi
  obtain ⟨s', hs', _⟩ := storeBytes_eq (hrun.heapInv hready).heap.tree (v := v) hu hm
  exact ⟨s', hs'⟩

lemma KernelRun.storeBytes {o size : ℕ} (hb : (o, size) ∈ blocks) {n a v : ℕ} (hlo : o ≤ a) (hhi : a + n ≤ o + size)
    (hs : storeBytes s n a v = some s') :
    KernelRun img m s' blocks ∧ s'.freeList = s.freeList ∧ framesLeft img s'.mem = framesLeft img s.mem ∧
      ∀ x, InHeap x → view s' x = store (view s) n a v x := by
  induction n generalizing s a v with
  | zero =>
    obtain rfl := Option.some.inj hs
    exact ⟨hrun, rfl, rfl, fun x _ => (store_outside (by omega)).symm⟩
  | succ n ih =>
    obtain ⟨s₁, h₁, hs⟩ := Option.bind_eq_some_iff.mp hs
    obtain ⟨hrun₁, hfl₁, hleft₁, hview₁⟩ := hrun.write hready hb (Block.mem_range.mpr ⟨hlo, by omega⟩) h₁
    obtain ⟨hrun', hfl, hleft, hview⟩ := ih hrun₁ (by omega) (by omega) hs
    refine ⟨hrun', hfl.trans hfl₁, hleft.trans hleft₁, fun x hx => ?_⟩
    rw [hview x hx, store, store, hview₁ x hx]
    by_cases hxa : x = a
    · rw [if_neg (by omega), if_pos hxa, if_pos (by omega), hxa, Nat.sub_self, pow_zero, Nat.div_one]
    · rw [if_neg hxa]
      by_cases hin : a + 1 ≤ x ∧ x < a + 1 + n
      · rw [if_pos hin, if_pos (by omega), show x - a = x - (a + 1) + 1 by omega, pow_succ', Nat.div_div_eq_div_mul]
      · rw [if_neg hin, if_neg (by omega)]

lemma KernelRun.inHeap {b : Block} (hb : b ∈ blocks) {x : ℕ} (hx : x ∈ b.range) : InHeap x := by
  have h := hrun.heapInv hready
  obtain ⟨h₁, _, h₃⟩ := h.mem_range hb hx
  exact h.heap.inHeap h₁ h₃

lemma KernelRun.lt {b : Block} (hb : b ∈ blocks) : b.1 < 2 ^ 64 := by
  have h := hrun.heapInv hready
  have hbelow := h.blocks.below b hb
  have hspace := h.heap.space
  have hend := h.heap.end_le
  rw [heapLimit_eq] at hend
  omega

lemma KernelRun.storeField {o size : ℕ} (hb : (o, size) ∈ blocks) {a v : ℕ} (hlo : o ≤ a) (hhi : a + 8 ≤ o + size)
    (hv : v < 2 ^ 64) (hs : Memory.storeBytes s 8 a v = some s') :
    KernelRun img m s' blocks ∧ s'.freeList = s.freeList ∧ Memory.loadBytes s' 8 a = some v ∧
      ∀ x, InHeap x → x < a ∨ a + 8 ≤ x → view s' x = view s x := by
  obtain ⟨hrun', hfl, _, hview⟩ := hrun.storeBytes hready hb hlo hhi hs
  refine ⟨hrun', hfl, ?_, fun x hx hout => by rw [hview x hx, store_outside hout]⟩
  have hfield : ∀ x, a ≤ x → x < a + 8 → view s' x = store (view s) 8 a v x := fun x hx hx' =>
    hview x (hrun.inHeap hready hb (Block.mem_range.mpr ⟨by omega, by omega⟩))
  rw [hrun'.loadBytes hready hb hlo hhi, load_congr hfield, load_store_of_lt (by omega)]

lemma KernelRun.loadBytes_other (hrun' : KernelRun img m s' blocks) {o size n a b : ℕ} (hb : (o, size) ∈ blocks)
    (hlo : o ≤ b) (hhi : b + n ≤ o + size) (hview : ∀ x, InHeap x → x < a ∨ a + 8 ≤ x → view s' x = view s x)
    (hout : b + n ≤ a ∨ a + 8 ≤ b) : Memory.loadBytes s' n b = Memory.loadBytes s n b :=
  hrun.loadBytes_congr hready hrun' hb hb hlo hhi fun x hx hx' =>
    hview x (hrun.inHeap hready hb (Block.mem_range.mpr ⟨by omega, by omega⟩)) (by omega)

lemma KernelRun.memcpy {b : Block} (hb : b ∈ blocks) {src n : ℕ} (hn : n ≤ b.2)
    (hc : memcpy s b.1 src n = some s') :
    KernelRun img m s' blocks ∧ s'.freeList = s.freeList ∧ framesLeft img s'.mem = framesLeft img s.mem ∧
      (∀ x, InHeap x → x < b.1 ∨ b.1 + n ≤ x → view s' x = view s x) ∧
      ∀ bs, b ∈ bs → ReflTransGen (HeapStep img) (s, bs) (s', bs) ∧
        ∀ i < n, ∃ u, ReflTransGen (HeapStep img) (s, bs) (u, bs) ∧
          loadByte u (src + i) = some (view s' (b.1 + i)) := by
  induction n generalizing s' with
  | zero =>
    obtain rfl := Option.some.inj hc
    exact ⟨hrun, rfl, rfl, fun _ _ _ => rfl,
      fun _ _ => ⟨ReflTransGen.refl, fun i hi => absurd hi (Nat.not_lt_zero i)⟩⟩
  | succ n ih =>
    obtain ⟨s₁, h₁, hc⟩ := Option.bind_eq_some_iff.mp hc
    obtain ⟨v, hv, hc⟩ := Option.bind_eq_some_iff.mp hc
    obtain ⟨hrun₁, hfl₁, hleft₁, hview₁, hsteps₁⟩ := ih (by omega) h₁
    have hlast : b.1 + n ∈ b.range := ⟨Nat.le_add_right _ _, by omega⟩
    obtain ⟨hrun', hfl, hleft, hview⟩ := hrun₁.write hready hb hlast hc
    have hinv := hrun₁.heapInv hready
    refine ⟨hrun', hfl.trans hfl₁, hleft.trans hleft₁, fun x hx hout => ?_, fun bs hbs => ?_⟩
    · rw [hview x hx, if_neg (by omega), hview₁ x hx (by omega)]
    · obtain ⟨hreach, hloads⟩ := hsteps₁ bs hbs
      refine ⟨hreach.tail (.write hbs hlast hc), fun i hi => ?_⟩
      have hin : InHeap (b.1 + i) := by
        obtain ⟨h₁, _, h₃⟩ := hinv.mem_range hb (⟨Nat.le_add_right _ _, by omega⟩ : b.1 + i ∈ b.range)
        exact hinv.heap.inHeap h₁ h₃
      rw [hview _ hin]
      rcases Nat.lt_succ_iff_lt_or_eq.mp hi with hi | rfl
      · rw [if_neg (by omega)]
        exact hloads i hi
      · rw [if_pos rfl]
        exact ⟨s₁, hreach, hv⟩

lemma KernelRun.kalloc_spec {fuel size p : ℕ} (hsize : size + 32 < 2 ^ 64)
    (hk : Memory.kalloc (kallocFrame (reserved img)) fuel s size = some (p, s')) :
    KernelRun img m s' ((p, size) :: blocks) ∧ p = s.freeList + 16 ∧ s'.freeList = p + size ∧
      (∀ x, heapStart ≤ x → x < s.freeList → view s' x = view s x) ∧ load (view s') 8 s.freeList = size := by
  have h := (KernelInv.run hready hrun).kernel
  obtain ⟨h', hp, hfl, hkeep⟩ := h.kalloc hsize hk
  refine ⟨hrun.kalloc hready hsize hk, hp, hfl, fun x hx hx' => ?_, h.kalloc_header hsize hk⟩
  obtain ⟨hin, _⟩ := inHeap_of_freeList h hx hx'
  have hspace := h.space
  exact hkeep.view x hin.outside hin.canonical trivial (h.not_newPage h'.end_le hx (by omega)) (by omega)

lemma KernelRun.storeBytes_run {o size : ℕ} (hb : (o, size) ∈ blocks) {n a : ℕ} (v : ℕ) (hlo : o ≤ a)
    (hhi : a + n ≤ o + size) : ∃ s', Memory.storeBytes s n a v = some s' ∧ KernelRun img m s' blocks ∧
      framesLeft img s'.mem = framesLeft img s.mem := by
  obtain ⟨s', hs⟩ := hrun.storeBytes_isSome hready hb (n := n) v hlo hhi
  obtain ⟨hrun', _, hleft, _⟩ := hrun.storeBytes hready hb hlo hhi hs
  exact ⟨s', hs, hrun', hleft⟩

lemma KernelRun.kalloc_run {fuel size : ℕ} (hsize : size < 2 ^ 62) (hfuel : size / 4096 + 2 < fuel)
    (hleft : 4 * (size / 4096 + 2) ≤ framesLeft img s.mem) :
    ∃ s', Memory.kalloc (kallocFrame (reserved img)) fuel s size = some (s.freeList + 16, s') ∧
      KernelRun img m s' ((s.freeList + 16, size) :: blocks) ∧
      framesLeft img s.mem ≤ framesLeft img s'.mem + 4 * (size / 4096 + 2) := by
  have h := (KernelInv.run hready hrun).kernel
  obtain ⟨s', hk, _, he⟩ := kalloc_effect h hsize hfuel (by rwa [source_left])
  have hleft' := he.left
  rw [source_left, source_left] at hleft'
  exact ⟨s', hk, hrun.kalloc hready (by omega) hk, hleft'⟩

end Owner

section Others

variable {img : Image} {m : Memory} {s s' : State Frames} {blocks blocks' own : List Block} (hready : Ready img m)
    (hrun : KernelRun img m s blocks)
include hready hrun

lemma OthersStep.kernelRun (hstep : OthersStep img own (s, blocks) (s', blocks')) : KernelRun img m s' blocks' := by
  cases hstep with
  | kalloc hsize hk => exact hrun.kalloc hready hsize hk
  | kallocFrame hk =>
    obtain ⟨s₀, hboot, hrun⟩ := hrun
    exact ⟨s₀, hboot, hrun.tail (.kallocFrame hk)⟩
  | mapFrame hv hm =>
    obtain ⟨s₀, hboot, hrun⟩ := hrun
    exact ⟨s₀, hboot, hrun.tail (.mapFrame hv hm)⟩
  | write hva hs =>
    obtain ⟨s₀, hboot, hrun⟩ := hrun
    refine ⟨s₀, hboot, hrun.tail (.write (hva.imp_left ?_) hs)⟩
    rintro ⟨b, hb, _, hin⟩
    exact ⟨b, hb, hin⟩

lemma OthersStep.view (hstep : OthersStep img own (s, blocks) (s', blocks')) {x : ℕ} (hlo : heapStart ≤ x)
    (hhi : x < s.freeList) (hout : ∀ b ∈ blocks, b ∉ own → x ∉ b.range) : view s' x = view s x := by
  have h := (KernelInv.run hready hrun).kernel
  obtain ⟨hin, _⟩ := inHeap_of_freeList h hlo hhi
  cases hstep with
  | kalloc hsize hk => exact (hrun.kalloc_spec hready hsize hk).2.2.2.1 x hlo hhi
  | kallocFrame hk =>
    obtain ⟨_, _, _, _, _, hleft⟩ := h.kallocFrame hk
    obtain ⟨_, _, hk', he⟩ := kallocFrame_effect h (by omega)
    obtain ⟨_, rfl⟩ := Prod.mk.inj (Option.some.inj (hk.symm.trans hk'))
    exact he.kept x hlo hhi
  | mapFrame hv hm =>
    obtain ⟨_, _, hnew⟩ := mapFrame_mapsNew h (outside_of_lower hv) (not_heapPath_of_lower hv) hm
    exact hnew.view_other x (h.usable hin).path_owned fun hp => not_heapPath_of_lower hv ⟨x, hin, hp.symm⟩
  | @write _ _ _ va _ hva hs =>
    have hlow := lower_le_heapStart
    have hwhere : x ≠ va ∧ Outside va := by
      rcases hva with ⟨b, hb, hown, hrange⟩ | hva
      · obtain ⟨h₁, h₂, h₃⟩ := (hrun.heapInv hready).mem_range hb hrange
        refine ⟨?_, (h.inHeap h₁ h₃).outside⟩
        rintro rfl
        exact hout b hb hown hrange
      · exact ⟨by omega, outside_of_lower hva⟩
    obtain ⟨p, ht, _⟩ := Option.map_eq_some_iff.mp hs
    obtain ⟨s₁, hs₁, _, _, hview⟩ := storeByte_owned h.tree (b := _) hwhere.2 trivial ht
    obtain rfl := Option.some.inj (hs.symm.trans hs₁)
    rw [hview x hin.outside hin.canonical trivial, if_neg hwhere.1]

lemma OthersStep.freeList (hstep : OthersStep img own (s, blocks) (s', blocks')) :
    (∃ p size, blocks' = (p, size) :: blocks ∧ p = s.freeList + 16 ∧ s'.freeList = p + size ∧
      load (Memory.view s') 8 s.freeList = size) ∨ (blocks' = blocks ∧ s'.freeList = s.freeList) := by
  have h := KernelInv.run hready hrun
  cases hstep with
  | @kalloc _ _ _ _ size p hsize hk =>
    obtain ⟨_, hp, hfl, _, hword⟩ := hrun.kalloc_spec hready hsize hk
    exact Or.inl ⟨p, size, rfl, hp, hfl, hword⟩
  | kallocFrame hk =>
    obtain ⟨_, _, hfl, _⟩ := h.kernel.kallocFrame hk
    exact Or.inr ⟨rfl, hfl⟩
  | mapFrame hv hm =>
    obtain ⟨_, _, hnew⟩ := mapFrame_mapsNew h.kernel (outside_of_lower hv) (not_heapPath_of_lower hv) hm
    exact Or.inr ⟨rfl, hnew.freeList⟩
  | write _ hw =>
    obtain ⟨p, _, rfl⟩ := Option.map_eq_some_iff.mp hw
    exact Or.inr ⟨rfl, rfl⟩

lemma OthersStep.grown (hstep : OthersStep img own (s, blocks) (s', blocks')) : s.freeList ≤ s'.freeList := by
  rcases hstep.freeList hready hrun with ⟨p, size, _, hp, hfl, _⟩ | ⟨_, hfl⟩ <;> omega

omit hready hrun in
lemma Layout.eq_of_mem (hl : Layout s blocks) {b c : Block} (hb : b ∈ blocks) (hc : c ∈ blocks) {x : ℕ}
    (hxb : x ∈ b.range) (hxc : x ∈ c.range) : b = c := by
  by_contra hne
  obtain ⟨h₁, h₂⟩ := hxb
  obtain ⟨h₃, h₄⟩ := hxc
  rcases hl.consecutive.apart_of_ne hb hc hne with hbc | hcb <;> omega

def HeaderBehind (s s₁ : State Frames) (later : List Block) : Prop :=
  later = [] ∧ s₁.freeList = s.freeList ∨
    ∃ b, later.getLast? = some b ∧ b.1 = s.freeList + 16 ∧ (Memory.view s₁ s.freeList).toNat = b.2 % 256

/-- What the others leave to the owner of the blocks `own`: these stay as they are, and so does the word behind the last
of all blocks once the others have put the header of their first block there. -/
structure LeftByOthers (img : Image) (m : Memory) (own : List Block) (s : State Frames) (blocks : List Block)
    (c : State Frames × List Block) : Prop where
  run : KernelRun img m c.1 c.2
  kept : ∀ o ∈ own, ∀ x ∈ o.range, Memory.view c.1 x = Memory.view s x
  grown : s.freeList ≤ c.1.freeList
  later : ∃ later, c.2 = later ++ blocks ∧ HeaderBehind s c.1 later

omit hrun in
lemma OthersStep.kept {s₁ s₂ : State Frames} {blocks₁ blocks₂ : List Block} (hrun₁ : KernelRun img m s₁ blocks₁)
    (hstep : OthersStep img own (s₁, blocks₁) (s₂, blocks₂)) {o : Block} (ho : o ∈ own) (hmem : o ∈ blocks₁) {x : ℕ}
    (hx : x ∈ o.range) : Memory.view s₂ x = Memory.view s₁ x := by
  obtain ⟨h₁, h₂, _⟩ := (hrun₁.heapInv hready).mem_range hmem hx
  refine hstep.view hready hrun₁ h₁ h₂ fun b hb hnot hxb => hnot ?_
  rwa [(Layout.run hready hrun₁).eq_of_mem hb hmem hxb hx]

omit hrun in
lemma OthersStep.header {s₁ s₂ : State Frames} {blocks₁ blocks₂ : List Block} (hrun₁ : KernelRun img m s₁ blocks₁)
    (hstep : OthersStep img own (s₁, blocks₁) (s₂, blocks₂)) {b : Block} (hb : b ∈ blocks₁) {x : ℕ}
    (hlo : heapStart ≤ x) (hx : b.1 = x + 16) : Memory.view s₂ x = Memory.view s₁ x := by
  have hinv := hrun₁.heapInv hready
  have hbelow := hinv.blocks.below b hb
  refine hstep.view hready hrun₁ hlo (by omega) fun c hc _ hin => ?_
  exact Set.disjoint_left.mp (hinv.separate.headers c hc b hb) hin ⟨by omega, by omega⟩

lemma HeaderBehind.step {s₁ s₂ : State Frames} {later blocks₂ : List Block}
    (hrun₁ : KernelRun img m s₁ (later ++ blocks)) (hstep : OthersStep img own (s₁, later ++ blocks) (s₂, blocks₂))
    (h : HeaderBehind s s₁ later) : ∃ later', blocks₂ = later' ++ blocks ∧ HeaderBehind s s₂ later' := by
  have hstart := (KernelInv.run hready hrun).kernel.start
  have hheader : ∀ b, later.getLast? = some b → b.1 = s.freeList + 16 →
      Memory.view s₂ s.freeList = Memory.view s₁ s.freeList := fun b hb hb₁ =>
    hstep.header hready hrun₁ (List.mem_append_left _ (List.mem_of_getLast? hb)) hstart hb₁
  rcases hstep.freeList hready hrun₁ with ⟨p, size, rfl, hp, hfl, hword⟩ | ⟨rfl, hfl⟩
  · refine ⟨(p, size) :: later, rfl, Or.inr ?_⟩
    rcases h with ⟨rfl, hsame⟩ | ⟨b, hb, hb₁, hbyte⟩
    · refine ⟨(p, size), rfl, by dsimp only; omega, ?_⟩
      rw [hsame, load] at hword
      have hlt : (Memory.view s₂ s.freeList).toNat < 256 := (Memory.view s₂ s.freeList).toNat_lt
      dsimp only
      omega
    · refine ⟨b, ?_, hb₁, by rw [hheader b hb hb₁, hbyte]⟩
      rw [List.getLast?_cons, hb]
      rfl
  · refine ⟨later, rfl, ?_⟩
    rcases h with ⟨hnil, hsame⟩ | ⟨b, hb, hb₁, hbyte⟩
    · exact Or.inl ⟨hnil, hfl.trans hsame⟩
    · exact Or.inr ⟨b, hb, hb₁, by rw [hheader b hb hb₁, hbyte]⟩

lemma LeftByOthers.step (hown : ∀ o ∈ own, o ∈ blocks) {c c' : State Frames × List Block}
    (h : LeftByOthers img m own s blocks c) (hstep : OthersStep img own c c') :
    LeftByOthers img m own s blocks c' := by
  obtain ⟨t, bs⟩ := c
  obtain ⟨t', bs'⟩ := c'
  obtain ⟨hrun₁, hkept, hle, later, rfl, hbehind⟩ := h
  refine ⟨hstep.kernelRun hready hrun₁, fun o ho x hx => ?_, hle.trans (hstep.grown hready hrun₁),
    hbehind.step hready hrun hrun₁ hstep⟩
  exact (hstep.kept hready hrun₁ ho (List.mem_append_right _ (hown o ho)) hx).trans (hkept o ho x hx)

lemma others_run {c : State Frames × List Block} (hown : ∀ o ∈ own, o ∈ blocks)
    (h : ReflTransGen (OthersStep img own) (s, blocks) c) : LeftByOthers img m own s blocks c := by
  induction h with
  | refl => exact ⟨hrun, fun _ _ _ _ => rfl, le_rfl, [], rfl, Or.inl ⟨rfl, rfl⟩⟩
  | tail _ hstep ih => exact ih.step hready hrun hown hstep

end Others

end TetraOS.Processes
