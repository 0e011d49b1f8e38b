import TetraOS.Processes.HeapObjects

/-! The working directory of a process (kernel/process/process.cpp). A `Path` keeps a copy of its text without the zero
at the end, and looks for a zero again when it is asked for the text. -/

namespace TetraOS.Processes

open Memory Library.ByteMemory PhysicalAllocator Relation

section Path

variable {α : Type}

/-- The loops that count the characters before the zero; they run on fuel. -/
def countCharacters (s : State α) (path : ℕ) : (fuel size : ℕ) → Option ℕ
  | 0, _ => none
  | fuel + 1, size => do
    let c ← loadByte s ((path + size) % 2 ^ 64)
    if c = 0 then some size else countCharacters s path fuel ((size + 1) % 2 ^ 64)

/-- `new Path(path)`. The one field of a `Path` is `path_string`. -/
def newPath (k : FrameAlloc α) (fuel : ℕ) (s : State α) (path : ℕ) : Option (ℕ × State α) := do
  let (this, s) ← operatorNew k fuel s 8
  let size ← countCharacters s path fuel 0
  let (pathBuffer, s) ← kalloc k fuel s size
  let s ← memcpy s pathBuffer path size
  let s ← storeBytes s 8 this pathBuffer
  some (this, s)

/-- `copy_into`, with the size that it prints. -/
def copyInto (fuel : ℕ) (s : State α) (this buffer : ℕ) : Option (ℕ × State α) := do
  let pathString ← loadBytes s 8 this
  let size ← countCharacters s pathString fuel 0
  let s ← memcpy s buffer pathString size
  some (size, s)

structure HoldsText (s : State α) (a : ℕ) (text : List UInt8) : Prop where
  characters : ∀ i (hi : i < text.length), loadByte s (a + i) = some text[i]
  zero : loadByte s (a + text.length) = some 0

/-- The text `/home/user/` that the constructor of `Process` passes. -/
def homeDirectory : List UInt8 := [47, 104, 111, 109, 101, 47, 117, 115, 101, 114, 47]

lemma homeDirectory_length : homeDirectory.length = 11 := rfl

lemma homeDirectory_nonzero : ∀ c ∈ homeDirectory, c ≠ 0 := by simp [homeDirectory]

end Path

def Steady (img : Image) (s : State Frames) (a : ℕ) (text : List UInt8) : Prop :=
  ∀ t bs, ReflTransGen (HeapStep img) (s, []) (t, bs) → HoldsText t a text

/-- `copy_into` writes the text to the buffer, or the text and a zero, and nothing else in the pages of the user and
of the heap. -/
def RoundTrips (s : State Frames) (this buffer : ℕ) (text : List UInt8) : Prop :=
  ∃ fuel size s', copyInto fuel s this buffer = some (size, s') ∧
    (∀ i (hi : i < text.length), loadByte s' (buffer + i) = some text[i]) ∧
    (size = text.length ∨ size = text.length + 1 ∧ loadByte s' (buffer + text.length) = some 0) ∧
    ∀ x, Outside x → x < buffer ∨ buffer + size ≤ x → loadByte s' x = loadByte s x

section Counting

variable {α : Type} {s : State α} {path fuel : ℕ}

lemma canonical_of_loadByte {a : ℕ} {c : UInt8} (h : loadByte s a = some c) : Canonical a := by
  by_contra hc
  rw [loadByte, Memory.translate, if_neg hc] at h
  cases h

lemma countCharacters_eq {n : ℕ} (hn : path + n < 2 ^ 64)
    (hchars : ∀ i < n, ∃ c, c ≠ 0 ∧ loadByte s (path + i) = some c) (hzero : loadByte s (path + n) = some 0)
    (extra : ℕ) : countCharacters s path (n + 1 + extra) 0 = some n := by
  suffices hh : ∀ k ≤ n, countCharacters s path (k + 1 + extra) (n - k) = some n by
    have := hh n le_rfl
    rwa [Nat.sub_self] at this
  intro k hk
  induction k with
  | zero =>
    rw [show 0 + 1 + extra = extra + 1 by omega, countCharacters, Nat.sub_zero, Nat.mod_eq_of_lt hn, hzero]
    rfl
  | succ k ih =>
    obtain ⟨c, hc, hload⟩ := hchars (n - (k + 1)) (by omega)
    have hnext := ih (by omega)
    rw [show k + 1 + 1 + extra = (k + 1 + extra) + 1 by omega, countCharacters, Nat.mod_eq_of_lt (by omega), hload,
      Option.bind_eq_bind, Option.bind_some, if_neg hc, Nat.mod_eq_of_lt (by omega),
      show n - (k + 1) + 1 = n - k by omega, hnext]

lemma countCharacters_some {n size : ℕ} (h : countCharacters s path fuel n = some size) (hn : n < 2 ^ 64) :
    ∃ k, size = (n + k) % 2 ^ 64 ∧ loadByte s ((path + size) % 2 ^ 64) = some 0 ∧
      ∀ i < k, ∃ c, c ≠ 0 ∧ loadByte s ((path + (n + i) % 2 ^ 64) % 2 ^ 64) = some c := by
  induction fuel generalizing n with
  | zero => cases h
  | succ fuel ih =>
    obtain ⟨c, hc, h⟩ := Option.bind_eq_some_iff.mp h
    split at h
    · rename_i hzero
      obtain rfl := Option.some.inj h
      rw [hzero] at hc
      exact ⟨0, by omega, hc, fun i hi => absurd hi (Nat.not_lt_zero i)⟩
    · rename_i hzero
      obtain ⟨k, hsize, hend, hchars⟩ := ih h (Nat.mod_lt _ (by norm_num))
      refine ⟨k + 1, by omega, hend, fun i hi => ?_⟩
      cases i with
      | zero => exact ⟨c, hzero, by rw [Nat.add_zero, Nat.mod_eq_of_lt hn, hc]⟩
      | succ i =>
        obtain ⟨d, hd, hload⟩ := hchars i (by omega)
        refine ⟨d, hd, ?_⟩
        rw [← hload]
        congr 3
        omega

variable {a : ℕ} {text : List UInt8} (h : HoldsText s a text)
include h

lemma HoldsText.length_lt : a + text.length < 2 ^ 64 ∧ text.length < 2 ^ 47 := by
  have hall : ∀ i ≤ text.length, Canonical (a + i) := by
    intro i hi
    rcases Nat.lt_or_eq_of_le hi with hi | rfl
    · exact canonical_of_loadByte (h.characters i hi)
    · exact canonical_of_loadByte h.zero
  have hlast := hall text.length le_rfl
  have hfirst := hall 0 (Nat.zero_le _)
  have hlt : text.length < 2 ^ 47 := by
    by_contra hlong
    have hhole := hall (2 ^ 47 - a) (by omega)
    rw [Canonical] at hfirst hlast hhole
    omega
  rw [Canonical] at hlast
  exact ⟨by omega, hlt⟩

variable (hnonzero : ∀ c ∈ text, c ≠ 0)
include hnonzero

lemma HoldsText.character {i : ℕ} (hi : i < text.length) : ∃ c, c ≠ 0 ∧ loadByte s (a + i) = some c :=
  ⟨text[i], hnonzero _ (List.getElem_mem hi), h.characters i hi⟩

lemma HoldsText.countCharacters {size : ℕ} (hc : countCharacters s a fuel 0 = some size) : size = text.length := by
  obtain ⟨hlt, _⟩ := h.length_lt
  obtain ⟨k, rfl, hend, hchars⟩ := countCharacters_some hc (by norm_num)
  have hk : k ≤ text.length := by
    by_contra hlong
    obtain ⟨c, hc, hload⟩ := hchars text.length (by omega)
    rw [Nat.zero_add, Nat.mod_eq_of_lt (by omega : text.length < 2 ^ 64), Nat.mod_eq_of_lt hlt, h.zero] at hload
    exact hc (Option.some.inj hload).symm
  rw [Nat.zero_add, Nat.mod_eq_of_lt (by omega)]
  by_contra hne
  obtain ⟨c, hc, hload⟩ := h.character hnonzero (lt_of_le_of_ne hk hne)
  rw [Nat.zero_add, Nat.mod_eq_of_lt (by omega : k < 2 ^ 64), Nat.mod_eq_of_lt (by omega), hload] at hend
  exact hc (Option.some.inj hend)

end Counting

section Construction

variable {img : Image} {m : Memory} {s s₁ : State Frames} {blocks : List Block} {a : ℕ} {text : List UInt8}

lemma heapStep_append {t t' : State Frames} {bs bs' : List Block} (h : HeapStep img (t, bs) (t', bs'))
    (own : List Block) : HeapStep img (t, bs ++ own) (t', bs' ++ own) := by
  cases h with
  | kalloc hsize hk => exact .kalloc hsize hk
  | write hb hva hs => exact .write (List.mem_append_left own hb) hva hs

lemma Steady.of_steps {t : State Frames} {bs : List Block} (htext : Steady img s a text)
    (hsteps : ReflTransGen (HeapStep img) (s, []) (t, bs)) : Steady img t a text := by
  intro u own hrun
  suffices hh : ∀ c, ReflTransGen (HeapStep img) (t, []) c →
      ReflTransGen (HeapStep img) (s, []) (c.1, c.2 ++ bs) from htext _ _ (hh _ hrun)
  intro c hc
  induction hc with
  | refl => exact hsteps
  | tail _ hstep ih => exact ih.tail (heapStep_append hstep bs)

lemma storeBytes_steps {o size : ℕ} {bs : List Block} (hb : (o, size) ∈ bs) {n a v : ℕ} (hlo : o ≤ a)
    (hhi : a + n ≤ o + size) (hs : storeBytes s n a v = some s₁) :
    ReflTransGen (HeapStep img) (s, bs) (s₁, bs) := by
  induction n generalizing s a v with
  | zero =>
    obtain rfl := Option.some.inj hs
    exact ReflTransGen.refl
  | succ n ih =>
    obtain ⟨t, h₁, hs⟩ := Option.bind_eq_some_iff.mp hs
    exact ReflTransGen.head (.write hb (Block.mem_range.mpr ⟨hlo, by omega⟩) h₁) (ih (by omega) (by omega) hs)

lemma newPath_spec (hready : Ready img m) (hrun : KernelRun img m s blocks) (htext : Steady img s a text)
    (hnonzero : ∀ c ∈ text, c ≠ 0) {fuel this : ℕ}
    (hnew : newPath (kallocFrame (reserved img)) fuel s a = some (this, s₁)) :
    ∃ buf, KernelRun img m s₁ ((buf, text.length) :: (this, 8) :: blocks) ∧ this = s.freeList + 16 ∧
      buf = this + 24 ∧ s₁.freeList = buf + text.length ∧
      (∀ x, heapStart ≤ x → x < s.freeList → view s₁ x = view s x) ∧
      load (view s₁) 8 this = buf ∧ ∀ i (hi : i < text.length), view s₁ (buf + i) = text[i] := by
  obtain ⟨⟨p, t₁⟩, hk₁, hnew⟩ := Option.bind_eq_some_iff.mp hnew
  obtain ⟨size, hsize, hnew⟩ := Option.bind_eq_some_iff.mp hnew
  obtain ⟨⟨buf, t₂⟩, hk₂, hnew⟩ := Option.bind_eq_some_iff.mp hnew
  obtain ⟨t₃, hcopy, hnew⟩ := Option.bind_eq_some_iff.mp hnew
  obtain ⟨t₄, hstore, hnew⟩ := Option.bind_eq_some_iff.mp hnew
  obtain ⟨rfl, rfl⟩ := Prod.mk.inj (Option.some.inj hnew)
  have hlen := (htext _ _ ReflTransGen.refl).length_lt.2
  have hreach₁ : ReflTransGen (HeapStep img) (s, []) (t₁, [(p, 8)]) :=
    ReflTransGen.single (.kalloc (by norm_num) hk₁)
  obtain rfl := (htext _ _ hreach₁).countCharacters hnonzero hsize
  have hreach₂ := hreach₁.tail (.kalloc (by omega) hk₂)
  obtain ⟨hrun₁, hp, hfl₁, hkept₁, _⟩ := hrun.kalloc_spec hready (by norm_num) hk₁
  obtain ⟨hrun₂, hbuf, hfl₂, hkept₂, _⟩ := hrun₁.kalloc_spec hready (by omega) hk₂
  obtain ⟨hrun₃, hfl₃, _, hview₃, hloads⟩ := hrun₂.memcpy hready List.mem_cons_self le_rfl hcopy
  have hmem : (p, 8) ∈ (buf, text.length) :: (p, 8) :: blocks := List.mem_cons_of_mem _ List.mem_cons_self
  obtain ⟨hrun₄, hfl₄, _, hview₄⟩ := hrun₃.storeBytes hready hmem (n := 8) le_rfl le_rfl hstore
  have hinv := hrun₄.heapInv hready
  have hin : ∀ b ∈ (buf, text.length) :: (p, 8) :: blocks, ∀ x ∈ Block.range b, InHeap x := by
    intro b hb x hx
    obtain ⟨h₁, _, h₃⟩ := hinv.mem_range hb hx
    exact hinv.heap.inHeap h₁ h₃
  have hend := hinv.heap.end_le
  have hspace := hinv.heap.space
  rw [heapLimit_eq] at hend
  refine ⟨buf, hrun₄, hp, by omega, by omega, fun x hx hx' => ?_, ?_, fun i hi => ?_⟩
  · have hx₄ : InHeap x := hinv.heap.inHeap hx (by omega)
    rw [hview₄ x hx₄, store_outside (by omega), hview₃ x hx₄ (Or.inl (by omega)),
      hkept₂ x hx (by omega), hkept₁ x hx hx']
  · rw [load_congr fun x hx hx' => hview₄ x (hin _ hmem x ⟨hx, hx'⟩), load_store_of_lt (by omega)]
  · have hx : buf + i ∈ Block.range (buf, text.length) := Block.mem_range.mpr ⟨Nat.le_add_right _ _, by omega⟩
    rw [hview₄ _ (hin _ List.mem_cons_self _ hx), store_outside (by omega)]
    obtain ⟨_, hall⟩ := hloads [(buf, text.length), (p, 8)] List.mem_cons_self
    obtain ⟨u, hu, hload⟩ := hall i hi
    rw [(htext _ _ (hreach₂.trans hu)).characters i hi] at hload
    exact (Option.some.inj hload).symm

end Construction

section Copying

variable {α : Type} {S : FrameSource α} {s s' : State α} {dest src n : ℕ}

lemma loadByte_same (h : Kernel S s) (h' : Kernel S s') (hsame : SameTables S s s') {x : ℕ} (hx : Outside x)
    (hview : Canonical x → view s' x = view s x) : loadByte s' x = loadByte s x := by
  by_cases hc : Canonical x
  · have hu : Usable Everywhere Everywhere x := ⟨hx, hc, trivial, trivial⟩
    by_cases hm : Mapped s x
    · rw [loadByte_eq h.tree hu hm, loadByte_eq h'.tree hu ((hsame.mapped hx).mpr hm), hview hc]
    · rw [loadByte_eq_none h.tree hu hm, loadByte_eq_none h'.tree hu fun hh => hm ((hsame.mapped hx).mp hh)]
  · rw [loadByte, loadByte, Memory.translate, Memory.translate, if_neg hc, if_neg hc]
    rfl

lemma memcpy_lower (h : Kernel S s) (hdest : dest + n ≤ 2 ^ 47) (hsrc : heapStart ≤ src)
    (hsrc' : src + n ≤ s.virtualAllocEnd) (hc : memcpy s dest src n = some s') :
    Kernel S s' ∧ SameTables S s s' ∧ (∀ i < n, loadByte s' (dest + i) = some (view s (src + i))) ∧
      ∀ x, Outside x → Canonical x → x < dest ∨ dest + n ≤ x → view s' x = view s x := by
  induction n generalizing s' with
  | zero =>
    obtain rfl := Option.some.inj hc
    exact ⟨h, SameTables.refl s, fun i hi => absurd hi (Nat.not_lt_zero i), fun _ _ _ _ => rfl⟩
  | succ n ih =>
    obtain ⟨s₁, h₁, hc⟩ := Option.bind_eq_some_iff.mp hc
    obtain ⟨v, hv, hc⟩ := Option.bind_eq_some_iff.mp hc
    obtain ⟨hs₁, hsame₁, hbytes, hrest⟩ := ih (by omega) (by omega) h₁
    have hlow := lower_le_heapStart
    have hfl := hs₁.start
    have hin := h.inHeap (by omega : heapStart ≤ src + n) (by omega)
    rw [loadByte_eq hs₁.tree (h.usable hin) ((hsame₁.mapped hin.outside).mpr (h.mapped _ (by omega) (by omega))),
      hrest _ hin.outside hin.canonical (by omega), Option.some.injEq] at hv
    have hout := outside_of_lower (by omega : dest + n < 2 ^ 47)
    obtain ⟨p, ht, _⟩ := Option.map_eq_some_iff.mp hc
    obtain ⟨hs', hsame, hview⟩ := hs₁.storeByte hout trivial (Or.inl (by omega)) hc
    have hu := usable_of_lower (by omega : dest + n < 2 ^ 47)
    have hmapped : Mapped s₁ (dest + n) := by
      by_contra hm
      rw [translate_eq_walk hs₁.tree hu.outside hu.canonical hu.leaf] at ht
      rw [Mapped, Option.not_isSome_iff_eq_none] at hm
      rw [hm] at ht
      cases ht
    refine ⟨hs', hsame₁.trans hsame, fun i hi => ?_, fun x hx hc hxd => ?_⟩
    · rcases Nat.lt_succ_iff_lt_or_eq.mp hi with hi | rfl
      · rw [loadByte_same hs₁ hs' hsame (outside_of_lower (by omega)) fun hc => ?_, hbytes i hi]
        rw [hview _ (outside_of_lower (by omega)) hc trivial, if_neg (by omega)]
      · rw [loadByte_eq hs'.tree hu ((hsame.mapped hout).mpr hmapped), hview _ hout hu.canonical trivial,
          if_pos rfl, hv]
    · rw [hview x hx hc trivial, if_neg (by omega), hrest x hx hc (by omega)]

end Copying

section RoundTrip

variable {img : Image} {m : Memory} {s : State Frames} {blocks : List Block} {this buf buffer : ℕ} {text : List UInt8}
    (hready : Ready img m) (hrun : KernelRun img m s blocks) (hthis : (this, 8) ∈ blocks)
    (hbuf : (buf, text.length) ∈ blocks) (hfield : load (view s) 8 this = buf)
    (htext : ∀ i (hi : i < text.length), view s (buf + i) = text[i])
include hready hrun hthis hbuf hfield htext

lemma roundTrips_iff_zero (hnonzero : ∀ c ∈ text, c ≠ 0) (hbuffer : buffer + text.length < 2 ^ 47)
    (hmapped : Space.MappedOn (loadByte s) buffer text.length) :
    RoundTrips s this buffer text ↔ view s (buf + text.length) = 0 := by
  have hinv := hrun.heapInv hready
  have h := hinv.heap
  have habove := hinv.blocks.above _ hbuf
  have hbelow := hinv.blocks.below _ hbuf
  have hspace := h.space
  have hend := h.end_le
  rw [heapLimit_eq] at hend
  dsimp only at habove hbelow
  have hpath : loadBytes s 8 this = some buf := by
    rw [hrun.loadBytes hready hthis (n := 8) le_rfl le_rfl, hfield]
  have hload : ∀ i ≤ text.length, loadByte s (buf + i) = some (view s (buf + i)) := fun i hi =>
    loadByte_eq h.tree (h.usable (h.inHeap (by omega) (by omega))) (h.mapped _ (by omega) (by omega))
  constructor
  · rintro ⟨fuel, size, s', hc, _, hsize, _⟩
    obtain ⟨b, hb, hc⟩ := Option.bind_eq_some_iff.mp hc
    obtain rfl := Option.some.inj (hpath.symm.trans hb)
    obtain ⟨n, hcount, hc⟩ := Option.bind_eq_some_iff.mp hc
    obtain ⟨s₁, hcopy, hc⟩ := Option.bind_eq_some_iff.mp hc
    obtain ⟨rfl, rfl⟩ := Prod.mk.inj (Option.some.inj hc)
    rcases hsize with rfl | ⟨rfl, hlast⟩
    · obtain ⟨_, _, hzero, _⟩ := countCharacters_some hcount (by norm_num)
      rw [Nat.mod_eq_of_lt (by omega), hload _ le_rfl] at hzero
      exact Option.some.inj hzero
    · obtain ⟨_, _, hbytes, _⟩ := memcpy_lower h (by omega) (by omega) (by omega) hcopy
      rw [hbytes _ (Nat.lt_succ_self _)] at hlast
      exact Option.some.inj hlast
  · intro hzero
    have hcount := countCharacters_eq (s := s) (n := text.length) (by omega : buf + text.length < 2 ^ 64)
      (fun i hi => ⟨text[i], hnonzero _ (List.getElem_mem hi), by rw [hload i hi.le, htext i hi]⟩)
      (by rw [hload _ le_rfl, hzero]) 0
    obtain ⟨s', hcopy, _⟩ := memcpy_effect h (by omega) hbelow (by omega) hmapped
    obtain ⟨hs', hsame, hbytes, hrest⟩ := memcpy_lower h (by omega) (by omega) (by omega) hcopy
    refine ⟨text.length + 1 + 0, text.length, s', ?_, fun i hi => ?_, Or.inl rfl, fun x hx hout => ?_⟩
    · rw [copyInto, hpath, Option.bind_eq_bind, Option.bind_some, hcount, Option.bind_eq_bind, Option.bind_some, hcopy]
      rfl
    · rw [hbytes i hi, htext i hi]
    · exact loadByte_same h hs' hsame hx fun hc => hrest x hx hc hout

omit hrun hthis hbuf in
/-- In every state that the others lead to, the header of their first block is behind the text. -/
lemma roundTrips_iff_header (hnonzero : ∀ c ∈ text, c ≠ 0)
    (hrun : KernelRun img m s ((buf, text.length) :: (this, 8) :: blocks)) (hfl : s.freeList = buf + text.length)
    {s₂ : State Frames} {later : List Block} (hlater : ReflTransGen (OthersStep img [(buf, text.length), (this, 8)])
      (s, (buf, text.length) :: (this, 8) :: blocks) (s₂, later ++ (buf, text.length) :: (this, 8) :: blocks))
    (hbuffer : buffer + text.length < 2 ^ 47) (hmapped : Space.MappedOn (loadByte s₂) buffer text.length) :
    RoundTrips s₂ this buffer text ↔ ∃ b, later.getLast? = some b ∧ b.2 % 256 = 0 := by
  have hown : ∀ o ∈ [(buf, text.length), (this, 8)], o ∈ (buf, text.length) :: (this, 8) :: blocks := by simp
  obtain ⟨hrun₂, hkept, _, later', heq, hbehind⟩ := others_run hready hrun hown hlater
  obtain rfl := List.append_cancel_right heq
  have hfield₂ : load (view s₂) 8 this = buf := by
    rw [← hfield]
    exact load_congr fun x hx hx' => hkept (this, 8) (by simp) x ⟨hx, hx'⟩
  have htext₂ : ∀ i (hi : i < text.length), view s₂ (buf + i) = text[i] := fun i hi => by
    rw [hkept (buf, text.length) (by simp) _ (Block.mem_range.mpr ⟨Nat.le_add_right _ _, by omega⟩), htext i hi]
  rw [roundTrips_iff_zero hready hrun₂ (by simp) (by simp) hfield₂ htext₂ hnonzero hbuffer hmapped, ← hfl]
  rcases hbehind with ⟨rfl, hsame⟩ | ⟨b, hb, _, hbyte⟩
  · -- the status word of the free node is odd
    have hstatus := (hrun₂.heapInv hready).heap.status
    rw [hsame, load] at hstatus
    simp only [List.getLast?_nil, reduceCtorEq, false_and, exists_false, iff_false]
    intro hzero
    rw [hzero] at hstatus
    change 0 + _ = _ at hstatus
    omega
  · rw [hb, ← UInt8.toNat_inj, hbyte]
    simp

end RoundTrip

/-- For every text, and in every state that the others lead to: the text comes back exactly if they have allocated and
the size of their first block, whose header lies behind the text, has a low byte of zero. -/
theorem copyInto_roundTrips_iff (img : Image) (m : Memory) (hready : Ready img m) (s : State Frames)
    (blocks : List Block) (hrun : KernelRun img m s blocks) (a : ℕ) (text : List UInt8) (hnonzero : ∀ c ∈ text, c ≠ 0)
    (htext : Steady img s a text) (fuel this : ℕ) (s₁ : State Frames)
    (hnew : newPath (kallocFrame (reserved img)) fuel s a = some (this, s₁)) (buf : ℕ)
    (hbuf : loadBytes s₁ 8 this = some buf) (s₂ : State Frames) (later : List Block)
    (hlater : ReflTransGen (OthersStep img [(buf, text.length), (this, 8)])
      (s₁, (buf, text.length) :: (this, 8) :: blocks) (s₂, later ++ (buf, text.length) :: (this, 8) :: blocks))
    (buffer : ℕ) (hbuffer : buffer + text.length < 2 ^ 47)
    (hmapped : Space.MappedOn (loadByte s₂) buffer text.length) :
    RoundTrips s₂ this buffer text ↔ ∃ b, later.getLast? = some b ∧ b.2 % 256 = 0 := by
  obtain ⟨buf', hrun₁, _, _, hfl, _, hfield, hchars⟩ := newPath_spec hready hrun htext hnonzero hnew
  have hthis : (this, 8) ∈ (buf', text.length) :: (this, 8) :: blocks := List.mem_cons_of_mem _ List.mem_cons_self
  rw [hrun₁.loadBytes hready hthis (n := 8) le_rfl le_rfl, hfield, Option.some.injEq] at hbuf
  subst hbuf
  exact roundTrips_iff_header hready hfield hchars hnonzero hrun₁ hfl hlater hbuffer hmapped

section Examples

variable {img : Image} {m : Memory} {s s₁ : State Frames} {blocks : List Block} {a : ℕ} {text : List UInt8}

lemma loadByte_lower {hr : Room img} {t : State Frames} {bs : List Block} (h : HeapInv img hr s blocks)
    (hsteps : ReflTransGen (HeapStep img) (s, blocks) (t, bs)) : ∀ x < 2 ^ 47, loadByte t x = loadByte s x := by
  have hheap := lower_le_heapStart
  suffices hh : ∀ c, ReflTransGen (HeapStep img) (s, blocks) c →
      HeapInv img hr c.1 c.2 ∧ ∀ x < 2 ^ 47, loadByte c.1 x = loadByte s x from (hh _ hsteps).2
  intro c hc
  induction hc with
  | refl => exact ⟨h, fun _ _ => rfl⟩
  | tail _ hstep ih =>
    obtain ⟨hinv, hsame⟩ := ih
    cases hstep with
    | kalloc hsize hk =>
      exact ⟨hinv.kalloc (by omega) hk, fun x hx => (kalloc_lower hinv.heap (by omega) hk x hx).trans (hsame x hx)⟩
    | write hb hva hs =>
      have hinv' := hinv.write hb hva hs
      obtain ⟨h₁, h₂, h₃⟩ := hinv.mem_range hb hva
      obtain ⟨_, htables, hview⟩ := hinv.heap.storeByte (hinv.heap.inHeap h₁ h₃).outside trivial (Or.inl h₂) hs
      refine ⟨hinv', fun x hx => ?_⟩
      rw [← hsame x hx]
      refine loadByte_same hinv.heap hinv'.heap htables (outside_of_lower hx) fun hc => ?_
      rw [hview x (outside_of_lower hx) hc trivial, if_neg (by omega)]

lemma holds_lower {hr : Room img} {t : State Frames} {bs : List Block} (h : HeapInv img hr s blocks)
    (htext : HoldsText s a text) (hlow : a + text.length < 2 ^ 47)
    (hsteps : ReflTransGen (HeapStep img) (s, blocks) (t, bs)) : HoldsText t a text := by
  have hsame := loadByte_lower h hsteps
  exact ⟨fun i hi => (hsame _ (by omega)).trans (htext.characters i hi), (hsame _ hlow).trans htext.zero⟩

lemma steady_lower {hr : Room img} (h : HeapInv img hr s []) (htext : HoldsText s a text)
    (hlow : a + text.length < 2 ^ 47) : Steady img s a text :=
  fun _ _ hsteps => holds_lower h htext hlow hsteps

lemma memcpy_isSome (hready : Ready img m) (hrun : KernelRun img m s blocks) {b : Block} (hb : b ∈ blocks)
    {bs : List Block} (hbs : b ∈ bs) {n : ℕ} (hn : n ≤ b.2)
    (hsrc : ∀ u, ReflTransGen (HeapStep img) (s, bs) (u, bs) → ∀ i < n, (loadByte u (a + i)).isSome) :
    ∃ s', memcpy s b.1 a n = some s' := by
  induction n with
  | zero => exact ⟨s, rfl⟩
  | succ n ih =>
    obtain ⟨s₁, hs₁⟩ := ih (by omega) fun u hu i hi => hsrc u hu i (by omega)
    obtain ⟨hrun₁, _, _, _, hsteps⟩ := hrun.memcpy hready hb (by omega) hs₁
    obtain ⟨v, hv⟩ := Option.isSome_iff_exists.mp (hsrc s₁ (hsteps bs hbs).1 n (by omega))
    have hinv := hrun₁.heapInv hready
    obtain ⟨h₁, _, h₃⟩ := hinv.mem_range hb (⟨Nat.le_add_right _ _, by omega⟩ : b.1 + n ∈ b.range)
    obtain ⟨s', hs', _⟩ := storeByte_eq hinv.heap.tree (b := v) (hinv.heap.usable (hinv.heap.inHeap h₁ h₃))
      (hinv.heap.mapped _ h₁ h₃)
    refine ⟨s', ?_⟩
    rw [memcpy, hs₁, Option.bind_eq_bind, Option.bind_some, hv]
    exact hs'

lemma newPath_isSome (hready : Ready img m) (hrun : KernelRun img m s blocks) (htext : Steady img s a text)
    (hnonzero : ∀ c ∈ text, c ≠ 0) {fuel : ℕ} (hfuel : text.length + 3 ≤ fuel)
    (hleft : 4 * (text.length / 4096 + 4) ≤ framesLeft img s.mem) :
    ∃ this buf s₁, newPath (kallocFrame (reserved img)) fuel s a = some (this, s₁) ∧
      ReflTransGen (HeapStep img) (s, blocks) (s₁, (buf, text.length) :: (this, 8) :: blocks) ∧
      framesLeft img s.mem ≤ framesLeft img s₁.mem + 4 * (text.length / 4096 + 4) := by
  obtain ⟨hlast, hlen⟩ := (htext _ _ ReflTransGen.refl).length_lt
  have h := (KernelInv.run hready hrun).kernel
  obtain ⟨t₁, hk₁, _, he₁⟩ := kalloc_effect h (by norm_num : 8 < 2 ^ 62) (by omega : 8 / 4096 + 2 < fuel)
    (by rw [source_left]; omega)
  have hleft₁ := he₁.left
  rw [source_left, source_left] at hleft₁
  have hrun₁ := hrun.kalloc hready (by norm_num) hk₁
  have hreach₁ : ReflTransGen (HeapStep img) (s, []) (t₁, [(s.freeList + 16, 8)]) :=
    ReflTransGen.single (.kalloc (by norm_num) hk₁)
  have hholds := htext _ _ hreach₁
  have hcount : countCharacters t₁ a fuel 0 = some text.length := by
    have hh := countCharacters_eq hlast (fun i hi => hholds.character hnonzero hi) hholds.zero
      (fuel - (text.length + 1))
    rwa [show text.length + 1 + (fuel - (text.length + 1)) = fuel by omega] at hh
  obtain ⟨t₂, hk₂, _, he₂⟩ := kalloc_effect he₁.kernel (by omega : text.length < 2 ^ 62)
    (by omega : text.length / 4096 + 2 < fuel) (by rw [source_left]; omega)
  have hleft₂ := he₂.left
  rw [source_left, source_left] at hleft₂
  have hrun₂ := hrun₁.kalloc hready (by omega) hk₂
  have hreach₂ := hreach₁.tail (.kalloc (by omega) hk₂)
  obtain ⟨t₃, hcopy⟩ := memcpy_isSome (a := a) hready hrun₂ List.mem_cons_self List.mem_cons_self le_rfl
    fun u hu i hi => by rw [(htext _ _ (hreach₂.trans hu)).characters i hi]; rfl
  obtain ⟨hrun₃, _, hleft₃, _, hsteps₃⟩ := hrun₂.memcpy hready List.mem_cons_self le_rfl hcopy
  have hmem : (s.freeList + 16, 8) ∈ (t₁.freeList + 16, text.length) :: (s.freeList + 16, 8) :: blocks :=
    List.mem_cons_of_mem _ List.mem_cons_self
  obtain ⟨t₄, hstore⟩ := hrun₃.storeBytes_isSome hready hmem (n := 8) (t₁.freeList + 16) le_rfl le_rfl
  obtain ⟨_, _, hleft₄, _⟩ := hrun₃.storeBytes hready hmem (n := 8) le_rfl le_rfl hstore
  have hsteps₂ : ReflTransGen (HeapStep img) (s, blocks) (t₂, _ :: _ :: blocks) :=
    .tail (.single (.kalloc (by norm_num) hk₁)) (.kalloc (by omega) hk₂)
  have hsteps₄ : ReflTransGen (HeapStep img) (t₃, _) (t₄, _) := storeBytes_steps hmem (by omega) (by omega) hstore
  refine ⟨s.freeList + 16, _, t₄, ?_, (hsteps₂.trans (hsteps₃ _ List.mem_cons_self).1).trans hsteps₄, by omega⟩
  change kalloc (kallocFrame (reserved img)) fuel s 8 = _ at hk₁
  change kalloc (kallocFrame (reserved img)) fuel t₁ text.length = _ at hk₂
  simp only [newPath, operatorNew, hk₁, hcount, hk₂, hcopy, hstore, Option.bind_eq_bind, Option.bind_some]

lemma home_path {size : ℕ} (hsize : size ≤ 4000) : ∃ s this s₁ buf s₂ p,
    KernelRun megabyteImage (fun _ => 0) s [] ∧ Steady megabyteImage s 0x10000 homeDirectory ∧
    newPath (kallocFrame (reserved megabyteImage)) 14 s 0x10000 = some (this, s₁) ∧ loadBytes s₁ 8 this = some buf ∧
    ReflTransGen (OthersStep megabyteImage [(buf, 11), (this, 8)]) (s₁, [(buf, 11), (this, 8)])
      (s₂, [(p, size)] ++ [(buf, 11), (this, 8)]) ∧ Space.MappedOn (loadByte s₂) 0x20000 11 := by
  obtain ⟨s, hrun, hchars, hzero, hleft⟩ := text_page homeDirectory (by decide)
  have htext : Steady megabyteImage s 0x10000 homeDirectory :=
    steady_lower (hrun.heapInv megabyteImage_ready) ⟨hchars, hzero⟩ (by decide)
  obtain ⟨this, _, s₁, hnew, _, hleft₁⟩ := newPath_isSome megabyteImage_ready hrun htext homeDirectory_nonzero
    (by decide : homeDirectory.length + 3 ≤ 14) (by rw [homeDirectory_length]; omega)
  rw [homeDirectory_length] at hleft₁
  obtain ⟨buf, hrun₁, _, _, _, _, hfield, _⟩ :=
    newPath_spec megabyteImage_ready hrun htext homeDirectory_nonzero hnew
  have hthis : (this, 8) ∈ [(buf, homeDirectory.length), (this, 8)] := List.mem_cons_of_mem _ List.mem_cons_self
  have hbuf := hrun₁.loadBytes megabyteImage_ready hthis (n := 8) le_rfl le_rfl
  rw [hfield] at hbuf
  have h₁ := (KernelInv.run megabyteImage_ready hrun₁).kernel
  obtain ⟨s', hmap, he⟩ := mapFrame_effect h₁ (by decide : 0x20000 < 2 ^ 47) (by rw [source_left]; omega)
  have hleft' := he.left
  rw [source_left, source_left] at hleft'
  obtain ⟨s₂, hk, _, he₂⟩ := kalloc_effect he.kernel (by omega : size < 2 ^ 62) (by omega : size / 4096 + 2 < 3)
    (by rw [source_left]; omega)
  refine ⟨s, this, s₁, buf, s₂, s'.freeList + 16, hrun, htext, hnew, hbuf,
    (ReflTransGen.single (.mapFrame (by decide) hmap)).tail (.kalloc (by omega) hk), fun i hi => ?_⟩
  rw [he₂.lower _ (by omega), he.lower _ (by omega), Space.mapZero, if_pos (by omega)]
  rfl

theorem copyInto_roundTrips_home : ∃ s this s₁ s₂, KernelRun megabyteImage (fun _ => 0) s [] ∧
    newPath (kallocFrame (reserved megabyteImage)) 14 s 0x10000 = some (this, s₁) ∧
    RoundTrips s₂ this 0x20000 homeDirectory := by
  obtain ⟨s, this, s₁, buf, s₂, p, hrun, htext, hnew, hbuf, hlater, hmapped⟩ := home_path (by decide : 256 ≤ 4000)
  refine ⟨s, this, s₁, s₂, hrun, hnew, ?_⟩
  exact (copyInto_roundTrips_iff _ _ megabyteImage_ready s [] hrun _ _ homeDirectory_nonzero htext _ _ _ hnew _ hbuf s₂
    [(p, 256)] hlater 0x20000 (by decide) hmapped).mpr ⟨(p, 256), rfl, Nat.mod_self 256⟩

/-- The next object after the path of a process is its place in the list of the scheduler, of 24 bytes. -/
theorem copyInto_not_roundTrips_home : ∃ s this s₁ buf s₂ p, KernelRun megabyteImage (fun _ => 0) s [] ∧
    newPath (kallocFrame (reserved megabyteImage)) 14 s 0x10000 = some (this, s₁) ∧
    ReflTransGen (OthersStep megabyteImage [(buf, 11), (this, 8)]) (s₁, [(buf, 11), (this, 8)])
      (s₂, [(p, 24)] ++ [(buf, 11), (this, 8)]) ∧
    ¬ RoundTrips s₂ this 0x20000 homeDirectory := by
  obtain ⟨s, this, s₁, buf, s₂, p, hrun, htext, hnew, hbuf, hlater, hmapped⟩ := home_path (by decide : 24 ≤ 4000)
  refine ⟨s, this, s₁, buf, s₂, p, hrun, hnew, hlater, ?_⟩
  obtain ⟨buf', hrun₁, _, _, hfl, _, hfield, hchars⟩ :=
    newPath_spec megabyteImage_ready hrun htext homeDirectory_nonzero hnew
  have hthis : (this, 8) ∈ [(buf', homeDirectory.length), (this, 8)] := List.mem_cons_of_mem _ List.mem_cons_self
  rw [hrun₁.loadBytes megabyteImage_ready hthis (n := 8) le_rfl le_rfl, hfield, Option.some.injEq] at hbuf
  subst hbuf
  rw [roundTrips_iff_header megabyteImage_ready hfield hchars homeDirectory_nonzero hrun₁ hfl hlater (by decide)
    hmapped]
  rintro ⟨b, hb, hlow⟩
  obtain rfl := Option.some.inj hb
  cases hlow

end Examples

end TetraOS.Processes
