import TetraOS.Memory.VirtualAllocator
import TetraOS.Memory.FlagSource

/-! The invariant of the kernel heap: one free node at the end of the mapped range, whose size reaches
to the end of that range. -/

namespace TetraOS.Memory

open Library.ByteMemory Library.TableTree VirtualPage FreeSpace

variable {α : Type}

def heapStart : ℕ := 2 ^ 32 + virtualOffset

-- Each heap page takes a frame, and the allocator has at most this many.
def heapLimit : ℕ := heapStart + framesForManaging * frameSize * pageSize

lemma heapStart_eq : heapStart = 0xFFFF800100000000 := rfl
lemma heapLimit_eq : heapLimit = 0xFFFF800108000000 := rfl

attribute [irreducible] heapStart heapLimit

def InHeap (va : ℕ) : Prop := heapStart ≤ va ∧ va < heapLimit

def HeapPath (q : List (Fin 512)) : Prop := ∃ va, InHeap va ∧ q = path va

lemma lower_le_heapStart : 2 ^ 47 ≤ heapStart := by
  rw [heapStart_eq]
  norm_num

section Addresses

variable {a b : ℕ}

lemma InHeap.bounds (h : InHeap a) : 0xFFFF800100000000 ≤ a ∧ a < 0xFFFF800108000000 := by
  rwa [InHeap, heapStart_eq, heapLimit_eq] at h

lemma InHeap.outside (h : InHeap a) : Outside a := by
  have hbounds := h.bounds
  rw [outside_iff, getVpn3_val, getVpn2_val]
  omega

lemma InHeap.canonical (h : InHeap a) : Canonical a := by
  have hbounds := h.bounds
  exact Or.inr ⟨by omega, by omega⟩

lemma InHeap.path_eq_iff (ha : InHeap a) (hb : InHeap b) : path a = path b ↔ a / 4096 = b / 4096 := by
  have hbounds := ha.bounds
  have hbounds' := hb.bounds
  rw [VirtualPage.path_eq_iff, pageOf, pageOf]
  omega

lemma outside_of_lower (h : a < 2 ^ 47) : Outside a := by
  rw [outside_iff, getVpn3_val, getVpn2_val]
  omega

lemma not_heapPath_of_lower (h : a < 2 ^ 47) : ¬ HeapPath (path a) := by
  rintro ⟨b, ⟨h₁, h₂⟩, hp⟩
  rw [heapStart_eq] at h₁
  rw [heapLimit_eq] at h₂
  rw [VirtualPage.path_eq_iff, pageOf, pageOf] at hp
  omega

end Addresses

def NewPage (s s' : State α) (q : List (Fin 512)) : Prop :=
  ∃ y, s.virtualAllocEnd ≤ y ∧ y < s'.virtualAllocEnd ∧ q = path y

/-- From `s` to `s'` pages were added at the end of the heap, and otherwise only the bytes in `W` of
the owned pages have changed. -/
structure Keeps (L : List (Fin 512) → Prop) (s s' : State α) (W : ℕ → Prop) : Prop where
  satp : s'.satp = s.satp
  end_le : s.virtualAllocEnd ≤ s'.virtualAllocEnd
  tables : ∀ q t, Node q → walk (slot s.mem) s.satp q = some t → walk (slot s'.mem) s.satp q = some t
  walk : ∀ x, Outside x → ¬ NewPage s s' (path x) →
    walk (slot s'.mem) s.satp (path x) = walk (slot s.mem) s.satp (path x)
  view : ∀ x, Outside x → Canonical x → L (path x) → ¬ NewPage s s' (path x) → ¬ W x → view s' x = view s x

section Keeps

variable {L : List (Fin 512) → Prop} {s s' s'' : State α} {W W' : ℕ → Prop}

lemma NewPage.left (he : s'.virtualAllocEnd ≤ s''.virtualAllocEnd) {q : List (Fin 512)} (h : NewPage s s' q) :
    NewPage s s'' q := by
  obtain ⟨y, hy, hy', rfl⟩ := h
  exact ⟨y, hy, by omega, rfl⟩

lemma NewPage.right (he : s.virtualAllocEnd ≤ s'.virtualAllocEnd) {q : List (Fin 512)} (h : NewPage s' s'' q) :
    NewPage s s'' q := by
  obtain ⟨y, hy, hy', rfl⟩ := h
  exact ⟨y, by omega, hy', rfl⟩

lemma Keeps.mapped (h : Keeps L s s' W) {x : ℕ} (hx : Outside x) (hn : ¬ NewPage s s' (path x)) (hm : Mapped s x) :
    Mapped s' x := by
  rw [Mapped, h.satp, h.walk x hx hn]
  exact hm

lemma Keeps.refl (s : State α) (W : ℕ → Prop) : Keeps L s s W :=
  ⟨rfl, le_rfl, fun _ _ _ hh => hh, fun _ _ _ => rfl, fun _ _ _ _ _ _ => rfl⟩

lemma Keeps.trans (h : Keeps L s s' W) (h' : Keeps L s' s'' W') (hW : ∀ x, W x → W' x) : Keeps L s s'' W' := by
  have hwalk := h'.walk
  have htables := h'.tables
  rw [h.satp] at hwalk htables
  have hleft : ∀ q, ¬ NewPage s s'' q → ¬ NewPage s s' q := fun q hn hh => hn (hh.left h'.end_le)
  have hright : ∀ q, ¬ NewPage s s'' q → ¬ NewPage s' s'' q := fun q hn hh => hn (hh.right h.end_le)
  refine ⟨h'.satp.trans h.satp, h.end_le.trans h'.end_le, fun q t hq hh => htables q t hq (h.tables q t hq hh), ?_, ?_⟩
  · intro x hx hn
    exact (hwalk x hx (hright _ hn)).trans (h.walk x hx (hleft _ hn))
  · intro x hx hc hL hn hw
    exact (h'.view x hx hc hL (hright _ hn) hw).trans (h.view x hx hc hL (hleft _ hn) fun hh => hw (hW x hh))

end Keeps

structure HeapOk (S : FrameSource α) (L K : List (Fin 512) → Prop) (s : State α) : Prop where
  tree : Tree S L (EntryOk K) s
  owned : ∀ q, HeapPath q → L q
  leaf : ∀ q, HeapPath q → K q
  aligned : s.virtualAllocEnd % 4096 = 0
  room : s.virtualAllocEnd + 4096 * S.left s.mem s.frames ≤ heapLimit
  mapped : ∀ va, heapStart ≤ va → va < s.virtualAllocEnd → Mapped s va
  start : heapStart ≤ s.freeList
  space : s.freeList + 16 ≤ s.virtualAllocEnd
  status : load (view s) 8 s.freeList = 2 * (s.virtualAllocEnd - s.freeList) + 1

section Nodes

variable {S : FrameSource α} {L K : List (Fin 512) → Prop} {s : State α}
    (h : Tree S L (EntryOk K) s) {node : ℕ} (hu : ∀ x, node ≤ x → x < node + 8 → Usable L K x)
    (hm : ∀ x, node ≤ x → x < node + 8 → Mapped s x)
include h hu hm

lemma getSize_eq : getSize s node = some (load (view s) 8 node / 2) := by
  rw [getSize, getStatus, loadBytes_eq h hu hm, Option.map_some, Nat.shiftRight_eq_div_pow, pow_one]

lemma isLast_eq : isLast s node = some (decide (load (view s) 8 node % 2 = 1)) := by
  rw [isLast, getStatus, loadBytes_eq h hu hm, Option.map_some, Nat.and_one_is_mod]
  rfl

lemma setSize_eq {size : ℕ} (hs : size < 2 ^ 63) :
    ∃ s', setSize s node size = some s' ∧ Tree S L (EntryOk K) s' ∧ SameTables S s s' ∧
      ∀ x, Outside x → Canonical x → L (path x) →
        view s' x = store (view s) 8 node (2 * size + load (view s) 8 node % 2) x := by
  have hv : size <<< 1 % 2 ^ 64 ||| load (view s) 8 node &&& 1 = 2 * size + load (view s) 8 node % 2 := by
    rw [Nat.and_one_is_mod, Nat.shiftLeft_eq, Nat.mod_eq_of_lt (by omega), pow_one, Nat.mul_comm]
    exact (Nat.two_pow_add_eq_or_of_lt (i := 1) (Nat.mod_lt _ (by decide)) size).symm
  obtain ⟨s', hs', h'⟩ := storeBytes_eq h (v := 2 * size + load (view s) 8 node % 2) hu hm
  refine ⟨s', ?_, h'⟩
  rw [setSize, getStatus, loadBytes_eq h hu hm]
  simp only [Option.bind_eq_bind, Option.bind_some, hv]
  exact hs'

lemma setLast_eq :
    ∃ s', setLast s node = some s' ∧ Tree S L (EntryOk K) s' ∧ SameTables S s s' ∧
      ∀ x, Outside x → Canonical x → L (path x) →
        view s' x = store (view s) 8 node (load (view s) 8 node ||| 1) x := by
  obtain ⟨s', hs', h'⟩ := storeBytes_eq h (v := load (view s) 8 node ||| 1) hu hm
  refine ⟨s', ?_, h'⟩
  rw [setLast, getStatus, loadBytes_eq h hu hm]
  exact hs'

lemma setLast_setSize_eq {size : ℕ} (hs : size < 2 ^ 63) :
    ∃ s₁ s', setLast s node = some s₁ ∧ setSize s₁ node size = some s' ∧ Tree S L (EntryOk K) s' ∧
      SameTables S s s' ∧ ∀ x, Outside x → Canonical x → L (path x) →
        view s' x = store (view s) 8 node (2 * size + 1) x := by
  obtain ⟨s₁, hs₁, h₁, hsame₁, hv₁⟩ := setLast_eq h hu hm
  have hm₁ : ∀ x, node ≤ x → x < node + 8 → Mapped s₁ x := fun x hx hx' =>
    (hsame₁.mapped (hu x hx hx').outside).mpr (hm x hx hx')
  obtain ⟨s', hs', h', hsame', hv'⟩ := setSize_eq h₁ hu hm₁ hs
  have hodd : load (view s₁) 8 node % 2 = 1 := by
    rw [load_congr fun x hx hx' => hv₁ x (hu x hx hx').outside (hu x hx hx').canonical (hu x hx hx').owned,
      load_store, Nat.mod_mod_of_dvd _ (by norm_num), Nat.or_mod_two_eq_one]
    exact Or.inr rfl
  refine ⟨s₁, s', hs₁, hs', h', hsame₁.trans hsame', fun x hx hc hL => ?_⟩
  rw [hv' x hx hc hL, hodd]
  exact store_congr fun hout => (hv₁ x hx hc hL).trans (store_outside hout)

end Nodes

lemma kallocFrame_virtualAllocEnd {k : FrameAlloc α} {s s' : State α} {f : ℕ} (hk : s.kallocFrame k = some (f, s')) :
    s'.virtualAllocEnd = s.virtualAllocEnd := by
  obtain ⟨⟨_, _, _⟩, _, heq⟩ := Option.map_eq_some_iff.mp hk
  rw [← (Prod.mk.inj heq).2]

lemma Tree.setEnds {S : FrameSource α} {L : List (Fin 512) → Prop} {Ok : List (Fin 512) → ℕ → Prop} {s : State α}
    (h : Tree S L Ok s) (l e : ℕ) : Tree S L Ok { s with freeList := l, virtualAllocEnd := e } :=
  ⟨h.root, h.good, h.inj, h.low, h.taken, h.apart, h.zero, h.entries, h.direct⟩

structure Extended (S : FrameSource α) (L K : List (Fin 512) → Prop) (s s' : State α) (f : ℕ) : Prop where
  freeList : s'.freeList = s.freeList
  virtualAllocEnd : s'.virtualAllocEnd = s.virtualAllocEnd + 4096
  heap : HeapOk S L K s'
  keeps : Keeps L s s' fun x => s.freeList ≤ x ∧ x < s.freeList + 8
  page : ∃ n, f = 4096 * n ∧ walk (slot s'.mem) s.satp (path s.virtualAllocEnd) = some n
  other : ∀ q, Inside Node q → ¬ q <+: path s.virtualAllocEnd →
    walk (slot s'.mem) s.satp q = walk (slot s.mem) s.satp q
  left : S.left s.mem s.frames = S.left s'.mem s'.frames + 1 + missingTables s.mem s.satp s.virtualAllocEnd

namespace HeapOk

variable {S : FrameSource α} {L K : List (Fin 512) → Prop} {s s₁ s₂ s' : State α} (h : HeapOk S L K s)
include h

lemma end_le : s.virtualAllocEnd ≤ heapLimit := by
  have := h.room
  omega

lemma inHeap {x : ℕ} (hx : heapStart ≤ x) (hx' : x < s.virtualAllocEnd) : InHeap x :=
  ⟨hx, hx'.trans_le h.end_le⟩

lemma usable {x : ℕ} (hx : InHeap x) : Usable L K x :=
  ⟨hx.outside, hx.canonical, h.owned _ ⟨x, hx, rfl⟩, h.leaf _ ⟨x, hx, rfl⟩⟩

lemma path_ne_end {x y : ℕ} (hx : heapStart ≤ x) (hx' : x < s.virtualAllocEnd) (hy : s.virtualAllocEnd ≤ y)
    (hy' : y < heapLimit) : path x ≠ path y := by
  have := h.aligned
  rw [Ne, (h.inHeap hx hx').path_eq_iff ⟨by omega, hy'⟩]
  omega

lemma not_newPage {s' : State α} (hs : s'.virtualAllocEnd ≤ heapLimit) {x : ℕ} (hx : heapStart ≤ x)
    (hx' : x < s.virtualAllocEnd) : ¬ NewPage s s' (path x) := by
  rintro ⟨y, hy, hy', hp⟩
  exact h.path_ne_end hx hx' hy (by omega) hp

lemma node_usable (x : ℕ) (hx : s.freeList ≤ x) (hx' : x < s.freeList + 8) : Usable L K x := by
  have := h.start
  have := h.space
  exact h.usable (h.inHeap (by omega) (by omega))

lemma node_mapped (x : ℕ) (hx : s.freeList ≤ x) (hx' : x < s.freeList + 8) : Mapped s x := by
  have := h.start
  have := h.space
  exact h.mapped x (by omega) (by omega)

lemma getSize_freeList : getSize s s.freeList = some (s.virtualAllocEnd - s.freeList) := by
  rw [getSize_eq h.tree h.node_usable h.node_mapped, h.status]
  exact congrArg some (by omega)

lemma isLast_freeList : isLast s s.freeList = some true := by
  rw [isLast_eq h.tree h.node_usable h.node_mapped, h.status]
  exact congrArg some (decide_eq_true (by omega))

lemma mapEnd {f : ℕ} (hk : s.kallocFrame S.kallocFrame = some (f, s₁))
    (hm : mapPage S.kallocFrame s₁ s.virtualAllocEnd f 0xF = some s₂) :
    ∃ n, f = 4096 * n ∧ InHeap s.virtualAllocEnd ∧ Tree S L (EntryOk K) s₂ ∧
      MapsNew S L s s₂ s.virtualAllocEnd n ∧
      (∀ x, heapStart ≤ x → x < s.virtualAllocEnd + 4096 → Mapped s₂ x) ∧
      (∀ x, heapStart ≤ x → x < s.virtualAllocEnd → view s₂ x = view s x) := by
  have hroom := h.room
  have hal := h.aligned
  have hst := h.start
  have hsp := h.space
  have hpos : 0 < S.left s.mem s.frames := by
    obtain ⟨_, _, _, _, _, _, _, hl⟩ := h.tree.kallocFrame hk
    omega
  have hend : InHeap s.virtualAllocEnd := ⟨by omega, by omega⟩
  obtain ⟨n, rfl, h₂, hnew⟩ := mapsNew h.tree hend.outside (by decide) (fun _ => by decide) hk hm
  refine ⟨n, rfl, hend, h₂, hnew, ?_, ?_⟩
  · intro x hx hx'
    rw [Mapped, hnew.satp]
    by_cases hlt : x < s.virtualAllocEnd
    · have hp := h.path_ne_end hx hlt le_rfl hend.2
      rw [hnew.other _ (inside_path (h.inHeap hx hlt).outside) (not_prefix_path hp)]
      exact h.mapped x hx hlt
    · have hp : path x = path s.virtualAllocEnd := by
        rw [InHeap.path_eq_iff ⟨hx, by omega⟩ hend]
        omega
      rw [hp, hnew.self]
      rfl
  · intro x hx hx'
    exact hnew.view_other x (h.usable (h.inHeap hx hx')).path_owned (h.path_ne_end hx hx' le_rfl hend.2)

lemma size_lt : s.virtualAllocEnd - s.freeList + 4096 < 2 ^ 63 := by
  have h₁ := h.end_le
  have h₂ := h.start
  rw [heapLimit_eq] at h₁
  rw [heapStart_eq] at h₂
  omega

lemma setSize_freeList (hm : Tree S L (EntryOk K) s₂)
    (hmap : ∀ x, heapStart ≤ x → x < s.virtualAllocEnd + 4096 → Mapped s₂ x)
    (hview : ∀ x, heapStart ≤ x → x < s.virtualAllocEnd → view s₂ x = view s x) :
    ∃ s₃, getSize s₂ s.freeList = some (s.virtualAllocEnd - s.freeList) ∧
      setSize s₂ s.freeList (s.virtualAllocEnd - s.freeList + 4096) = some s₃ ∧ Tree S L (EntryOk K) s₃ ∧
      SameTables S s₂ s₃ ∧ ∀ x, Outside x → Canonical x → L (path x) →
        view s₃ x = store (view s₂) 8 s.freeList (2 * (s.virtualAllocEnd + 4096 - s.freeList) + 1) x := by
  have hst := h.start
  have hsp := h.space
  have hnode : ∀ x, s.freeList ≤ x → x < s.freeList + 8 → Mapped s₂ x := fun x hx hx' =>
    hmap x (by omega) (by omega)
  have hstatus : load (view s₂) 8 s.freeList = 2 * (s.virtualAllocEnd - s.freeList) + 1 := by
    rw [← h.status]
    exact load_congr fun x hx hx' => hview x (by omega) (by omega)
  obtain ⟨s₃, hs₃, h₃, hsame, hview₃⟩ := setSize_eq hm h.node_usable hnode h.size_lt
  have hodd : 2 * (s.virtualAllocEnd - s.freeList + 4096) + load (view s₂) 8 s.freeList % 2 =
      2 * (s.virtualAllocEnd + 4096 - s.freeList) + 1 := by
    rw [hstatus]
    omega
  refine ⟨s₃, ?_, hs₃, h₃, hsame, hodd ▸ hview₃⟩
  rw [getSize_eq hm h.node_usable hnode, hstatus]
  exact congrArg some (by omega)

lemma growStep {f : ℕ} (hk : s.kallocFrame S.kallocFrame = some (f, s₁))
    (hm : mapPage S.kallocFrame s₁ s.virtualAllocEnd f 0xF = some s₂) :
    ∃ s₃ s', getSize s₂ s.freeList = some (s.virtualAllocEnd - s.freeList) ∧
      setSize s₂ s.freeList (s.virtualAllocEnd - s.freeList + 4096) = some s₃ ∧
      s' = { s₃ with virtualAllocEnd := s.virtualAllocEnd + 4096 } ∧
      s₃.virtualAllocEnd = s.virtualAllocEnd ∧ Extended S L K s s' f := by
  have hroom := h.room
  have hal := h.aligned
  have hst := h.start
  have hsp := h.space
  have hsize := h.size_lt
  obtain ⟨n, rfl, hend, h₂, hnew, hmap₂, hview₂⟩ := h.mapEnd hk hm
  obtain ⟨s₃, hget, hs₃, h₃, hsame, hview₃⟩ := h.setSize_freeList h₂ hmap₂ hview₂
  have hleft := hsame.left h₂.good
  have hnewleft := hnew.left
  have hsatp₃ : s₃.satp = s.satp := hsame.satp.trans hnew.satp
  have hfl : s₃.freeList = s.freeList := hsame.freeList.trans hnew.freeList
  have hwalk₃ : ∀ q, Inside Node q → walk (slot s₃.mem) s.satp q = walk (slot s₂.mem) s.satp q := by
    rw [← hnew.satp]
    exact hsame.walk
  have hlast : s.virtualAllocEnd < s.virtualAllocEnd + 4096 := by omega
  refine ⟨s₃, _, hget, hs₃, rfl, hsame.virtualAllocEnd.trans hnew.virtualAllocEnd, hfl, rfl,
    ⟨h₃.setEnds _ _, h.owned, h.leaf, ?_, ?_, ?_, ?_, ?_, ?_⟩, ⟨hsatp₃, hlast.le, ?_, ?_, ?_⟩,
    ⟨n, rfl, (hwalk₃ _ (inside_path hend.outside)).trans hnew.self⟩,
    fun q hq hp => (hwalk₃ q hq).trans (hnew.other q hq hp), ?_⟩
  · change (s.virtualAllocEnd + 4096) % 4096 = 0
    omega
  · change s.virtualAllocEnd + 4096 + 4096 * S.left s₃.mem s₃.frames ≤ heapLimit
    omega
  · intro x hx hx'
    have hx'' : x < heapLimit := by
      change x < s.virtualAllocEnd + 4096 at hx'
      omega
    exact (hsame.mapped (InHeap.outside ⟨hx, hx''⟩)).mpr (hmap₂ x hx hx')
  · exact hst.trans_eq hfl.symm
  · change s₃.freeList + 16 ≤ s.virtualAllocEnd + 4096
    omega
  · change load (view s₃) 8 s₃.freeList = 2 * (s.virtualAllocEnd + 4096 - s₃.freeList) + 1
    have hu := h.node_usable
    rw [hfl, load_congr fun x hx hx' => hview₃ x (hu x hx hx').outside (hu x hx hx').canonical (hu x hx hx').owned,
      load_store_of_lt (by omega)]
  · intro q t hq hh
    exact (hwalk₃ q hq.inside).trans (hnew.tables q t hq hh)
  · intro x hx hn
    have hp : path x ≠ path s.virtualAllocEnd := fun hp => hn ⟨_, le_rfl, hlast, hp⟩
    exact (hwalk₃ _ (inside_path hx)).trans (hnew.other _ (inside_path hx) (not_prefix_path hp))
  · intro x hx hc hLx hn hw
    have hp : path x ≠ path s.virtualAllocEnd := fun hp => hn ⟨_, le_rfl, hlast, hp⟩
    have hown : Owned L (path x) := ⟨hx, Or.inr ⟨by simp [path], hLx⟩⟩
    exact (hview₃ x hx hc hLx).trans ((store_outside (by omega)).trans (hnew.view_other x hown hp))
  · change S.left s.mem s.frames = S.left s₃.mem s₃.frames + 1 + _
    omega

lemma growList_step {f size : ℕ} (hsize : size + 32 < 2 ^ 64) (hlt : s.virtualAllocEnd - s.freeList < size + 32)
    (hk : s.kallocFrame S.kallocFrame = some (f, s₁))
    (hm : mapPage S.kallocFrame s₁ s.virtualAllocEnd f 0xF = some s₂) :
    ∃ s', (∀ fuel, Memory.growList S.kallocFrame s.freeList size (fuel + 1) s =
        Memory.growList S.kallocFrame s'.freeList size fuel s') ∧ Extended S L K s s' f := by
  obtain ⟨s₃, s', hget, hset, hs', he, hext⟩ := h.growStep hk hm
  have hlim := hext.heap.end_le
  rw [hext.virtualAllocEnd, heapLimit_eq] at hlim
  have hspace := h.size_lt
  refine ⟨s', fun fuel => ?_, hext⟩
  rw [Memory.growList, h.getSize_freeList]
  simp only [Option.bind_eq_bind, Option.bind_some, sizeofFreeSpace, pageSize]
  rw [Nat.mod_eq_of_lt (by omega), if_pos (by omega), hk, Option.bind_some]
  simp only [kallocFrame_virtualAllocEnd hk]
  rw [hm, Option.bind_some, hget, Option.bind_some, Nat.mod_eq_of_lt (by omega), hset, Option.bind_some, he,
    Nat.mod_eq_of_lt (by omega), ← hs', ← hext.freeList]

lemma growList_enough {fuel size : ℕ} (hsize : size + 32 < 2 ^ 64)
    (hfit : size + 32 ≤ s.virtualAllocEnd - s.freeList) :
    Memory.growList S.kallocFrame s.freeList size (fuel + 1) s = some s := by
  rw [Memory.growList, h.getSize_freeList, Option.bind_eq_bind, Option.bind_some, sizeofFreeSpace,
    Nat.mod_eq_of_lt (by omega), if_neg (by omega)]

lemma growList_draws {fuel size : ℕ} (hsize : size + 32 < 2 ^ 64)
    (hlt : s.virtualAllocEnd - s.freeList < size + 32)
    (hg : Memory.growList S.kallocFrame s.freeList size (fuel + 1) s = some s') :
    ∃ f s₁ s₂, s.kallocFrame S.kallocFrame = some (f, s₁) ∧
      mapPage S.kallocFrame s₁ s.virtualAllocEnd f 0xF = some s₂ := by
  rw [Memory.growList, h.getSize_freeList, Option.bind_eq_bind, Option.bind_some, sizeofFreeSpace,
    Nat.mod_eq_of_lt (by omega), if_pos (by omega)] at hg
  obtain ⟨⟨f, s₁⟩, hk, hg⟩ := Option.bind_eq_some_iff.mp hg
  obtain ⟨s₂, hm, _⟩ := Option.bind_eq_some_iff.mp hg
  rw [kallocFrame_virtualAllocEnd hk] at hm
  exact ⟨f, s₁, s₂, hk, hm⟩

lemma growList {fuel size : ℕ} (hsize : size + 32 < 2 ^ 64)
    (hg : growList S.kallocFrame s.freeList size fuel s = some s') :
    HeapOk S L K s' ∧ s'.freeList = s.freeList ∧ s'.freeList + (size + 32) ≤ s'.virtualAllocEnd ∧
      Keeps L s s' (fun x => s.freeList ≤ x ∧ x < s.freeList + 8) := by
  induction fuel generalizing s with
  | zero => cases hg
  | succ fuel ih =>
    have hspace := h.space
    by_cases hlt : s.virtualAllocEnd - s.freeList < size + 32
    · obtain ⟨f, s₁, s₂, hk, hm⟩ := h.growList_draws hsize hlt hg
      obtain ⟨s₃, hloop, hext⟩ := h.growList_step hsize hlt hk hm
      rw [hloop] at hg
      obtain ⟨h', hfl', hroom, hkeep'⟩ := ih hext.heap hg
      rw [hext.freeList] at hfl' hkeep'
      exact ⟨h', hfl', hroom, hext.keeps.trans hkeep' fun x hx => hx⟩
    · rw [h.growList_enough hsize (by omega)] at hg
      obtain rfl := Option.some.inj hg
      exact ⟨h, rfl, by omega, Keeps.refl _ _⟩

lemma growList_frames {fuel size pages : ℕ} (hsize : size + 32 < 2 ^ 64)
    (hpages : size + 32 ≤ s.virtualAllocEnd - s.freeList + 4096 * pages) (hfuel : pages < fuel)
    (hleft : 4 * pages ≤ S.left s.mem s.frames) :
    ∃ s', Memory.growList S.kallocFrame s.freeList size fuel s = some s' ∧
      S.left s.mem s.frames ≤ S.left s'.mem s'.frames + 4 * pages := by
  induction fuel generalizing s pages with
  | zero => omega
  | succ fuel ih =>
    by_cases hlt : s.virtualAllocEnd - s.freeList < size + 32
    · obtain ⟨pages, rfl⟩ : ∃ k, pages = k + 1 := ⟨pages - 1, by omega⟩
      have hmiss : missingTables s.mem s.satp s.virtualAllocEnd ≤ 3 := missingTables_le _ _ _
      have hroom := h.room
      have hst := h.start
      have hsp := h.space
      have hend : InHeap s.virtualAllocEnd := ⟨by omega, by omega⟩
      obtain ⟨f, s₁, s₂, hk, hm⟩ := mapsNew_isSome h.tree hend.outside 0xF (by omega)
      obtain ⟨s₃, hloop, hext⟩ := h.growList_step hsize hlt hk hm
      have hfl := hext.freeList
      have hend₃ := hext.virtualAllocEnd
      have hl := hext.left
      obtain ⟨s', hs', hused⟩ := ih hext.heap (by omega) (by omega : pages < fuel) (by omega)
      exact ⟨s', (hloop fuel).trans hs', by omega⟩
    · exact ⟨s, h.growList_enough hsize (by omega), by omega⟩

section Split

lemma word_usable {a x : ℕ} (ha : s.freeList ≤ a) (ha' : a + 8 ≤ s.virtualAllocEnd) (hx : a ≤ x) (hx' : x < a + 8) :
    Usable L K x := by
  have hst := h.start
  exact h.usable (h.inHeap (by omega) (by omega))

lemma word_mapped {a x : ℕ} (ha : s.freeList ≤ a) (ha' : a + 8 ≤ s.virtualAllocEnd) (hx : a ≤ x) (hx' : x < a + 8) :
    Mapped s x := by
  have hst := h.start
  exact h.mapped x (by omega) (by omega)

variable {size : ℕ} (hsize : size + 32 < 2 ^ 64) (hfit : s.freeList + (size + 32) ≤ s.virtualAllocEnd)
include hsize hfit

lemma splitBlock_stores :
    ∃ s₁, Memory.splitBlock s s.freeList size =
        some (s.freeList + 16, { s₁ with freeList := s.freeList + 16 + size }) ∧
      Tree S L (EntryOk K) s₁ ∧ SameTables S s s₁ ∧ ∀ x, Outside x → Canonical x → L (path x) →
        view s₁ x = store (store (store (view s) 8 s.freeList size) 8 (s.freeList + 8) magic) 8
          (s.freeList + 16 + size) (2 * (s.virtualAllocEnd - (s.freeList + 16 + size)) + 1) x := by
  have hlt := h.size_lt
  have hend := h.end_le
  rw [heapLimit_eq] at hend
  have hm : ∀ {s' : State α}, SameTables S s s' → ∀ a, s.freeList ≤ a → a + 8 ≤ s.virtualAllocEnd →
      ∀ x, a ≤ x → x < a + 8 → Mapped s' x := fun hs a ha ha' x hx hx' =>
    (hs.mapped (h.word_usable ha ha' hx hx').outside).mpr (h.word_mapped ha ha' hx hx')
  obtain ⟨s₁, hs₁, h₁, hsame₁, hv₁⟩ := storeBytes_eq h.tree (v := size)
    (fun _ => h.word_usable le_rfl (by omega)) (fun _ => h.word_mapped le_rfl (by omega))
  obtain ⟨s₂, hs₂, h₂, hsame₂, hv₂⟩ := storeBytes_eq h₁ (v := magic)
    (fun _ => h.word_usable (a := s.freeList + 8) (by omega) (by omega))
    (hm hsame₁ (s.freeList + 8) (by omega) (by omega))
  have hsize' : s.virtualAllocEnd - (s.freeList + 16 + size) < 2 ^ 63 := by omega
  obtain ⟨s₃, s₄, hs₃, hs₄, h₄, hsame₄, hv₄⟩ := setLast_setSize_eq h₂
    (fun _ => h.word_usable (a := s.freeList + 16 + size) (by omega) (by omega))
    (hm (hsame₁.trans hsame₂) (s.freeList + 16 + size) (by omega) (by omega)) hsize'
  refine ⟨s₄, ?_, h₄, (hsame₁.trans hsame₂).trans hsame₄, fun x hx hc hL => ?_⟩
  · have e₁ : (s.freeList + 8) % 2 ^ 64 = s.freeList + 8 := by omega
    have e₂ : (s.freeList + 16) % 2 ^ 64 = s.freeList + 16 := by omega
    have e₃ : (s.freeList + 16 + size) % 2 ^ 64 = s.freeList + 16 + size := by omega
    have e₄ : (s.virtualAllocEnd - s.freeList + (2 ^ 64 - (size + 16) % 2 ^ 64)) % 2 ^ 64 =
        s.virtualAllocEnd - (s.freeList + 16 + size) := by omega
    simp only [Memory.splitBlock, h.getSize_freeList, Option.bind_eq_bind, Option.bind_some, hs₁, e₁, hs₂, e₂, e₃, hs₃,
      e₄, hs₄]
  · rw [hv₄ x hx hc hL]
    refine store_congr fun _ => (hv₂ x hx hc hL).trans (store_congr fun _ => hv₁ x hx hc hL)

lemma splitBlock :
    ∃ s', splitBlock s s.freeList size = some (s.freeList + 16, s') ∧ HeapOk S L K s' ∧
      s'.freeList = s.freeList + 16 + size ∧ SameTables S s { s' with freeList := s.freeList } ∧
      Keeps L s s' (fun x => (s.freeList ≤ x ∧ x < s.freeList + 16) ∨
        (s.freeList + 16 + size ≤ x ∧ x < s.freeList + 16 + size + 8)) ∧
      load (view s') 8 s.freeList = size := by
  have hst := h.start
  obtain ⟨s₁, hs₁, h₁, hsame, hv⟩ := h.splitBlock_stores hsize hfit
  have hload : ∀ a, s.freeList ≤ a → a + 8 ≤ s.virtualAllocEnd → load (view s₁) 8 a =
      load (store (store (store (view s) 8 s.freeList size) 8 (s.freeList + 8) magic) 8
        (s.freeList + 16 + size) (2 * (s.virtualAllocEnd - (s.freeList + 16 + size)) + 1)) 8 a := by
    intro a ha ha'
    refine load_congr fun x hx hx' => ?_
    have hu := h.word_usable ha ha' hx hx'
    exact hv x hu.outside hu.canonical hu.owned
  refine ⟨_, hs₁, ⟨h₁.setEnds _ _, h.owned, h.leaf, ?_, ?_, ?_, ?_, ?_, ?_⟩, rfl,
    ⟨hsame.satp, hsame.frames, rfl, hsame.virtualAllocEnd, hsame.records, hsame.walk⟩,
    ⟨hsame.satp, hsame.virtualAllocEnd.ge, ?_, ?_, ?_⟩, ?_⟩
  · exact (congrArg (· % 4096) hsame.virtualAllocEnd).trans h.aligned
  · change s₁.virtualAllocEnd + 4096 * S.left s₁.mem s₁.frames ≤ heapLimit
    rw [hsame.virtualAllocEnd, hsame.left h.tree.good]
    exact h.room
  · intro x hx hx'
    change x < s₁.virtualAllocEnd at hx'
    rw [hsame.virtualAllocEnd] at hx'
    exact (hsame.mapped (h.inHeap hx hx').outside).mpr (h.mapped x hx hx')
  · change heapStart ≤ s.freeList + 16 + size
    omega
  · change s.freeList + 16 + size + 16 ≤ s₁.virtualAllocEnd
    rw [hsame.virtualAllocEnd]
    omega
  · change load (view s₁) 8 (s.freeList + 16 + size) = 2 * (s₁.virtualAllocEnd - (s.freeList + 16 + size)) + 1
    have hlt := h.size_lt
    rw [hload _ (by omega) (by omega), load_store_of_lt (by omega), hsame.virtualAllocEnd]
  · exact fun q _ hq hh => (hsame.walk q hq.inside).trans hh
  · exact fun _ hx _ => hsame.walk _ (inside_path hx)
  · intro x hx hc hL _ hw
    change view s₁ x = view s x
    rw [hv x hx hc hL, store_outside (by omega), store_outside (by omega), store_outside (by omega)]
  · change load (view s₁) 8 s.freeList = size
    rw [hload _ le_rfl (by omega), load_store_disjoint (by omega), load_store_disjoint (by omega),
      load_store_of_lt (by omega)]

end Split

lemma searchList_freeList (fuel size : ℕ) : searchList s size (fuel + 1) s.freeList = some s.freeList := by
  simp only [searchList, h.isLast_freeList, h.getSize_freeList, Option.bind_eq_bind, Option.bind_some]
  rfl

lemma kalloc_eq {fuel size : ℕ} (hsize : size + 32 < 2 ^ 64) :
    Memory.kalloc S.kallocFrame (fuel + 1) s size =
      (if s.virtualAllocEnd - s.freeList < size + 32 then
        Memory.growList S.kallocFrame s.freeList size (fuel + 1) s else some s).bind
          fun s' => Memory.splitBlock s' s.freeList size := by
  simp only [Memory.kalloc, h.searchList_freeList, h.isLast_freeList, h.getSize_freeList, Option.bind_eq_bind,
    Option.bind_some, sizeofFreeSpace, Bool.true_and, decide_eq_true_eq, Nat.reduceMul]
  rw [Nat.mod_eq_of_lt (by omega)]
  split_ifs <;> rfl

lemma kalloc_parts {fuel size p : ℕ} (hsize : size + 32 < 2 ^ 64)
    (hk : Memory.kalloc S.kallocFrame fuel s size = some (p, s')) :
    ∃ s₁, (s₁ = s ∨ ∃ fuel, Memory.growList S.kallocFrame s.freeList size fuel s = some s₁) ∧ HeapOk S L K s₁ ∧
      s₁.freeList = s.freeList ∧ s₁.freeList + (size + 32) ≤ s₁.virtualAllocEnd ∧
      Keeps L s s₁ (fun x => s.freeList ≤ x ∧ x < s.freeList + 8) ∧
      Memory.splitBlock s₁ s.freeList size = some (p, s') := by
  cases fuel with
  | zero => cases hk
  | succ fuel =>
    rw [h.kalloc_eq hsize] at hk
    obtain ⟨s₁, hg, hs⟩ := Option.bind_eq_some_iff.mp hk
    split at hg
    · obtain ⟨h₁, hfl, hfit, hkeep⟩ := h.growList hsize hg
      exact ⟨s₁, Or.inr ⟨_, hg⟩, h₁, hfl, hfit, hkeep, hs⟩
    · rename_i hn
      obtain rfl := Option.some.inj hg
      have := h.space
      exact ⟨s, Or.inl rfl, h, rfl, by omega, Keeps.refl _ _, hs⟩

lemma kalloc {fuel size p : ℕ} (hsize : size + 32 < 2 ^ 64) (hk : kalloc S.kallocFrame fuel s size = some (p, s')) :
    HeapOk S L K s' ∧ p = s.freeList + 16 ∧ s'.freeList = p + size ∧
      Keeps L s s' (fun x => (s.freeList ≤ x ∧ x < p) ∨ (p + size ≤ x ∧ x < p + size + 8)) := by
  obtain ⟨s₁, _, h₁, hfl, hfit, hkeep₁, hs⟩ := h.kalloc_parts hsize hk
  obtain ⟨s₂, hs₂, h₂, hfl₂, _, hkeep₂, _⟩ := h₁.splitBlock hsize hfit
  rw [hfl] at hs₂ hfl₂ hkeep₂
  rw [hs, Option.some.injEq, Prod.mk.injEq] at hs₂
  obtain ⟨rfl, rfl⟩ := hs₂
  exact ⟨h₂, rfl, hfl₂, hkeep₁.trans hkeep₂ fun x hx => Or.inl ⟨hx.1, by omega⟩⟩

lemma kalloc_header {fuel size p : ℕ} (hsize : size + 32 < 2 ^ 64)
    (hk : Memory.kalloc S.kallocFrame fuel s size = some (p, s')) : load (view s') 8 s.freeList = size := by
  obtain ⟨s₁, _, h₁, hfl, hfit, _, hs⟩ := h.kalloc_parts hsize hk
  obtain ⟨s₂, hs₂, _, _, _, _, hword⟩ := h₁.splitBlock hsize hfit
  rw [hfl] at hs₂ hword
  rw [hs, Option.some.injEq, Prod.mk.injEq] at hs₂
  obtain ⟨_, rfl⟩ := hs₂
  exact hword

lemma kalloc_fits (fuel : ℕ) {size : ℕ} (hsize : size + 32 < 2 ^ 64)
    (hfit : s.freeList + (size + 32) ≤ s.virtualAllocEnd) :
    ∃ s', Memory.kalloc S.kallocFrame (fuel + 1) s size = some (s.freeList + 16, s') ∧ HeapOk S L K s' ∧
      s'.freeList = s.freeList + 16 + size ∧ SameTables S s { s' with freeList := s.freeList } := by
  obtain ⟨s', hs', h', hfl, hsame, _⟩ := h.splitBlock hsize hfit
  refine ⟨s', ?_, h', hfl, hsame⟩
  rw [h.kalloc_eq hsize, if_neg (by omega), Option.bind_some, hs']

lemma kalloc_frames {fuel size pages : ℕ} (hsize : size + 32 < 2 ^ 64)
    (hpages : size + 32 ≤ s.virtualAllocEnd - s.freeList + 4096 * pages) (hfuel : pages < fuel)
    (hleft : 4 * pages ≤ S.left s.mem s.frames) :
    ∃ p s', Memory.kalloc S.kallocFrame fuel s size = some (p, s') ∧
      S.left s.mem s.frames ≤ S.left s'.mem s'.frames + 4 * pages := by
  obtain ⟨fuel, rfl⟩ : ∃ k, fuel = k + 1 := ⟨fuel - 1, by omega⟩
  rw [h.kalloc_eq hsize]
  have hsp := h.space
  split
  · obtain ⟨s₁, hg, hused⟩ := h.growList_frames hsize hpages hfuel hleft
    obtain ⟨h₁, hfl, hfit, _⟩ := h.growList hsize hg
    obtain ⟨s₂, hs₂, _, _, hsame, _⟩ := h₁.splitBlock hsize hfit
    rw [hg, Option.bind_some, ← hfl, hs₂]
    exact ⟨_, _, rfl, hused.trans (Nat.add_le_add_right (hsame.left h₁.tree.good).ge _)⟩
  · obtain ⟨s₂, hs₂, _, _, hsame, _⟩ := h.splitBlock hsize (by omega)
    exact ⟨_, s₂, hs₂, (hsame.left h.tree.good).ge.trans (Nat.le_add_right _ _)⟩

lemma kalloc_isSome {fuel size pages : ℕ} (hsize : size + 32 < 2 ^ 64)
    (hpages : size + 32 ≤ s.virtualAllocEnd - s.freeList + 4096 * pages) (hfuel : pages < fuel)
    (hleft : 4 * pages ≤ S.left s.mem s.frames) : ∃ p s', Memory.kalloc S.kallocFrame fuel s size = some (p, s') := by
  obtain ⟨p, s', hk, _⟩ := h.kalloc_frames hsize hpages hfuel hleft
  exact ⟨p, s', hk⟩

lemma preserved (h' : Tree S L (EntryOk K) s') (hfl : s'.freeList = s.freeList)
    (hend : s'.virtualAllocEnd = s.virtualAllocEnd) (hleft : S.left s'.mem s'.frames ≤ S.left s.mem s.frames)
    (hm : ∀ x, heapStart ≤ x → x < s.virtualAllocEnd → Mapped s' x)
    (hnode : ∀ x, s.freeList ≤ x → x < s.freeList + 8 → view s' x = view s x) : HeapOk S L K s' := by
  refine ⟨h', h.owned, h.leaf, ?_, ?_, ?_, ?_, ?_, ?_⟩
  · rw [hend, h.aligned]
  · have := h.room
    rw [hend]
    omega
  · rw [hend]
    exact hm
  · rw [hfl]
    exact h.start
  · rw [hfl, hend]
    exact h.space
  · rw [hfl, hend, ← h.status]
    exact load_congr hnode

lemma storeByte {va : ℕ} {b : UInt8} (hva : Outside va) (hLva : L (path va))
    (hnode : va < s.freeList ∨ s.freeList + 8 ≤ va) (hw : storeByte s va b = some s') :
    HeapOk S L K s' ∧ SameTables S s s' ∧
      ∀ x, Outside x → Canonical x → L (path x) → view s' x = if x = va then b else view s x := by
  obtain ⟨p, ht, _⟩ := Option.map_eq_some_iff.mp hw
  obtain ⟨s₁, hs₁, h₁, hsame, hview⟩ := storeByte_owned h.tree (b := b) hva hLva ht
  obtain rfl := Option.some.inj (hw.symm.trans hs₁)
  refine ⟨h.preserved h₁ hsame.freeList hsame.virtualAllocEnd (hsame.left h.tree.good).le ?_ ?_, hsame, hview⟩
  · exact fun x hx hx' => (hsame.mapped (h.inHeap hx hx').outside).mpr (h.mapped x hx hx')
  · intro x hx hx'
    have hu := h.node_usable x hx hx'
    rw [hview x hu.outside hu.canonical hu.owned, if_neg (by omega)]

lemma node_inHeap {x : ℕ} (hx : s.freeList ≤ x) (hx' : x < s.freeList + 8) :
    heapStart ≤ x ∧ x < s.virtualAllocEnd := by
  have := h.start
  have := h.space
  omega

lemma kallocFrame {f : ℕ} (hk : s.kallocFrame S.kallocFrame = some (f, s')) :
    HeapOk S L K s' ∧ s'.satp = s.satp ∧ s'.freeList = s.freeList ∧ s'.virtualAllocEnd = s.virtualAllocEnd ∧
      (∀ q, Inside Node q → walk (slot s'.mem) s.satp q = walk (slot s.mem) s.satp q) ∧
      S.left s.mem s.frames = S.left s'.mem s'.frames + 1 := by
  obtain ⟨n, rfl, _, _, h', hg, hw, hl⟩ := h.tree.kallocFrame hk
  refine ⟨h.preserved h' hg.freeList hg.virtualAllocEnd (by omega) ?_ ?_, hg.satp, hg.freeList, hg.virtualAllocEnd,
    hw, hl⟩
  · intro x hx hx'
    rw [Mapped, hg.satp, hw _ (inside_path (h.inHeap hx hx').outside)]
    exact h.mapped x hx hx'
  · intro x hx hx'
    have hin := h.inHeap (h.node_inHeap hx hx').1 (h.node_inHeap hx hx').2
    exact view_owned_eq h' hg.satp hg.bytes hg.mem (h.usable hin).path_owned (hw _ (inside_path hin.outside))

lemma mapOther {v f flag : ℕ} (hv : Outside v) (hL : ¬ L (path v)) (hK : ¬ K (path v)) (hflag : flag < 2 ^ 16)
    (hm : mapPage S.kallocFrame s v f flag = some s') :
    HeapOk S L K s' ∧
      Maps S L s s' v ((createValidPageTableEntry (PhysicalFrame.getPpn f) ||| flag) / 1024 % 2 ^ 52) := by
  have hlt : createValidPageTableEntry (PhysicalFrame.getPpn f) ||| flag < 2 ^ 51 := by
    apply Nat.or_lt_two_pow
    · rw [createValidPageTableEntry_eq]
      omega
    · omega
  have hok : EntryOk K (path v) (createValidPageTableEntry (PhysicalFrame.getPpn f) ||| flag) :=
    ⟨fun hl => absurd hl (by simp [path]), by omega, fun _ hKv => absurd hKv hK⟩
  obtain ⟨h', hmap⟩ := h.tree.mapPage EntryOk.table hv rfl (by omega) rfl hok (fun hLv => absurd hLv hL) hm
  have hne : ∀ x, InHeap x → ¬ path x <+: path v := fun x hx =>
    not_prefix_path fun hp => hL (hp ▸ h.owned _ ⟨x, hx, rfl⟩)
  have hleft := hmap.left
  refine ⟨h.preserved h' hmap.freeList hmap.virtualAllocEnd (by omega) ?_ ?_, hmap⟩
  · intro x hx hx'
    have hin := h.inHeap hx hx'
    rw [Mapped, hmap.satp, hmap.other _ (inside_path hin.outside) (hne x hin)]
    exact h.mapped x hx hx'
  · intro x hx hx'
    have hin := h.inHeap (h.node_inHeap hx hx').1 (h.node_inHeap hx hx').2
    exact view_owned_eq h' hmap.satp hmap.bytes hmap.mem (h.usable hin).path_owned
      (hmap.other _ (inside_path hin.outside) (hne x hin))

lemma mapNew {v f flag : ℕ} (hv : Outside v) (hnot : ¬ HeapPath (path v)) (hflag : flag < 2 ^ 10)
    (hK : K (path v) → readable (1 ||| flag) = true) (hk : s.kallocFrame S.kallocFrame = some (f, s₁))
    (hm : mapPage S.kallocFrame s₁ v f flag = some s') :
    HeapOk S L K s' ∧ ∃ n, f = 4096 * n ∧ MapsNew S L s s' v n := by
  obtain ⟨n, rfl, h', hnew⟩ := mapsNew h.tree hv hflag hK hk hm
  have hne : ∀ x, InHeap x → path x ≠ path v := fun x hx hp => hnot ⟨x, hx, hp.symm⟩
  have hleft := hnew.left
  refine ⟨h.preserved h' hnew.freeList hnew.virtualAllocEnd (by omega) ?_ ?_, n, rfl, hnew⟩
  · intro x hx hx'
    have hin := h.inHeap hx hx'
    rw [Mapped, hnew.satp, hnew.other _ (inside_path hin.outside) (not_prefix_path (hne x hin))]
    exact h.mapped x hx hx'
  · intro x hx hx'
    have hin := h.inHeap (h.node_inHeap hx hx').1 (h.node_inHeap hx hx').2
    exact hnew.view_other x (h.usable hin).path_owned (hne x hin)

end HeapOk

end TetraOS.Memory
