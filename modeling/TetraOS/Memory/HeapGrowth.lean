import TetraOS.Memory.Contiguity

/-! When `kalloc` has the frames it needs. Growing the heap takes a frame for each page and, at the first page of a
region of 512 pages, the frames of the tables that are missing there. -/

namespace TetraOS.Memory

open Library.ByteMemory Library.TableTree VirtualPage FreeSpace

variable {α : Type}

def pagesNeeded (s : State α) (size : ℕ) : ℕ := (size + 32 - (s.virtualAllocEnd - s.freeList) + 4095) / 4096

def pageFrames (s : State α) (va : ℕ) : ℕ := 1 + if va % 2 ^ 21 = 0 then missingTables s.mem s.satp va else 0

def growthFrames (s : State α) : (pages va : ℕ) → ℕ
  | 0, _ => 0
  | pages + 1, va => pageFrames s va + growthFrames s pages (va + 4096)

section Count

variable {s s' : State α} {pages va : ℕ}

lemma le_growthFrames : pages ≤ growthFrames s pages va := by
  induction pages generalizing va with
  | zero => exact Nat.zero_le _
  | succ pages ih =>
    have hrest : pages ≤ growthFrames s pages (va + 4096) := ih
    rw [growthFrames, pageFrames]
    omega

lemma growthFrames_congr (h : ∀ x, va ≤ x → x < va + 4096 * pages → x % 2 ^ 21 = 0 →
    missingTables s'.mem s'.satp x = missingTables s.mem s.satp x) :
    growthFrames s' pages va = growthFrames s pages va := by
  induction pages generalizing va with
  | zero => rfl
  | succ pages ih =>
    rw [growthFrames, growthFrames, ih fun x hx hx' => h x (by omega) (by omega), pageFrames, pageFrames]
    split
    · rename_i hregion
      rw [h va le_rfl (by omega) hregion]
    · rfl

end Count

lemma vpns_heap {a b : ℕ} (ha : InHeap a) (hb : InHeap b) :
    getVpn3 a = getVpn3 b ∧ getVpn2 a = getVpn2 b := by
  have hbounds := ha.bounds
  have hbounds' := hb.bounds
  simp only [Fin.ext_iff, getVpn3_val, getVpn2_val]
  omega

lemma Mapped.tables {s : State α} {va : ℕ} (h : Mapped s va) :
    missingTable s.mem s.satp [getVpn3 va] = 0 ∧ missingTable s.mem s.satp [getVpn3 va, getVpn2 va] = 0 := by
  have hzero := missingTables_eq_zero_iff.mpr (HasTable.of_mapped h)
  rw [missingTables] at hzero
  omega

namespace HeapOk

variable {S : FrameSource α} {L K : List (Fin 512) → Prop} {s s' : State α} (h : HeapOk S L K s)
include h

lemma missingTables_eq {va : ℕ} (hva : InHeap va) :
    missingTables s.mem s.satp va = missingTable s.mem s.satp [getVpn3 va, getVpn2 va, getVpn1 va] := by
  have hstart : InHeap heapStart := ⟨le_rfl, h.start_lt.trans_le h.end_le⟩
  obtain ⟨h₃, h₂⟩ := (h.mapped _ le_rfl h.start_lt).tables
  obtain ⟨e₃, e₂⟩ := vpns_heap hstart hva
  rw [e₃] at h₃
  rw [e₃, e₂] at h₂
  rw [missingTables, h₃, h₂, Nat.zero_add]

lemma missingTables_extended {f : ℕ} (hext : Extended S L K s s' f) {x : ℕ}
    (hx : s.virtualAllocEnd < x) (hlim : x < heapLimit) (hregion : x % 2 ^ 21 = 0) :
    missingTables s'.mem s'.satp x = missingTables s.mem s.satp x := by
  have hlo := h.start_lt
  have hin : InHeap x := ⟨by omega, hlim⟩
  have hend : InHeap s.virtualAllocEnd := ⟨hlo.le, by omega⟩
  have hnode : Inside Node [getVpn3 x, getVpn2 x, getVpn1 x] :=
    Inside.of_prefix (inside_path hin.outside) ⟨[getVpn0 x], rfl⟩
  rw [hext.heap.missingTables_eq hin, h.missingTables_eq hin, missingTable, missingTable, hext.keeps.satp,
    hext.other _ hnode (not_prefix_of_region hin hend (by omega))]

lemma pageFrames_end (hend : InHeap s.virtualAllocEnd) :
    pageFrames s s.virtualAllocEnd = 1 + missingTables s.mem s.satp s.virtualAllocEnd := by
  rw [pageFrames]
  split
  · rfl
  · rename_i hregion
    rw [missingTables_eq_zero_iff.mpr (h.hasTable_end hregion hend)]

lemma growthFrames_succ {pages f : ℕ} (hext : Extended S L K s s' f)
    (hlim : s'.virtualAllocEnd + 4096 * pages ≤ heapLimit) :
    growthFrames s (pages + 1) s.virtualAllocEnd =
      1 + missingTables s.mem s.satp s.virtualAllocEnd + growthFrames s' pages s'.virtualAllocEnd := by
  have hlo := h.start_lt
  have hend := hext.virtualAllocEnd
  rw [growthFrames, h.pageFrames_end ⟨hlo.le, by omega⟩, hend, Nat.add_left_cancel_iff]
  refine (growthFrames_congr fun x hx hx' hregion => ?_).symm
  exact h.missingTables_extended hext (by omega) (by omega) hregion

lemma growList_iff {size : ℕ} (hsize : size + 32 < 2 ^ 64) :
    (∃ fuel s', Memory.growList S.kallocFrame s.freeList size fuel s = some s') ↔
      growthFrames s (pagesNeeded s size) s.virtualAllocEnd ≤ S.left s.mem s.frames := by
  generalize hp : pagesNeeded s size = pages
  have hspace := h.space
  induction pages generalizing s with
  | zero =>
    rw [pagesNeeded] at hp
    exact ⟨fun _ => Nat.zero_le _, fun _ => ⟨1, s, h.growList_enough hsize (by omega)⟩⟩
  | succ pages ih =>
    have hlt : s.virtualAllocEnd - s.freeList < size + 32 := by
      rw [pagesNeeded] at hp
      omega
    have hroom := h.room
    have hlo := h.start_lt
    constructor
    · rintro ⟨fuel, s', hg⟩
      cases fuel with
      | zero => cases hg
      | succ fuel =>
        obtain ⟨f, s₁, s₂, hk, hm⟩ := h.growList_draws hsize hlt hg
        obtain ⟨s₃, hloop, hext⟩ := h.growList_step hsize hlt hk hm
        have hfl := hext.freeList
        have hend := hext.virtualAllocEnd
        have hleft := hext.left
        rw [hloop] at hg
        have hp₃ : pagesNeeded s₃ size = pages := by
          rw [pagesNeeded] at hp ⊢
          omega
        have hrest := (ih hext.heap hp₃ hext.heap.space).mp ⟨fuel, s', hg⟩
        have hroom₃ := hext.heap.room
        have hpages : pages ≤ growthFrames s₃ pages s₃.virtualAllocEnd := le_growthFrames
        rw [h.growthFrames_succ hext (by omega)]
        omega
    · intro hle
      have hpages : pages + 1 ≤ growthFrames s (pages + 1) s.virtualAllocEnd := le_growthFrames
      have hend : InHeap s.virtualAllocEnd := ⟨hlo.le, by omega⟩
      have hfirst := h.pageFrames_end hend
      obtain ⟨f, s₁, s₂, hk, hm⟩ := mapsNew_isSome h.tree hend.outside 0xF (by rw [growthFrames] at hle; omega)
      obtain ⟨s₃, hloop, hext⟩ := h.growList_step hsize hlt hk hm
      have hfl := hext.freeList
      have hend₃ := hext.virtualAllocEnd
      have hleft := hext.left
      have hp₃ : pagesNeeded s₃ size = pages := by
        rw [pagesNeeded] at hp ⊢
        omega
      rw [h.growthFrames_succ hext (by omega)] at hle
      obtain ⟨fuel, s', hg⟩ := (ih hext.heap hp₃ hext.heap.space).mpr (by omega)
      exact ⟨fuel + 1, s', (hloop fuel).trans hg⟩

lemma kalloc_iff {size : ℕ} (hsize : size + 32 < 2 ^ 64) :
    (∃ fuel p s', Memory.kalloc S.kallocFrame fuel s size = some (p, s')) ↔
      growthFrames s (pagesNeeded s size) s.virtualAllocEnd ≤ S.left s.mem s.frames := by
  rw [← h.growList_iff hsize]
  constructor
  · rintro ⟨fuel, p, s', hk⟩
    obtain ⟨s₁, rfl | ⟨fuel', hg⟩, _, _, hfit, _⟩ := h.kalloc_parts hsize hk
    · exact ⟨1, s₁, h.growList_enough hsize (by omega)⟩
    · exact ⟨fuel', s₁, hg⟩
  · rintro ⟨fuel, s₁, hg⟩
    cases fuel with
    | zero => cases hg
    | succ fuel =>
      obtain ⟨h₁, hfl, hfit, _⟩ := h.growList hsize hg
      obtain ⟨s', hs', _⟩ := h₁.splitBlock hsize hfit
      rw [hfl] at hs'
      refine ⟨fuel + 1, s.freeList + 16, s', ?_⟩
      rw [h.kalloc_eq hsize]
      split
      · rw [hg, Option.bind_some, hs']
      · rename_i hfits
        have hspace := h.space
        rw [h.growList_enough hsize (by omega)] at hg
        obtain rfl := Option.some.inj hg
        rw [Option.bind_some, hs']

end HeapOk

end TetraOS.Memory
