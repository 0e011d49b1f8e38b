import TetraOS.Memory.KernelHeap

/-! What writing a run of bytes, and `memcpy`, do to the pages of the address space. -/

namespace TetraOS.Memory

open Library.ByteMemory Library.TableTree VirtualPage

variable {α : Type}

def fillBytes (s : State α) (dest : ℕ) (b : ℕ → UInt8) : ℕ → Option (State α)
  | 0 => some s
  | n + 1 => do
    let s ← fillBytes s dest b n
    storeByte s (dest + n) (b n)

def patch (m : Memory) (dest : ℕ) (b : ℕ → UInt8) (n : ℕ) : Memory :=
  fun x => if dest ≤ x ∧ x < dest + n then b (x - dest) else m x

lemma patch_inside {m : Memory} {dest n i : ℕ} {b : ℕ → UInt8} (hi : i < n) : patch m dest b n (dest + i) = b i := by
  rw [patch, if_pos ⟨by omega, by omega⟩, Nat.add_sub_cancel_left]

lemma patch_outside {m : Memory} {dest n x : ℕ} {b : ℕ → UInt8} (hx : x < dest ∨ dest + n ≤ x) :
    patch m dest b n x = m x := by
  rw [patch, if_neg (by omega)]

section Copy

variable {S : FrameSource α} {L K : List (Fin 512) → Prop} {s s' : State α} {dest src n : ℕ} {b : ℕ → UInt8}

structure Wrote (S : FrameSource α) (L K : List (Fin 512) → Prop) (s s' : State α) (m : Memory) : Prop where
  tree : Tree S L (EntryOk K) s'
  same : SameTables S s s'
  view : ∀ x, Outside x → Canonical x → L (path x) → view s' x = m x

lemma fillBytes_eq (h : Tree S L (EntryOk K) s) (hu : ∀ x, dest ≤ x → x < dest + n → Usable L K x)
    (hm : ∀ x, dest ≤ x → x < dest + n → Mapped s x) :
    ∃ s', fillBytes s dest b n = some s' ∧ Wrote S L K s s' (patch (view s) dest b n) := by
  induction n with
  | zero =>
    exact ⟨s, rfl, h, SameTables.refl s, fun x _ _ _ => (patch_outside (by omega)).symm⟩
  | succ n ih =>
    obtain ⟨s₁, hs₁, h₁⟩ := ih (fun x hx hx' => hu x hx (by omega)) (fun x hx hx' => hm x hx (by omega))
    have hlast := hu (dest + n) (by omega) (by omega)
    have hm₁ : Mapped s₁ (dest + n) := (h₁.same.mapped hlast.outside).mpr (hm _ (by omega) (by omega))
    obtain ⟨s₂, hs₂, h₂, hsame₂, hv₂⟩ := storeByte_eq h₁.tree (b := b n) hlast hm₁
    refine ⟨s₂, by rw [fillBytes, hs₁]; exact hs₂, h₂, h₁.same.trans hsame₂, ?_⟩
    intro x hx hc hL
    rw [hv₂ x hx hc hL, h₁.view x hx hc hL]
    by_cases hxn : x = dest + n
    · rw [if_pos hxn, hxn, patch_inside (by omega)]
    · rw [if_neg hxn, patch, patch]
      by_cases hin : dest ≤ x ∧ x < dest + n
      · rw [if_pos hin, if_pos (by omega)]
      · rw [if_neg hin, if_neg (by omega)]

lemma memcpy_eq_fillBytes (h : Tree S L (EntryOk K) s) (hu : ∀ x, dest ≤ x → x < dest + n → Usable L K x)
    (hm : ∀ x, dest ≤ x → x < dest + n → Mapped s x) (hus : ∀ x, src ≤ x → x < src + n → Usable L K x)
    (hms : ∀ x, src ≤ x → x < src + n → Mapped s x) (hapart : src + n ≤ dest ∨ dest + n ≤ src) :
    memcpy s dest src n = fillBytes s dest (fun i => view s (src + i)) n := by
  have hpart : ∀ k ≤ n, memcpy s dest src k = fillBytes s dest (fun i => view s (src + i)) k := by
    intro k hk
    induction k with
    | zero => rfl
    | succ k ih =>
      obtain ⟨s₁, hs₁, h₁⟩ := fillBytes_eq (b := fun i => view s (src + i)) (n := k) h
        (fun x hx hx' => hu x hx (by omega)) (fun x hx hx' => hm x hx (by omega))
      have hsrc := hus (src + k) (by omega) (by omega)
      have hm₁ : Mapped s₁ (src + k) := (h₁.same.mapped hsrc.outside).mpr (hms _ (by omega) (by omega))
      have hload : loadByte s₁ (src + k) = some (view s (src + k)) := by
        rw [loadByte_eq h₁.tree hsrc hm₁, h₁.view _ hsrc.outside hsrc.canonical hsrc.owned, patch_outside (by omega)]
      rw [memcpy, fillBytes, ih (by omega), hs₁]
      simp only [Option.bind_eq_bind, Option.bind_some, hload]
  exact hpart n le_rfl

lemma memcpy_eq (h : Tree S L (EntryOk K) s) (hu : ∀ x, dest ≤ x → x < dest + n → Usable L K x)
    (hm : ∀ x, dest ≤ x → x < dest + n → Mapped s x) (hus : ∀ x, src ≤ x → x < src + n → Usable L K x)
    (hms : ∀ x, src ≤ x → x < src + n → Mapped s x) (hapart : src + n ≤ dest ∨ dest + n ≤ src) :
    ∃ s', memcpy s dest src n = some s' ∧
      Wrote S L K s s' (patch (view s) dest (fun i => view s (src + i)) n) := by
  rw [memcpy_eq_fillBytes h hu hm hus hms hapart]
  exact fillBytes_eq h hu hm

lemma Wrote.heap (h : HeapOk S L K s) (hw : Wrote S L K s s' (patch (Memory.view s) dest b n))
    (hnode : dest + n ≤ s.freeList ∨ s.freeList + 8 ≤ dest) : HeapOk S L K s' := by
  refine h.preserved hw.tree hw.same.freeList hw.same.virtualAllocEnd (hw.same.left h.tree.good).le ?_ ?_
  · exact fun x hx hx' => (hw.same.mapped (h.inHeap hx hx').outside).mpr (h.mapped x hx hx')
  · intro x hx hx'
    have hu := h.node_usable x hx hx'
    rw [hw.view x hu.outside hu.canonical hu.owned, patch_outside (by omega)]

end Copy

end TetraOS.Memory
