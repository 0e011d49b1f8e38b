import TetraOS.Memory.PageTree

/-! The tables `paging_init` builds: a root with one entry, and a second table whose first four entries
map the first four gigabytes of physical memory. -/

namespace TetraOS.Memory

open Library.ByteMemory Library.TableTree VirtualPage PageTable

variable {α : Type}

section Setup

variable {m : Memory} {n₁ n₂ : ℕ} (h₁ : n₁ < 2 ^ 20) (h₂ : n₂ < 2 ^ 20)

lemma getPpn_tableAddress {n : ℕ} (h : n < 2 ^ 20) : getPpn (tableAddress n) = n := by
  have hp : physical (tableAddress n) = 4096 * n := by
    have hh := physical_direct (p := 4096 * n) (x := 0) (by omega)
    rwa [Nat.add_zero, Nat.add_zero, ← tableAddress_eq] at hh
  rw [getPpn, hp, show (0xFFFFFFFFFFF : ℕ) = 2 ^ 44 - 1 from rfl, Nat.and_two_pow_sub_one_eq_mod,
    Nat.shiftRight_eq_div_pow]
  omega

include h₁ h₂

lemma mapPageForSetup_eq {i : ℕ} (hi : i < 4) :
    mapPageForSetup m (tableAddress n₁) (tableAddress n₂) (virtualOffset + i * gigabyteBytes) (i * gigabyteBytes) =
      store (store m 8 (4096 * n₁ + 8 * (256 : Fin 512)) (n₂ * 1024 + 1)) 8
        (4096 * n₂ + 8 * (⟨i, by omega⟩ : Fin 512)) (i * 2 ^ 28 + 15) := by
  have hv₃ : getVpn3 (virtualOffset + i * gigabyteBytes) = 256 := by
    apply Fin.ext
    rw [getVpn3_val]
    simp only [virtualOffset, gigabyteBytes]
    change _ = 256
    omega
  have hv₂ : getVpn2 (virtualOffset + i * gigabyteBytes) = ⟨i, by omega⟩ := by
    apply Fin.ext
    rw [getVpn2_val]
    simp only [virtualOffset, gigabyteBytes]
    omega
  have he₁ : createValidPageTableEntry n₂ = n₂ * 1024 + 1 := by
    rw [createValidPageTableEntry_eq]
    omega
  have he₂ : createValidPageTableEntry (PhysicalFrame.getPpn (i * gigabyteBytes)) ||| 0xF = i * 2 ^ 28 + 15 := by
    rw [leafEntry_eq (by decide), PhysicalFrame.getPpn_eq, show (1 ||| 0xF : ℕ) = 15 from rfl]
    simp only [gigabyteBytes]
    omega
  rw [mapPageForSetup, hv₃, hv₂, he₂, getPpn_tableAddress h₂, he₁, setEntry_tableAddress (by omega),
    setEntry_tableAddress (by omega)]

lemma setupLoop_entry (hne : n₁ ≠ n₂) (t : ℕ) (j : Fin 512) :
    entry (setupLoop m (tableAddress n₁) (tableAddress n₂)) t j =
      if t = n₁ ∧ j = 256 then n₂ * 1024 + 1 else
      if t = n₂ ∧ j.val < 4 then j.val * 2 ^ 28 + 15 else entry m t j := by
  have hstep : ∀ (m : Memory) (i : ℕ) (hi : i < 4), entry (mapPageForSetup m (tableAddress n₁) (tableAddress n₂)
      (virtualOffset + i * gigabyteBytes) (i * gigabyteBytes)) t j =
      if t = n₂ ∧ j.val = i then i * 2 ^ 28 + 15 else
      if t = n₁ ∧ j = 256 then n₂ * 1024 + 1 else entry m t j := by
    intro m i hi
    rw [mapPageForSetup_eq h₁ h₂ hi, entry_store (by omega), entry_store (by omega)]
    simp only [Fin.ext_iff]
  have hloop : setupLoop m (tableAddress n₁) (tableAddress n₂) = mapPageForSetup (mapPageForSetup (mapPageForSetup
      (mapPageForSetup m (tableAddress n₁) (tableAddress n₂) (virtualOffset + 0 * gigabyteBytes) (0 * gigabyteBytes))
      (tableAddress n₁) (tableAddress n₂) (virtualOffset + 1 * gigabyteBytes) (1 * gigabyteBytes))
      (tableAddress n₁) (tableAddress n₂) (virtualOffset + 2 * gigabyteBytes) (2 * gigabyteBytes))
      (tableAddress n₁) (tableAddress n₂) (virtualOffset + 3 * gigabyteBytes) (3 * gigabyteBytes) := rfl
  rw [hloop, hstep _ 3 (by decide), hstep _ 2 (by decide), hstep _ 1 (by decide), hstep _ 0 (by decide)]
  by_cases ht₁ : t = n₁
  · subst ht₁
    simp only [hne, false_and, if_false, true_and]
    split_ifs <;> rfl
  · simp only [ht₁, false_and, if_false]
    by_cases ht₂ : t = n₂
    · simp only [ht₂, true_and]
      split_ifs <;> omega
    · simp only [ht₂, false_and, if_false]

lemma setupLoop_outside {x : ℕ} (hx₁ : x / 4096 ≠ n₁) (hx₂ : x / 4096 ≠ n₂) :
    setupLoop m (tableAddress n₁) (tableAddress n₂) x = m x := by
  have hstep : ∀ (m : Memory) (i : ℕ) (hi : i < 4), mapPageForSetup m (tableAddress n₁) (tableAddress n₂)
      (virtualOffset + i * gigabyteBytes) (i * gigabyteBytes) x = m x := by
    intro m i hi
    rw [mapPageForSetup_eq h₁ h₂ hi, store_outside (by omega), store_outside (by omega)]
  have hloop : ∀ (l : List ℕ) (m : Memory), (∀ i ∈ l, i < 4) → l.foldl (fun m i => mapPageForSetup m
      (tableAddress n₁) (tableAddress n₂) (virtualOffset + i * gigabyteBytes) (i * gigabyteBytes)) m x = m x := by
    intro l
    induction l with
    | nil => exact fun _ _ => rfl
    | cons i l ih =>
      intro m hl
      rw [List.foldl_cons, ih _ (fun j hj => hl j (List.mem_cons_of_mem i hj)), hstep m i (hl i List.mem_cons_self)]
  exact hloop _ m (fun i hi => List.mem_range.mp hi)

lemma setupLoop_slot_first (hne : n₁ ≠ n₂) (hz : ∀ j, j ≠ 256 → slot m n₁ j = none) (j : Fin 512) :
    slot (setupLoop m (tableAddress n₁) (tableAddress n₂)) n₁ j = if j = 256 then some n₂ else none := by
  rw [slot, setupLoop_entry h₁ h₂ hne]
  by_cases hj : j = 256
  · rw [if_pos ⟨rfl, hj⟩, if_pos hj, target, if_pos (by omega)]
    congr 1
    omega
  · rw [if_neg (fun hh => hj hh.2), if_neg (fun hh => hne hh.1), if_neg hj, ← slot, hz j hj]

lemma setupLoop_slot_second (hne : n₁ ≠ n₂) {j : Fin 512} (hz : slot m n₂ j = none) (hj : ¬ j.val < 4) :
    slot (setupLoop m (tableAddress n₁) (tableAddress n₂)) n₂ j = none := by
  rw [slot, setupLoop_entry h₁ h₂ hne, if_neg (fun hh => hne hh.1.symm), if_neg (fun hh => hj hh.2), ← slot, hz]

end Setup

section Walks

variable {m : Memory} {n₁ n₂ : ℕ} (hfirst : ∀ j, slot m n₁ j = if j = 256 then some n₂ else none)
include hfirst

lemma walk_second : walk (slot m) n₁ [256] = some n₂ := by
  rw [walk_cons, hfirst, if_pos rfl, Option.bind_some, walk_nil]

variable (hsecond : ∀ j : Fin 512, ¬ j.val < 4 → slot m n₂ j = none)
include hsecond

lemma walk_eq_none_of_two {q : List (Fin 512)} (hq : ¬ DirectMapped q) (hq₁ : q ≠ []) (hq₂ : q ≠ [256]) :
    walk (slot m) n₁ q = none := by
  rcases q with _ | ⟨i, q⟩
  · exact absurd rfl hq₁
  rw [walk_cons, hfirst]
  by_cases hi : i = 256
  · rw [if_pos hi, Option.bind_some]
    rcases q with _ | ⟨j, rest⟩
    · exact absurd (by rw [hi]) hq₂
    · have hj : ¬ j.val < 4 := fun hj => hq ⟨j, rest, by rw [hi], hj⟩
      rw [walk_cons, hsecond j hj, Option.bind_none]
  · rw [if_neg hi, Option.bind_none]

lemma walk_cases_of_two {p : List (Fin 512)} {t : ℕ} (hp : ¬ DirectMapped p) (hw : walk (slot m) n₁ p = some t) :
    (p = [] ∧ t = n₁) ∨ (p = [256] ∧ t = n₂) := by
  by_cases h₁ : p = []
  · rw [h₁, walk_nil] at hw
    exact Or.inl ⟨h₁, (Option.some.inj hw).symm⟩
  · by_cases h₂ : p = [256]
    · rw [h₂, walk_second hfirst] at hw
      exact Or.inr ⟨h₂, (Option.some.inj hw).symm⟩
    · rw [walk_eq_none_of_two hfirst hsecond hp h₁ h₂] at hw
      cases hw

lemma inj_of_two (hne : n₁ ≠ n₂) {p q : List (Fin 512)} {t : ℕ} (hp : ¬ DirectMapped p) (hq : ¬ DirectMapped q)
    (hwp : walk (slot m) n₁ p = some t) (hwq : walk (slot m) n₁ q = some t) : p = q := by
  rcases walk_cases_of_two hfirst hsecond hp hwp with ⟨rfl, rfl⟩ | ⟨rfl, rfl⟩ <;>
    rcases walk_cases_of_two hfirst hsecond hq hwq with ⟨rfl, hh⟩ | ⟨rfl, hh⟩
  · rfl
  · exact absurd hh hne
  · exact absurd hh.symm hne
  · rfl

lemma valid_of_two {p : List (Fin 512)} {t : ℕ} {i : Fin 512} (hp : Node p) (hw : walk (slot m) n₁ p = some t)
    (hd : ¬ DirectMapped (p ++ [i])) (hv : entry m t i % 2 = 1) : p = [] ∧ t = n₁ ∧ i = 256 := by
  have hslot : slot m t i ≠ none := by
    rw [slot, target, if_pos hv]
    exact Option.some_ne_none _
  rcases walk_cases_of_two hfirst hsecond hp.2 hw with ⟨rfl, rfl⟩ | ⟨rfl, rfl⟩
  · rw [hfirst] at hslot
    exact ⟨rfl, rfl, by_contra fun hi => hslot (if_neg hi)⟩
  · exact absurd (hsecond i fun hi => hd ⟨i, [], rfl, hi⟩) hslot

end Walks

lemma pagingInit_cases {k : FrameAlloc α} {s s' : State α} (h : pagingInit k s = some s') :
    ∃ f₁ s₁ f₂ s₂ T₁ T₂, s.kallocFrame k = some (f₁, s₁) ∧ s₁.kallocFrame k = some (f₂, s₂) ∧
      T₁ = (f₁ + virtualOffset) % 2 ^ 64 ∧ T₂ = (f₂ + virtualOffset) % 2 ^ 64 ∧
      s' = { s₂ with mem := setupLoop s₂.mem T₁ T₂, firstLevelTable := T₁, satp := PhysicalFrame.getPpn f₁ } := by
  simp only [pagingInit, Option.bind_eq_bind, Option.bind_eq_some_iff, Option.some.injEq] at h
  obtain ⟨⟨f₁, s₁⟩, h₁, ⟨f₂, s₂⟩, h₂, rfl⟩ := h
  exact ⟨f₁, s₁, f₂, s₂, _, _, h₁, h₂, rfl, rfl, rfl⟩

lemma kallocFrame_zero {S : FrameSource α} {s s' : State α} {f : ℕ} (hgood : S.Good s.mem s.frames)
    (hzero : ∀ t, S.Free s.mem s.frames t → Zero s.mem (4096 * t) 4096)
    (hk : s.kallocFrame S.kallocFrame = some (f, s')) :
    ∃ n, f = 4096 * n ∧ S.Free s.mem s.frames n ∧ ¬ S.Free s'.mem s'.frames n ∧
      (∀ t, S.Free s'.mem s'.frames t → S.Free s.mem s.frames t) ∧ S.Good s'.mem s'.frames ∧
      (∀ x, S.Bytes s'.frames x ↔ S.Bytes s.frames x) ∧ (∀ x, ¬ S.Bytes s.frames x → s'.mem x = s.mem x) ∧
      (∀ t, S.Free s.mem s.frames t → Zero s'.mem (4096 * t) 4096) ∧
      S.left s.mem s.frames = S.left s'.mem s'.frames + 1 ∧
      s'.freeList = s.freeList ∧ s'.virtualAllocEnd = s.virtualAllocEnd := by
  obtain ⟨⟨f', m', a'⟩, hk', heq⟩ := Option.map_eq_some_iff.mp hk
  obtain ⟨rfl, rfl⟩ := Prod.mk.inj heq
  obtain ⟨n, rfl, hn, hn', hfree, hgood', hmem, hbytes, hleft⟩ := S.step hgood hk'
  refine ⟨n, rfl, hn, hn', hfree, hgood', hbytes, hmem, ?_, hleft, rfl, rfl⟩
  intro t ht x hx hx'
  have hpage : x / 4096 = t := by omega
  exact (hmem x fun hb => S.apart hgood ht hb hpage).trans (hzero t ht x hx hx')

structure Drawn (S : FrameSource α) (s s₂ : State α) (n₁ n₂ : ℕ) : Prop where
  good : S.Good s₂.mem s₂.frames
  low₁ : n₁ < 2 ^ 20
  low₂ : n₂ < 2 ^ 20
  ne : n₁ ≠ n₂
  taken₁ : ¬ S.Free s₂.mem s₂.frames n₁
  taken₂ : ¬ S.Free s₂.mem s₂.frames n₂
  bytes : ∀ x, S.Bytes s₂.frames x ↔ S.Bytes s.frames x
  apart₁ : ∀ x, S.Bytes s₂.frames x → x / 4096 ≠ n₁
  apart₂ : ∀ x, S.Bytes s₂.frames x → x / 4096 ≠ n₂
  zero₁ : Zero s₂.mem (4096 * n₁) 4096
  zero₂ : Zero s₂.mem (4096 * n₂) 4096
  zero : ∀ t, S.Free s₂.mem s₂.frames t → Zero s₂.mem (4096 * t) 4096
  freeList : s₂.freeList = s.freeList
  virtualAllocEnd : s₂.virtualAllocEnd = s.virtualAllocEnd
  left : S.left s.mem s.frames = S.left s₂.mem s₂.frames + 2

lemma drawn_of_kallocFrame {S : FrameSource α} {s s₁ s₂ : State α} {f₁ f₂ : ℕ} (hgood : S.Good s.mem s.frames)
    (hzero : ∀ t, S.Free s.mem s.frames t → Zero s.mem (4096 * t) 4096)
    (hk₁ : s.kallocFrame S.kallocFrame = some (f₁, s₁)) (hk₂ : s₁.kallocFrame S.kallocFrame = some (f₂, s₂)) :
    ∃ n₁ n₂, f₁ = 4096 * n₁ ∧ f₂ = 4096 * n₂ ∧ Drawn S s s₂ n₁ n₂ := by
  obtain ⟨n₁, rfl, hf₁, hf₁', hsub₁, hg₁, hb₁, hm₁, hz₁, hl₁, hfl₁, hve₁⟩ := kallocFrame_zero hgood hzero hk₁
  obtain ⟨n₂, rfl, hf₂, hf₂', hsub₂, hg₂, hb₂, hm₂, hz₂, hl₂, hfl₂, hve₂⟩ :=
    kallocFrame_zero hg₁ (fun t ht => hz₁ t (hsub₁ t ht)) hk₂
  have hapart₁ : ∀ x, S.Bytes s₁.frames x → x / 4096 ≠ n₁ := fun x hx => S.apart hgood hf₁ ((hb₁ x).mp hx)
  refine ⟨n₁, n₂, rfl, rfl, ⟨hg₂, S.low hgood hf₁, S.low hg₁ hf₂, ?_, fun hf => hf₁' (hsub₂ _ hf), hf₂',
    fun x => (hb₂ x).trans (hb₁ x), fun x hx => hapart₁ x ((hb₂ x).mp hx),
    fun x hx => S.apart hg₁ hf₂ ((hb₂ x).mp hx), ?_, hz₂ n₂ hf₂, fun t ht => hz₂ t (hsub₂ t ht),
    hfl₂.trans hfl₁, hve₂.trans hve₁, by omega⟩⟩
  · rintro rfl
    exact hf₁' hf₂
  · intro x hx hx'
    have hpage : x / 4096 = n₁ := by omega
    rw [hm₂ x fun hb => hapart₁ x hb hpage]
    exact hz₁ n₁ hf₁ x hx hx'

structure Built (S : FrameSource α) (s s' : State α) (n₁ n₂ : ℕ) : Prop where
  satp : s'.satp = n₁
  freeList : s'.freeList = s.freeList
  virtualAllocEnd : s'.virtualAllocEnd = s.virtualAllocEnd
  bytes : ∀ x, S.Bytes s'.frames x ↔ S.Bytes s.frames x
  second : walk (slot s'.mem) n₁ [256] = some n₂
  empty : ∀ q, ¬ DirectMapped q → q ≠ [] → q ≠ [256] → walk (slot s'.mem) n₁ q = none
  left : S.left s.mem s.frames = S.left s'.mem s'.frames + 2

namespace Drawn

variable {S : FrameSource α} {L : List (Fin 512) → Prop} {Ok : List (Fin 512) → ℕ → Prop} {s s₂ : State α} {n₁ n₂ : ℕ}
  (h : Drawn S s s₂ n₁ n₂)
include h

lemma outside {x : ℕ} (hx₁ : x / 4096 ≠ n₁) (hx₂ : x / 4096 ≠ n₂) :
    setupLoop s₂.mem (tableAddress n₁) (tableAddress n₂) x = s₂.mem x := setupLoop_outside h.low₁ h.low₂ hx₁ hx₂

lemma records (x : ℕ) (hx : S.Bytes s₂.frames x) :
    setupLoop s₂.mem (tableAddress n₁) (tableAddress n₂) x = s₂.mem x := h.outside (h.apart₁ x hx) (h.apart₂ x hx)

lemma slot_first (j : Fin 512) :
    slot (setupLoop s₂.mem (tableAddress n₁) (tableAddress n₂)) n₁ j = if j = 256 then some n₂ else none :=
  setupLoop_slot_first h.low₁ h.low₂ h.ne (fun _ _ => slot_zero h.zero₁) j

lemma slot_second (j : Fin 512) (hj : ¬ j.val < 4) :
    slot (setupLoop s₂.mem (tableAddress n₁) (tableAddress n₂)) n₂ j = none :=
  setupLoop_slot_second h.low₁ h.low₂ h.ne (slot_zero h.zero₂) hj

lemma walk_cases {p : List (Fin 512)} {t : ℕ} (hp : ¬ DirectMapped p)
    (hw : walk (slot (setupLoop s₂.mem (tableAddress n₁) (tableAddress n₂))) n₁ p = some t) :
    (p = [] ∧ t = n₁) ∨ (p = [256] ∧ t = n₂) :=
  walk_cases_of_two h.slot_first h.slot_second hp hw

lemma built : Built S s ⟨setupLoop s₂.mem (tableAddress n₁) (tableAddress n₂), s₂.frames, n₁, tableAddress n₁,
    s₂.freeList, s₂.virtualAllocEnd⟩ n₁ n₂ := by
  refine ⟨rfl, h.freeList, h.virtualAllocEnd, h.bytes, walk_second h.slot_first, fun q => ?_, ?_⟩
  · exact walk_eq_none_of_two h.slot_first h.slot_second
  · exact h.left.trans (congrArg (· + 2) (S.local_left h.good h.records).symm)

lemma tree (hok : ∀ q n, q.length < 4 → n < 2 ^ 20 → Ok q (n * 1024 + 1)) :
    Tree S L Ok ⟨setupLoop s₂.mem (tableAddress n₁) (tableAddress n₂), s₂.frames, n₁, tableAddress n₁,
      s₂.freeList, s₂.virtualAllocEnd⟩ := by
  have hentry := setupLoop_entry (m := s₂.mem) h.low₁ h.low₂ h.ne
  have hfree := fun t => S.local_free (n := t) h.good h.records
  refine ⟨rfl, S.local_good h.good h.records, ?_, ?_, ?_, ?_, ?_, ?_, n₂, h.built.second, fun j hj => ?_⟩
  · exact fun p q t hp hq hwp hwq => inj_of_two h.slot_first h.slot_second h.ne hp.1 hq.1 hwp hwq
  · intro p t hp hw
    rcases h.walk_cases hp.1 hw with ⟨rfl, rfl⟩ | ⟨rfl, rfl⟩
    · exact h.low₁
    · exact h.low₂
  · intro p t hp hw hf
    rw [hfree] at hf
    rcases h.walk_cases hp.1 hw with ⟨rfl, rfl⟩ | ⟨rfl, rfl⟩
    · exact h.taken₁ hf
    · exact h.taken₂ hf
  · intro p t x hp hw hx
    rcases h.walk_cases hp.1 hw with ⟨rfl, rfl⟩ | ⟨rfl, rfl⟩
    · exact h.apart₁ x hx
    · exact h.apart₂ x hx
  · intro t ht x hx hx'
    rw [hfree] at ht
    have hpage : x / 4096 = t := by omega
    refine (h.outside ?_ ?_).trans (h.zero t ht x hx hx')
    · rintro rfl
      exact h.taken₁ (hpage ▸ ht)
    · rintro rfl
      exact h.taken₂ (hpage ▸ ht)
  · intro p t i hp hw hd hv
    obtain ⟨rfl, rfl, rfl⟩ := valid_of_two h.slot_first h.slot_second hp hw hd hv
    rw [hentry, if_pos ⟨rfl, rfl⟩]
    exact hok _ _ (by simp) h.low₂
  · rw [hentry, if_neg (fun hh => h.ne hh.1.symm), if_pos ⟨rfl, hj⟩]

end Drawn

lemma pagingInit_spec {S : FrameSource α} {L : List (Fin 512) → Prop} {Ok : List (Fin 512) → ℕ → Prop}
    (hok : ∀ q n, q.length < 4 → n < 2 ^ 20 → Ok q (n * 1024 + 1)) {s s' : State α}
    (hgood : S.Good s.mem s.frames) (hzero : ∀ t, S.Free s.mem s.frames t → Zero s.mem (4096 * t) 4096)
    (hk : pagingInit S.kallocFrame s = some s') :
    ∃ n₁ s₁ n₂ s₂, s.kallocFrame S.kallocFrame = some (4096 * n₁, s₁) ∧
      s₁.kallocFrame S.kallocFrame = some (4096 * n₂, s₂) ∧ s'.frames = s₂.frames ∧
      Tree S L Ok s' ∧ Built S s s' n₁ n₂ := by
  obtain ⟨f₁, s₁, f₂, s₂, T₁, T₂, hk₁, hk₂, hT₁, hT₂, hs⟩ := pagingInit_cases hk
  obtain ⟨n₁, n₂, rfl, rfl, hdrawn⟩ := drawn_of_kallocFrame hgood hzero hk₁ hk₂
  have hppn : PhysicalFrame.getPpn (4096 * n₁) = n₁ := by
    rw [PhysicalFrame.getPpn_eq]
    exact Nat.mul_div_cancel_left n₁ (by decide)
  rw [← tableAddress_eq] at hT₁ hT₂
  rw [hT₁, hT₂, hppn] at hs
  subst hs
  exact ⟨n₁, s₁, n₂, s₂, hk₁, hk₂, rfl, hdrawn.tree hok, hdrawn.built⟩

lemma pagingInit_mem {S : FrameSource α} {s s' : State α} (hgood : S.Good s.mem s.frames)
    (hzero : ∀ t, S.Free s.mem s.frames t → Zero s.mem (4096 * t) 4096) (hk : pagingInit S.kallocFrame s = some s')
    {x : ℕ} (hb : ¬ S.Bytes s.frames x) (hf : ¬ S.Free s.mem s.frames (x / 4096)) : s'.mem x = s.mem x := by
  obtain ⟨f₁, s₁, f₂, s₂, T₁, T₂, hk₁, hk₂, hT₁, hT₂, hs⟩ := pagingInit_cases hk
  obtain ⟨n₁, rfl, hf₁, _, hsub₁, hg₁, hb₁, hm₁, hz₁, _⟩ := kallocFrame_zero hgood hzero hk₁
  obtain ⟨n₂, rfl, hf₂, _, _, _, _, hm₂, _⟩ := kallocFrame_zero hg₁ (fun t ht => hz₁ t (hsub₁ t ht)) hk₂
  rw [← tableAddress_eq] at hT₁ hT₂
  have hne₁ : x / 4096 ≠ n₁ := fun h => hf (h ▸ hf₁)
  have hne₂ : x / 4096 ≠ n₂ := fun h => hf (hsub₁ _ (h ▸ hf₂))
  rw [← hm₁ x hb, ← hm₂ x fun h => hb ((hb₁ x).mp h), hs, hT₁, hT₂]
  exact setupLoop_outside (S.low hgood hf₁) (S.low hg₁ hf₂) hne₁ hne₂

lemma pagingInit_isSome {S : FrameSource α} {s : State α} (hgood : S.Good s.mem s.frames)
    (hl : 2 ≤ S.left s.mem s.frames) : ∃ s', pagingInit S.kallocFrame s = some s' := by
  obtain ⟨⟨f₁, m₁, a₁⟩, hk₁⟩ := Option.isSome_iff_exists.mp (S.isSome hgood (by omega))
  obtain ⟨n₁, _, _, _, _, hgood₁, _, _, hl₁⟩ := S.step hgood hk₁
  obtain ⟨⟨f₂, m₂, a₂⟩, hk₂⟩ := Option.isSome_iff_exists.mp (S.isSome hgood₁ (by omega))
  exact ⟨_, by
    simp only [pagingInit, State.kallocFrame, hk₁, hk₂, Option.map_some, Option.bind_eq_bind, Option.bind_some]
    rfl⟩

end TetraOS.Memory
