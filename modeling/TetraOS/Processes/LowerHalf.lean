import TetraOS.Memory.HeapRuns
import TetraOS.Memory.Copying
import TetraOS.Processes.Segments
import TetraOS.Processes.Scheduler

/-! What the steps of `submit_new_process` do to the lower half of the address space, and to the bytes that the
kernel heap has handed out. -/

namespace TetraOS.Processes

open Memory Library.ByteMemory Library.TableTree VirtualPage

variable {α : Type} {S : FrameSource α} {s s₁ s' s'' : State α}

abbrev Kernel (S : FrameSource α) (s : State α) : Prop := HeapOk S Everywhere Everywhere s

lemma usable_of_lower {x : ℕ} (hx : x < 2 ^ 47) : Usable Everywhere Everywhere x :=
  ⟨outside_of_lower hx, Or.inl hx, trivial, trivial⟩

lemma path_eq_iff_of_lower {x y : ℕ} (hx : x < 2 ^ 47) (hy : y < 2 ^ 47) : path x = path y ↔ x / 4096 = y / 4096 := by
  rw [VirtualPage.path_eq_iff, pageOf, pageOf]
  omega

lemma loadByte_eq_none {K : List (Fin 512) → Prop} (h : Tree S Everywhere (EntryOk K) s) {x : ℕ}
    (hx : Usable Everywhere K x)
    (hm : ¬ Mapped s x) : loadByte s x = none := by
  rw [Mapped, Option.not_isSome_iff_eq_none] at hm
  rw [loadByte, translate_eq_walk h hx.outside hx.canonical hx.leaf, hm]
  rfl

lemma mapped_of_loadByte {K : List (Fin 512) → Prop} (h : Tree S Everywhere (EntryOk K) s) {x : ℕ}
    (hx : Usable Everywhere K x) (hs : (loadByte s x).isSome) : Mapped s x := by
  by_contra hm
  rw [loadByte_eq_none h hx hm] at hs
  cases hs

lemma loadByte_congr (h : Kernel S s) (h' : Kernel S s') {x : ℕ} (hx : x < 2 ^ 47) (hsatp : s'.satp = s.satp)
    (hw : walk (slot s'.mem) s.satp (path x) = walk (slot s.mem) s.satp (path x)) (hv : view s' x = view s x) :
    loadByte s' x = loadByte s x := by
  have hu := usable_of_lower hx
  have hiff : Mapped s' x ↔ Mapped s x := by rw [Mapped, Mapped, hsatp, hw]
  by_cases hm : Mapped s x
  · rw [loadByte_eq h.tree hu hm, loadByte_eq h'.tree hu (hiff.mpr hm), hv]
  · rw [loadByte_eq_none h.tree hu hm, loadByte_eq_none h'.tree hu (fun hh => hm (hiff.mp hh))]

lemma Kernel.write_lower (h : Kernel S s) {x : ℕ} (hx : x < 2 ^ 47) (hload : (loadByte s x).isSome) (b : UInt8) :
    ∃ s', storeByte s x b = some s' ∧ Kernel S s' ∧ S.left s'.mem s'.frames = S.left s.mem s.frames ∧
      ∀ y < 2 ^ 47, loadByte s' y = (loadByte s y).map fun c => if y = x then b else c := by
  have hm := mapped_of_loadByte h.tree (usable_of_lower hx) hload
  obtain ⟨s', hs', htree, hsame, hview⟩ := storeByte_eq h.tree (b := b) (usable_of_lower hx) hm
  have hlow := lower_le_heapStart
  have hstart := h.start
  obtain ⟨h', _⟩ := h.storeByte (outside_of_lower hx) trivial (Or.inl (by omega)) hs'
  refine ⟨s', hs', h', hsame.left h.tree.good, fun y hy => ?_⟩
  have hu : Usable Everywhere Everywhere y := usable_of_lower hy
  by_cases hmy : Mapped s y
  · rw [loadByte_eq h.tree hu hmy, loadByte_eq htree hu ((hsame.mapped hu.outside).mpr hmy),
      hview y hu.outside hu.canonical trivial]
    rfl
  · rw [loadByte_eq_none h.tree hu hmy, loadByte_eq_none htree hu fun hh => hmy ((hsame.mapped hu.outside).mp hh)]
    rfl

/-- From `s` to `s'` the lower half has become `m`, what the heap handed out is as it was, and at most `n` frames
were taken. -/
structure Effect (S : FrameSource α) (s s' : State α) (m : Space) (n : ℕ) : Prop where
  kernel : Kernel S s'
  lower : ∀ x < 2 ^ 47, loadByte s' x = m x
  kept : ∀ x, heapStart ≤ x → x < s.freeList → view s' x = view s x
  freeList : s.freeList ≤ s'.freeList
  left : S.left s.mem s.frames ≤ S.left s'.mem s'.frames + n

lemma Effect.refl (h : Kernel S s) : Effect S s s (loadByte s) 0 :=
  ⟨h, fun _ _ => rfl, fun _ _ _ => rfl, le_rfl, le_rfl⟩

lemma Effect.trans {m m' : Space} {n n' : ℕ} (h : Effect S s s' m n) (h' : Effect S s' s'' m' n') :
    Effect S s s'' m' (n + n') := by
  have h₁ := h.left
  have h₂ := h'.left
  have hfl := h.freeList
  exact ⟨h'.kernel, h'.lower, fun x hx hx' => (h'.kept x hx (by omega)).trans (h.kept x hx hx'),
    hfl.trans h'.freeList, by omega⟩

lemma Effect.of_eq {m m' : Space} {n n' : ℕ} (h : Effect S s s' m n) (hm : ∀ x < 2 ^ 47, m x = m' x) (hn : n ≤ n') :
    Effect S s s' m' n' :=
  ⟨h.kernel, fun x hx => (h.lower x hx).trans (hm x hx), h.kept, h.freeList, h.left.trans (Nat.add_le_add_left hn _)⟩

section Steps

variable (h : Kernel S s)
include h

lemma inHeap_of_freeList {x : ℕ} (hx : heapStart ≤ x) (hx' : x < s.freeList) : InHeap x ∧ Mapped s x := by
  have := h.space
  exact ⟨h.inHeap hx (by omega), h.mapped x hx (by omega)⟩

lemma kallocFrame_effect (hl : 1 ≤ S.left s.mem s.frames) :
    ∃ f s', s.kallocFrame S.kallocFrame = some (f, s') ∧ Effect S s s' (loadByte s) 1 := by
  obtain ⟨⟨f, m, a⟩, hk⟩ := Option.isSome_iff_exists.mp (S.isSome h.tree.good (by omega))
  have hk' : s.kallocFrame S.kallocFrame = some (f, { s with mem := m, frames := a }) := by
    rw [State.kallocFrame, hk, Option.map_some]
  obtain ⟨n, _, _, _, _, hg, _, _⟩ := h.tree.kallocFrame hk'
  obtain ⟨h', hsatp, hfl, _, hw, hleft⟩ := h.kallocFrame hk'
  have hview : ∀ x, Outside x → view { s with mem := m, frames := a } x = view s x := fun x hx =>
    view_owned_eq h'.tree hsatp hg.bytes hg.mem ⟨hx, Or.inr ⟨by simp [path], trivial⟩⟩ (hw _ (inside_path hx))
  refine ⟨f, _, hk', h', ?_, ?_, le_rfl, hleft.le⟩
  · intro x hx
    have hu := usable_of_lower hx
    exact loadByte_congr h h' hx hsatp (hw _ (inside_path hu.outside)) (hview x hu.outside)
  · intro x hx hx'
    exact hview x (inHeap_of_freeList h hx hx').1.outside

lemma mapFrame_mapsNew {v : ℕ} (hv : Outside v) (hnot : ¬ HeapPath (path v))
    (hm : mapFrame S.kallocFrame v s = some s') :
    Kernel S s' ∧ ∃ n, MapsNew S Everywhere s s' v n := by
  obtain ⟨⟨f, s₁⟩, hk, hm⟩ := Option.bind_eq_some_iff.mp hm
  obtain ⟨h', n, _, hnew⟩ := h.mapNew hv hnot (by decide) (fun _ => by decide) hk hm
  exact ⟨h', n, hnew⟩

lemma mapFrame_effect {v : ℕ} (hv : v < 2 ^ 47) (hl : 4 ≤ S.left s.mem s.frames) :
    ∃ s', mapFrame S.kallocFrame v s = some s' ∧
      Effect S s s' (Space.mapZero (loadByte s) (v / 4096)) 4 := by
  have hout := outside_of_lower hv
  have hmiss := missingTables_le s.mem s.satp v
  obtain ⟨f, s₁, s', hk, hm⟩ := mapsNew_isSome h.tree hout 0x1F (by omega)
  have hmap : mapFrame S.kallocFrame v s = some s' := by
    rw [mapFrame, hk]
    exact hm
  obtain ⟨h', n, hnew⟩ := mapFrame_mapsNew h hout (not_heapPath_of_lower hv) hmap
  have hnleft := hnew.left
  refine ⟨s', hmap, h', ?_, ?_, hnew.freeList.ge, by omega⟩
  · intro x hx
    have hu := usable_of_lower hx
    rw [Space.mapZero]
    by_cases hp : x / 4096 = v / 4096
    · have hpath := (path_eq_iff_of_lower hx hv).mpr hp
      have hmapped : Mapped s' x := by
        rw [Mapped, hnew.satp, hpath, hnew.self]
        rfl
      rw [if_pos hp, loadByte_eq h'.tree hu hmapped, hnew.view_self trivial x hpath]
    · have hpath : path x ≠ path v := fun hh => hp ((path_eq_iff_of_lower hx hv).mp hh)
      rw [if_neg hp]
      exact loadByte_congr h h' hx hnew.satp (hnew.other _ (inside_path hu.outside) (not_prefix_path hpath))
        (hnew.view_other x hu.path_owned hpath)
  · intro x hx hx'
    have hin := (inHeap_of_freeList h hx hx').1
    have hne : path x ≠ path v := fun hh => not_heapPath_of_lower hv ⟨x, hin, hh.symm⟩
    exact hnew.view_other x (h.usable hin).path_owned hne

lemma not_newPage_of_lower (h' : Kernel S s') {x : ℕ} (hx : x < 2 ^ 47) : ¬ NewPage s s' (path x) := by
  rintro ⟨y, hy, hy', hp⟩
  have hst := h.start
  have hsp := h.space
  have hend := h'.end_le
  exact not_heapPath_of_lower hx ⟨y, ⟨by omega, by omega⟩, hp⟩

lemma kalloc_lower {fuel size p : ℕ} (hsize : size + 32 < 2 ^ 64)
    (hk : kalloc S.kallocFrame fuel s size = some (p, s')) : ∀ x < 2 ^ 47, loadByte s' x = loadByte s x := by
  intro x hx
  obtain ⟨h', rfl, _, hkeep⟩ := h.kalloc hsize hk
  have hst := h.start
  have hu := usable_of_lower hx
  have hnew := not_newPage_of_lower h h' hx
  rw [heapStart_eq] at hst
  exact loadByte_congr h h' hx hkeep.satp (hkeep.walk x hu.outside hnew)
    (hkeep.view x hu.outside hu.canonical trivial hnew (by omega))

lemma kalloc_effect {fuel size : ℕ} (hsize : size < 2 ^ 62) (hfuel : size / 4096 + 2 < fuel)
    (hl : 4 * (size / 4096 + 2) ≤ S.left s.mem s.frames) :
    ∃ s', kalloc S.kallocFrame fuel s size = some (s.freeList + 16, s') ∧ s'.freeList = s.freeList + 16 + size ∧
      Effect S s s' (loadByte s) (4 * (size / 4096 + 2)) := by
  have hst := h.start
  have hsp := h.space
  have hlt : size + 32 < 2 ^ 64 := by omega
  have hpages : size + 32 ≤ s.virtualAllocEnd - s.freeList + 4096 * (size / 4096 + 2) := by omega
  obtain ⟨p, s', hk, hused⟩ := h.kalloc_frames hlt hpages hfuel hl
  obtain ⟨h', rfl, hfl, hkeep⟩ := h.kalloc hlt hk
  refine ⟨s', hk, hfl, h', kalloc_lower h hlt hk, ?_, by omega, hused⟩
  · intro x hx hx'
    have hin := (inHeap_of_freeList h hx hx').1
    exact hkeep.view x hin.outside hin.canonical trivial (h.not_newPage h'.end_le hx (by omega)) (by omega)

variable {dest src n : ℕ} (hsrc : heapStart ≤ src) (hsrc' : src + n ≤ s.freeList) (hdest : dest + n ≤ 2 ^ 47)
include hsrc hsrc' hdest

lemma memcpy_effect (hm : Space.MappedOn (loadByte s) dest n) : ∃ s', memcpy s dest src n = some s' ∧
    Effect S s s' (Space.copyIn (loadByte s) dest (fun i => view s (src + i)) n) 0 := by
  have hst := h.start
  have hlow := lower_le_heapStart
  have hud : ∀ x, dest ≤ x → x < dest + n → Usable Everywhere Everywhere x := fun x _ hx =>
    usable_of_lower (by omega)
  have hmd : ∀ x, dest ≤ x → x < dest + n → Mapped s x := by
    intro x hx hx'
    have hs := hm (x - dest) (by omega)
    rw [Nat.add_sub_cancel' hx] at hs
    exact mapped_of_loadByte h.tree (hud x hx hx') hs
  have hin : ∀ x, src ≤ x → x < src + n → InHeap x ∧ Mapped s x := fun x hx hx' =>
    inHeap_of_freeList h (by omega) (by omega)
  obtain ⟨s', hs', hw⟩ := memcpy_eq h.tree hud hmd (fun x hx hx' => h.usable (hin x hx hx').1)
    (fun x hx hx' => (hin x hx hx').2) (Or.inr (by omega))
  have h' := hw.heap h (Or.inl (by omega))
  have hleft := hw.same.left h.tree.good
  refine ⟨s', hs', h', ?_, ?_, hw.same.freeList.ge, by omega⟩
  · intro x hx
    have hu := usable_of_lower hx
    have hv := hw.view x hu.outside hu.canonical trivial
    rw [Space.copyIn]
    by_cases hxd : dest ≤ x ∧ x < dest + n
    · rw [if_pos hxd, loadByte_eq h'.tree hu ((hw.same.mapped hu.outside).mpr (hmd x hxd.1 hxd.2)), hv, patch,
      if_pos hxd]
    · rw [patch, if_neg hxd] at hv
      rw [if_neg hxd]
      exact loadByte_congr h h' hx hw.same.satp (hw.same.walk _ (inside_path hu.outside)) hv
  · intro x hx hx'
    have hin := (inHeap_of_freeList h hx hx').1
    rw [hw.view x hin.outside hin.canonical trivial, patch_outside (by omega)]

lemma memcpy_eq_none (hm : ¬ Space.MappedOn (loadByte s) dest n) : memcpy s dest src n = none := by
  induction n with
  | zero => exact absurd (fun i hi => absurd hi (Nat.not_lt_zero i)) hm
  | succ n ih =>
    by_cases hn : Space.MappedOn (loadByte s) dest n
    · obtain ⟨s₁, hs₁, he⟩ := memcpy_effect h hsrc (by omega) (by omega) hn
      have hlast : loadByte s (dest + n) = none := by
        by_contra hsome
        refine hm fun i hi => ?_
        rcases Nat.lt_succ_iff_lt_or_eq.mp hi with hi | rfl
        · exact hn i hi
        · exact Option.isSome_iff_ne_none.mpr hsome
      have hlow := he.lower (dest + n) (by omega)
      rw [Space.copyIn, if_neg (by omega), hlast, loadByte, Option.map_eq_none_iff] at hlow
      rw [memcpy, hs₁, Option.bind_eq_bind, Option.bind_some]
      cases loadByte s₁ (src + n) with
      | none => rfl
      | some b => simp only [Option.bind_eq_bind, Option.bind_some, storeByte, hlow, Option.map_none]
    · rw [memcpy, ih (by omega) (by omega) hn]
      rfl

end Steps

lemma mapPages_effect {v : ℕ} (hv : v < 2 ^ 47) {n : ℕ} (h : Kernel S s) (hl : 4 * (n + 1) ≤ S.left s.mem s.frames) :
    ∃ s', mapPages S.kallocFrame v (n + 1) s = some s' ∧
      Effect S s s' (Space.mapZero (loadByte s) (v / 4096)) (4 * (n + 1)) := by
  induction n generalizing s with
  | zero =>
    obtain ⟨s', hs', he⟩ := mapFrame_effect h hv (by omega)
    exact ⟨s', by rw [mapPages, hs']; rfl, he⟩
  | succ n ih =>
    obtain ⟨s₁, hs₁, he₁⟩ := mapFrame_effect h hv (by omega)
    have hleft := he₁.left
    obtain ⟨s', hs', he⟩ := ih he₁.kernel (by omega)
    refine ⟨s', by rw [mapPages, hs₁]; exact hs', (he₁.trans he).of_eq ?_ (by omega)⟩
    intro x hx
    rw [Space.mapZero, Space.mapZero, he₁.lower x hx, Space.mapZero]
    split <;> rfl

end TetraOS.Processes
