import TetraOS.Memory.AddressSpace
import TetraOS.Memory.FlagSource
import TetraOS.Memory.MapRefinement

/-! Page tables in frames that had other owners before. `kalloc_frame` does not clear the frames it hands out, so a
new table starts with what its last owner has left there. -/

namespace TetraOS.Memory

open Library.ByteMemory Library.TableTree VirtualPage PageTable PhysicalAllocator

def FirstFree (img : Image) (m : Memory) (i : ℕ) : Prop :=
  i < reserved img ∧ isFree m (flag img i) = true ∧ ∀ j < i, isFree m (flag img j) = false

def entryOf (img : Image) (m : Memory) (i : ℕ) (j : Fin 512) : ℕ := entry m (frame img i / 4096) j

/-- The next `n` frames hold no valid entry, but for the entry at `last` in the last of them. -/
def EmptyAhead (img : Image) (last : Fin 512) : ℕ → Memory → Prop
  | 0, _ => True
  | n + 1, m => ∀ i, FirstFree img m i → (∀ j, entryOf img m i j % 2 = 1 → n = 0 ∧ j = last) ∧
      EmptyAhead img last n (setPageframeAllocated m (flag img i))

def leafOf {α : Type} (s : State α) (va : ℕ) : Option ℕ :=
  (walk (slot s.mem) s.satp [getVpn3 va, getVpn2 va, getVpn1 va]).bind fun t =>
    if entry s.mem t (getVpn0 va) % 2 = 1 then some (entry s.mem t (getVpn0 va)) else none

/-- A byte of a frame that was handed out, or a byte of memory that neither the frames nor their flags take. -/
def Writable (img : Image) (held : Set ℕ) (x : ℕ) : Prop :=
  (∃ f ∈ held, f ≤ x ∧ x < f + frameSize) ∨
    (¬ ReservedByte img x ∧ ∀ i < reserved img, ¬ (frame img i ≤ x ∧ x < frame img i + frameSize))

section Flags

variable {img : Image} {m m' : Memory} {i : ℕ}

lemma FirstFree.unique {j : ℕ} (h : FirstFree img m i) (h' : FirstFree img m j) : i = j := by
  rcases lt_trichotomy i j with hlt | heq | hlt
  · exact absurd (h'.2.2 i hlt) (by rw [h.2.1]; decide)
  · exact heq
  · exact absurd (h.2.2 j hlt) (by rw [h'.2.1]; decide)

lemma FirstFree.congr (hflags : ∀ x, ReservedByte img x → m' x = m x) (h : FirstFree img m' i) :
    FirstFree img m i := by
  obtain ⟨hi, hfree, hmin⟩ := h
  exact ⟨hi, isFree_congr hflags hi ▸ hfree, fun j hj => isFree_congr hflags (hj.trans hi) ▸ hmin j hj⟩

lemma frame_mod (h : img.physicalHeapStart ≤ 2 ^ 32) (i : ℕ) : frame img i % 4096 = 0 := by
  have hpage := frame_page h i
  omega

lemma frame_div_lt (hr : Room img) (hi : i < reserved img) : frame img i / 4096 < 2 ^ 20 := by
  have hb := (hr.frame_bounds (hi.trans_le (reserved_le_numFrames img))).2.2
  have hlow := hr.low
  omega

lemma frame_div_inj (hr : Room img) {j : ℕ} (h : frame img i / 4096 = frame img j / 4096) : i = j := by
  apply hr.frame_injective
  rw [frame_page hr.start_le i, frame_page hr.start_le j, h]

lemma reserved_apart (hr : Room img) {x : ℕ} (hx : ReservedByte img x) : x / 4096 ≠ frame img i / 4096 := by
  obtain ⟨j, hj, rfl⟩ := hx
  have hle := reserved_le img
  rw [physical_flag hr.start_le (by omega), frame_eq hr.start_le, alignedStart]
  omega

lemma isFree_setAllocated (hr : Room img) {j : ℕ} (hi : i < reserved img) (hj : j < reserved img) :
    isFree (setPageframeAllocated m (flag img i)) (flag img j) = (decide (j ≠ i) && isFree m (flag img j)) := by
  have hle := reserved_le img
  rw [setPageframeAllocated, isFree_update hr.start_le (by omega) (by omega)]
  by_cases hij : j = i
  · simp [hij]
  · simp [hij]

lemma isFree_setFree (hr : Room img) {j : ℕ} (hi : i < reserved img) (hj : j < reserved img) :
    isFree (setPageframeFree m (flag img i)) (flag img j) = (decide (j = i) || isFree m (flag img j)) := by
  have hle := reserved_le img
  rw [setPageframeFree, isFree_update hr.start_le (by omega) (by omega)]
  by_cases hij : j = i
  · simp [hij]
  · simp [hij]

lemma update_flag_outside {x : ℕ} {b : UInt8} (hi : i < reserved img) (hx : ¬ ReservedByte img x) :
    Function.update m (physical (flag img i)) b x = m x := by
  apply Function.update_of_ne
  rintro rfl
  exact hx ⟨i, hi, rfl⟩

lemma firstFree_of_kallocFrame (hr : Room img) {f : ℕ} {a : Frames}
    (hk : PhysicalAllocator.kallocFrame (reserved img) m (placed img) = some (f, m', a)) :
    ∃ i, FirstFree img m i ∧ f = frame img i ∧ m' = setPageframeAllocated m (flag img i) ∧ a = placed img := by
  have hle := reserved_le img
  obtain ⟨⟨flags, index⟩, hf, heq⟩ := Option.map_eq_some_iff.mp hk
  obtain ⟨i, hi, rfl, rfl, hfree, hmin⟩ := findFree_some (by omega) hf
  simp only [Prod.mk.injEq] at heq
  obtain ⟨rfl, rfl, rfl⟩ := heq
  refine ⟨i, ⟨hi, hfree, hmin⟩, ?_, rfl, rfl⟩
  have hstart := hr.start_le
  rw [frame_eq hr.start_le]
  simp only [placed_eq hr.start_le, frameSize, alignedStart]
  omega

lemma EmptyAhead.congr {last : Fin 512} {n : ℕ} (hr : Room img) (hflags : ∀ x, ReservedByte img x → m' x = m x)
    (hfree : ∀ i < reserved img, isFree m (flag img i) = true → ∀ x, x / 4096 = frame img i / 4096 → m' x = m x)
    (h : EmptyAhead img last n m) : EmptyAhead img last n m' := by
  induction n generalizing m m' with
  | zero => trivial
  | succ n ih =>
    intro i hi
    have hi' := hi.congr hflags
    obtain ⟨hempty, hrest⟩ := h i hi'
    refine ⟨fun j hj => hempty j ?_, ih (fun x hx => ?_) (fun k hk hfk x hx => ?_) hrest⟩
    · rw [entryOf, entry_congr fun x hx => hfree i hi'.1 hi'.2.1 x hx] at hj
      exact hj
    · simp only [setPageframeAllocated, Function.update_apply, hflags x hx]
    · rw [isFree_setAllocated hr hi'.1 hk, Bool.and_eq_true] at hfk
      simp only [setPageframeAllocated, Function.update_apply, hfree k hk hfk.2 x hx]

lemma EmptyAhead.empty {last j : Fin 512} {rest : ℕ} (h : EmptyAhead img last (1 + rest) m) (hi : FirstFree img m i)
    (hj : rest = 0 → j ≠ last) : entryOf img m i j % 2 = 0 := by
  rw [Nat.add_comm] at h
  by_contra hv
  obtain ⟨hrest, hlast⟩ := (h i hi).1 j (by omega)
  exact hj hrest hlast

lemma EmptyAhead.of_free {last : Fin 512} {n : ℕ} (hr : Room img)
    (h : ∀ i < reserved img, isFree m (flag img i) = true → ∀ j, entryOf img m i j % 2 = 0) :
    EmptyAhead img last n m := by
  induction n generalizing m with
  | zero => trivial
  | succ n ih =>
    intro i hi
    refine ⟨fun j hj => absurd hj (by rw [h i hi.1 hi.2.1 j]; decide), ih fun k hk hfree j => ?_⟩
    rw [isFree_setAllocated hr hi.1 hk, Bool.and_eq_true] at hfree
    have hkept : entryOf img (setPageframeAllocated m (flag img i)) k j = entryOf img m k j :=
      entry_congr fun x hx => update_flag_outside hi.1 fun hres => reserved_apart hr hres hx
    rw [hkept]
    exact h k hk hfree.2 j

lemma kallocFrame_cases (hr : Room img) {s s₁ : State Frames} {f : ℕ} (hframes : s.frames = placed img)
    (hk : s.kallocFrame (PhysicalAllocator.kallocFrame (reserved img)) = some (f, s₁)) :
    ∃ k, FirstFree img s.mem k ∧ f = frame img k ∧
      s₁ = { s with mem := setPageframeAllocated s.mem (flag img k) } := by
  obtain ⟨⟨f', m', a'⟩, hk', heq⟩ := Option.map_eq_some_iff.mp hk
  obtain ⟨rfl, rfl⟩ := Prod.mk.inj heq
  rw [hframes] at hk'
  obtain ⟨k, hfirst, rfl, rfl, rfl⟩ := firstFree_of_kallocFrame hr hk'
  exact ⟨k, hfirst, rfl, by rw [← hframes]⟩

end Flags

def TableFrame (img : Image) (held : Set ℕ) (m : Memory) (t : ℕ) : Prop :=
  ∃ i < reserved img, frame img i = 4096 * t ∧ isFree m (flag img i) = false ∧ frame img i ∉ held

lemma TableFrame.lt {img : Image} {held : Set ℕ} {m : Memory} {t : ℕ} (hr : Room img)
    (h : TableFrame img held m t) : t < 2 ^ 20 := by
  obtain ⟨i, hi, hf, _⟩ := h
  have hlt := frame_div_lt hr hi
  omega

/-- The tables are where nobody else writes, and their entries are what the source has put there. The entries at the
paths `E` are left out. -/
structure LiveTables (img : Image) (held : Set ℕ) (E : List (Fin 512) → Prop) (s : State Frames) : Prop where
  root : s.firstLevelTable = tableAddress s.satp
  frames : s.frames = placed img
  inj : InjectiveOn (slot s.mem) s.satp Node
  tables : ∀ p t, Node p → walk (slot s.mem) s.satp p = some t → TableFrame img held s.mem t
  held : ∀ f ∈ held, ∃ i < reserved img, f = frame img i ∧ isFree s.mem (flag img i) = false
  entries : ∀ p t i, Node p → walk (slot s.mem) s.satp p = some t → ¬ DirectMapped (p ++ [i]) → ¬ E (p ++ [i]) →
    entry s.mem t i % 2 = 1 → EntryOk NoLeaf (p ++ [i]) (entry s.mem t i)

section Leaf

variable {s s' : State Frames} {va : ℕ}

lemma inner_node (hva : Outside va) : Node [getVpn3 va, getVpn2 va, getVpn1 va] :=
  ⟨by simp, fun hd => hva (hd.of_prefix ⟨_, rfl⟩)⟩

lemma leafOf_congr (hw : walk (slot s'.mem) s'.satp [getVpn3 va, getVpn2 va, getVpn1 va] =
      walk (slot s.mem) s.satp [getVpn3 va, getVpn2 va, getVpn1 va])
    (he : ∀ t, walk (slot s.mem) s.satp [getVpn3 va, getVpn2 va, getVpn1 va] = some t →
      entry s'.mem t (getVpn0 va) = entry s.mem t (getVpn0 va)) : leafOf s' va = leafOf s va := by
  rw [leafOf, leafOf, hw]
  cases h : walk (slot s.mem) s.satp [getVpn3 va, getVpn2 va, getVpn1 va] with
  | none => rfl
  | some t => rw [Option.bind_some, Option.bind_some, he t h]

lemma walk_path_eq_leafOf (s : State Frames) (va : ℕ) :
    walk (slot s.mem) s.satp (path va) = (leafOf s va).map fun e => e / 1024 % 2 ^ 52 := by
  rw [path_eq_concat, walk_concat, leafOf]
  cases walk (slot s.mem) s.satp [getVpn3 va, getVpn2 va, getVpn1 va] with
  | none => rfl
  | some t =>
    rw [Option.bind_some, Option.bind_some, slot, target]
    split_ifs <;> rfl

lemma translate_eq_leafOf {img : Image} {held : Set ℕ} (h : LiveTables img held (fun _ => False) s) (hva : Outside va)
    (hc : Canonical va) : translate s va = (leafOf s va).bind fun e =>
      if faulting e then none else
      if readable e || executable e then some (4096 * (e / 1024 % 2 ^ 52) + va % 4096) else none := by
  have hentries := fun p t i hp hw hd => h.entries p t i hp hw hd not_false
  rw [translate_eq_bind_of_entries hentries hva hc, leafOf]
  cases hw : walk (slot s.mem) s.satp [getVpn3 va, getVpn2 va, getVpn1 va] with
  | none => rfl
  | some t =>
    have hok := hentries _ t (getVpn0 va) (inner_node hva) hw hva
    rw [Option.bind_some, Option.bind_some, hardwareWalk_leaf fun hv => (hok hv).ppn, slot, target]
    by_cases hv : entry s.mem t (getVpn0 va) % 2 = 1
    · rw [if_pos hv, if_pos hv]
      rfl
    · have hf : faulting (entry s.mem t (getVpn0 va)) = true := by
        simp only [faulting, Bool.or_eq_true, decide_eq_true_eq]
        omega
      rw [if_pos hf, if_neg hv]
      rfl

end Leaf

structure TableDrawn (img : Image) (held : Set ℕ) (E : List (Fin 512) → Prop) (s s' : State Frames)
    (q : List (Fin 512)) (k : ℕ) : Prop where
  live : LiveTables img held E s'
  self : walk (slot s'.mem) s'.satp q = some (frame img k / 4096)
  other : ∀ q', Node q' → q' ≠ q → walk (slot s'.mem) s'.satp q' = walk (slot s.mem) s.satp q'
  leaf : ∀ va, Outside va → ¬ E (path va) → leafOf s' va = leafOf s va
  content : ∀ j, entry s'.mem (frame img k / 4096) j = entryOf img s.mem k j
  ahead : ∀ last n, EmptyAhead img last (1 + n) s.mem → EmptyAhead img last n s'.mem

namespace LiveTables

variable {img : Image} {held : Set ℕ} {E : List (Fin 512) → Prop} {s : State Frames} (hr : Room img)
    (h : LiveTables img held E s)
include hr h

lemma lt {p : List (Fin 512)} {t : ℕ} (hp : Node p) (hw : walk (slot s.mem) s.satp p = some t) : t < 2 ^ 20 :=
  (h.tables p t hp hw).lt hr

lemma ne_of_free {p : List (Fin 512)} {t i : ℕ} (hp : Node p) (hw : walk (slot s.mem) s.satp p = some t)
    (hfree : isFree s.mem (flag img i) = true) : frame img i / 4096 ≠ t := by
  obtain ⟨j, hj, hf, htaken, _⟩ := h.tables p t hp hw
  intro hit
  obtain rfl := frame_div_inj hr (i := i) (j := j) (by omega)
  rw [hfree] at htaken
  cases htaken

lemma reserved_ne {p : List (Fin 512)} {t x : ℕ} (hp : Node p) (hw : walk (slot s.mem) s.satp p = some t)
    (hx : ReservedByte img x) : x / 4096 ≠ t := by
  obtain ⟨j, hj, hf, _⟩ := h.tables p t hp hw
  have hne := reserved_apart (i := j) hr hx
  omega

omit hr

lemma change {m' : Memory} {held' : Set ℕ}
    (ht : ∀ q x, Node q → walk (slot s.mem) s.satp q = some (x / 4096) → m' x = s.mem x)
    (hframe : ∀ t, TableFrame img held s.mem t → TableFrame img held' m' t)
    (hheld : ∀ f ∈ held', ∃ i < reserved img, f = frame img i ∧ isFree m' (flag img i) = false) :
    LiveTables img held' E { s with mem := m' } ∧
      (∀ q, Inside Node q → walk (slot m') s.satp q = walk (slot s.mem) s.satp q) ∧
      ∀ va, Outside va → leafOf { s with mem := m' } va = leafOf s va := by
  obtain ⟨he, hw⟩ := tables_congr ht
  refine ⟨⟨h.root, h.frames, ?_, ?_, hheld, ?_⟩, hw, ?_⟩
  · intro p q t hp hq hwp hwq
    exact h.inj p q t hp hq (hw p hp.inside ▸ hwp) (hw q hq.inside ▸ hwq)
  · intro p t hp hwp
    exact hframe t (h.tables p t hp (hw p hp.inside ▸ hwp))
  · intro p t i hp hwp hd hE hv
    have hwp' := hw p hp.inside ▸ hwp
    change entry m' t i % 2 = 1 at hv
    change EntryOk NoLeaf (p ++ [i]) (entry m' t i)
    rw [he p t i hp hwp'] at hv ⊢
    exact h.entries p t i hp hwp' hd hE hv
  · intro va hva
    exact leafOf_congr (hw _ (inner_node hva).inside) fun t ht => he _ t _ (inner_node hva) ht

lemma mono {E' : List (Fin 512) → Prop} (hE : ∀ q, E q → E' q) : LiveTables img held E' s :=
  ⟨h.root, h.frames, h.inj, h.tables, h.held, fun p t i hp hw hd hq => h.entries p t i hp hw hd fun hh => hq (hE _ hh)⟩

include hr

lemma draw {i : ℕ} (hi : FirstFree img s.mem i) {held' : Set ℕ} (hheld : held' ⊆ insert (frame img i) held) :
    LiveTables img held' E { s with mem := setPageframeAllocated s.mem (flag img i) } ∧
      (∀ q, Inside Node q →
        walk (slot (setPageframeAllocated s.mem (flag img i))) s.satp q = walk (slot s.mem) s.satp q) ∧
      ∀ va, Outside va → leafOf { s with mem := setPageframeAllocated s.mem (flag img i) } va = leafOf s va := by
  apply h.change
  · intro q x hq hw
    exact update_flag_outside hi.1 fun hx => h.reserved_ne hr hq hw hx rfl
  · rintro t ⟨j, hj, hf, htaken, hnot⟩
    have hne : frame img j ≠ frame img i := by
      intro heq
      rw [hr.frame_injective heq, hi.2.1] at htaken
      cases htaken
    refine ⟨j, hj, hf, ?_, fun hh => ?_⟩
    · rw [isFree_setAllocated hr hi.1 hj, htaken, Bool.and_false]
    · exact (Set.mem_insert_iff.mp (hheld hh)).elim hne hnot
  · intro f hf
    rcases Set.mem_insert_iff.mp (hheld hf) with rfl | hf
    · exact ⟨i, hi.1, rfl, by rw [isFree_setAllocated hr hi.1 hi.1]; simp⟩
    · obtain ⟨j, hj, rfl, htaken⟩ := h.held f hf
      exact ⟨j, hj, rfl, by rw [isFree_setAllocated hr hi.1 hj, htaken, Bool.and_false]⟩

lemma release {f : ℕ} (hf : f ∈ held) :
    LiveTables img (held \ {f}) E { s with mem := PhysicalAllocator.kfreeFrame s.mem s.frames f } ∧
      ∀ q, Inside Node q →
        walk (slot (PhysicalAllocator.kfreeFrame s.mem s.frames f)) s.satp q = walk (slot s.mem) s.satp q := by
  obtain ⟨i, hi, rfl, _⟩ := h.held f hf
  have hfree : PhysicalAllocator.kfreeFrame s.mem s.frames (frame img i) = setPageframeFree s.mem (flag img i) := by
    rw [h.frames, hr.kfreeFrame_frame (hi.trans_le (reserved_le_numFrames img))]
  rw [hfree]
  refine (h.change ?_ ?_ ?_).imp_right And.left
  · intro q x hq hw
    exact update_flag_outside hi fun hx => h.reserved_ne hr hq hw hx rfl
  · rintro t ⟨j, hj, hft, htaken, hnot⟩
    have hne : j ≠ i := by
      rintro rfl
      exact hnot hf
    exact ⟨j, hj, hft, by rw [isFree_setFree hr hi hj, htaken]; simp [hne], fun hh => hnot hh.1⟩
  · rintro g ⟨hg, hgf⟩
    obtain ⟨j, hj, rfl, htaken⟩ := h.held g hg
    have hne : j ≠ i := by
      rintro rfl
      exact hgf rfl
    exact ⟨j, hj, rfl, by rw [isFree_setFree hr hi hj, htaken]; simp [hne]⟩

lemma write {x : ℕ} (b : UInt8) (hx : Writable img held x) :
    LiveTables img held E { s with mem := Function.update s.mem x b } ∧
      ∀ q, Inside Node q → walk (slot (Function.update s.mem x b)) s.satp q = walk (slot s.mem) s.satp q := by
  have hflag : ¬ ReservedByte img x := by
    rcases hx with ⟨f, hf, hfx, hfx'⟩ | ⟨hx, _⟩
    · intro hres
      obtain ⟨i, hi, rfl, _⟩ := h.held f hf
      have hne := reserved_apart (i := i) hr hres
      have hmod := frame_mod hr.start_le i
      simp only [frameSize] at hfx'
      omega
    · exact hx
  have hsame : ∀ y, ReservedByte img y → Function.update s.mem x b y = s.mem y := by
    intro y hy
    apply Function.update_of_ne
    rintro rfl
    exact hflag hy
  refine (h.change ?_ ?_ ?_).imp_right And.left
  · intro q y hq hw
    apply Function.update_of_ne
    rintro rfl
    obtain ⟨i, hi, hf, _, hnot⟩ := h.tables q _ hq hw
    rcases hx with ⟨f, hfheld, hfx, hfx'⟩ | ⟨_, hout⟩
    · obtain ⟨j, hj, rfl, _⟩ := h.held f hfheld
      have hmod := frame_mod hr.start_le j
      simp only [frameSize] at hfx'
      obtain rfl := frame_div_inj hr (i := i) (j := j) (by omega)
      exact hnot hfheld
    · exact hout i hi (by simp only [frameSize]; omega)
  · rintro t ⟨j, hj, hf, htaken, hnot⟩
    exact ⟨j, hj, hf, isFree_congr hsame hj ▸ htaken, hnot⟩
  · intro f hf
    obtain ⟨j, hj, rfl, htaken⟩ := h.held f hf
    exact ⟨j, hj, rfl, isFree_congr hsame hj ▸ htaken⟩

section Store

variable {p : List (Fin 512)} {i : Fin 512} {t e : ℕ} (hp : Node p) (hw : walk (slot s.mem) s.satp p = some t)
include hp hw

lemma store_reserved {x : ℕ} (hx : ReservedByte img x) : store s.mem 8 (4096 * t + 8 * i) e x = s.mem x := by
  have hne := h.reserved_ne hr hp hw hx
  exact store_outside (by omega)

lemma tableFrame_store {u : ℕ} (hu : TableFrame img held s.mem u) :
    TableFrame img held (store s.mem 8 (4096 * t + 8 * i) e) u := by
  obtain ⟨j, hj, hf, htaken, hnot⟩ := hu
  exact ⟨j, hj, hf, isFree_congr (fun x hx => h.store_reserved hr hp hw hx) hj ▸ htaken, hnot⟩

lemma held_store {f : ℕ} (hf : f ∈ held) : ∃ j < reserved img, f = frame img j ∧
    isFree (store s.mem 8 (4096 * t + 8 * i) e) (flag img j) = false := by
  obtain ⟨j, hj, rfl, htaken⟩ := h.held f hf
  exact ⟨j, hj, rfl, isFree_congr (fun x hx => h.store_reserved hr hp hw hx) hj ▸ htaken⟩

section Link

variable {m' : Memory} {n : ℕ} (hm : m' = store s.mem 8 (4096 * t + 8 * i) (n * 1024 + 1))
    (hn : TableFrame img held s.mem n) (hnew : ∀ q, Node q → walk (slot s.mem) s.satp q ≠ some n)
    (hempty : ∀ j, ¬ E (p ++ [i] ++ [j]) → entry s.mem n j % 2 = 0)
include hm hn

omit h in
lemma linked_table : Linked (slot s.mem) (slot m') s.satp Node p i t n := by
  have hlow := hn.lt hr
  exact hm ▸ Tree.linked hp hw (by omega) (by omega) (by omega)

omit h hp hw in
lemma entry_link {u : ℕ} {j : Fin 512} (huj : u = t → j ≠ i) : entry m' u j = entry s.mem u j := by
  have hlow := hn.lt hr
  rw [hm, entry_store (by omega), if_neg fun hh => huj hh.1 hh.2]

include hnew hempty

omit h in
lemma link_stop {j : Fin 512} (hj : ¬ E (p ++ [i] ++ [j])) : entry m' n j % 2 = 0 := by
  rw [entry_link hr hm hn]
  · exact hempty j hj
  · rintro rfl
    exact absurd hw (hnew p hp)

section Paths

variable (hE : ∀ q, E q → q.length = 4)
include hE

omit h in
lemma link_slot {j : Fin 512} {rest : List (Fin 512)} (hq : Node (p ++ [i] ++ j :: rest)) : slot m' n j = none := by
  refine slot_eq_none (link_stop hr hp hw hm hn hnew hempty fun hh => ?_)
  have hfour := hE _ hh
  have hlen := hq.1
  simp only [List.length_append, List.length_cons, List.length_nil] at hlen hfour
  omega

lemma link_cases {q : List (Fin 512)} {u : ℕ} (hq : Node q) (hu : walk (slot m') s.satp q = some u) :
    (q = p ++ [i] ∧ u = n) ∨ (¬ p ++ [i] <+: q ∧ walk (slot s.mem) s.satp q = some u) := by
  refine (linked_table hr hp hw hm hn).walk_cases h.inj hp.inside hq.inside (fun j rest hh => ?_) hu
  exact link_slot hr hp hw hm hn hnew hempty hE (hh ▸ hq)

lemma link_other (hnone : slot s.mem t i = none) {q : List (Fin 512)} (hq : Node q) (hne : q ≠ p ++ [i]) :
    walk (slot m') s.satp q = walk (slot s.mem) s.satp q := by
  refine (linked_table hr hp hw hm hn).walk_of_ne h.inj hp.inside hnone hq.inside (fun j rest hh => ?_) hne
  exact link_slot hr hp hw hm hn hnew hempty hE (hh ▸ hq)

lemma link_entries (hl : p.length < 3) {q : List (Fin 512)} {u : ℕ} {j : Fin 512} (hq : Node q)
    (hu : walk (slot m') s.satp q = some u) (hd : ¬ DirectMapped (q ++ [j])) (hEq : ¬ E (q ++ [j]))
    (hv : entry m' u j % 2 = 1) : EntryOk NoLeaf (q ++ [j]) (entry m' u j) := by
  have hlow := hn.lt hr
  rcases h.link_cases hr hp hw hm hn hnew hempty hE hq hu with ⟨rfl, rfl⟩ | ⟨_, hold⟩
  · rw [link_stop hr hp hw hm hn hnew hempty hEq] at hv
    cases hv
  · rw [hm, entry_store (by omega)] at hv ⊢
    split_ifs at hv ⊢ with hh
    · obtain ⟨rfl, rfl⟩ := hh
      obtain rfl := h.inj q p u hq hp hold hw
      exact EntryOk.table _ n (by simp only [List.length_append, List.length_singleton]; omega) hlow
    · exact h.entries q u j hq hold hd hEq hv

lemma link_leafOf (hl : p.length < 3) (hnone : slot s.mem t i = none) {va : ℕ} (hva : Outside va)
    (hEva : ¬ E (path va)) : leafOf { s with mem := m' } va = leafOf s va := by
  by_cases hva' : [getVpn3 va, getVpn2 va, getVpn1 va] = p ++ [i]
  · -- The new table is the last one for this page, and it has no entry for it.
    have hpath : path va = p ++ [i] ++ [getVpn0 va] := by rw [← hva', path_eq_concat]
    have heven := link_stop hr hp hw hm hn hnew hempty (hpath ▸ hEva)
    have hinvalid : ¬ entry m' n (getVpn0 va) % 2 = 1 := by omega
    have hself := (linked_table hr hp hw hm hn).walk_entry h.inj hp.inside
    have hbefore : walk (slot s.mem) s.satp (p ++ [i]) = none := by rw [walk_concat, hw, Option.bind_some, hnone]
    rw [leafOf, leafOf, hva', hself, hbefore, Option.bind_some, if_neg hinvalid, Option.bind_none]
  · refine leafOf_congr (h.link_other hr hp hw hm hn hnew hempty hE hnone (inner_node hva) hva') fun u hu =>
      entry_link hr hm hn ?_
    rintro rfl
    have hlen := congrArg List.length (h.inj _ p u (inner_node hva) hp hu hw)
    simp only [List.length_cons, List.length_nil] at hlen
    omega

end Paths

end Link

lemma linkTable {s' : State Frames} {n : ℕ} (hE : ∀ q, E q → q.length = 4) (hl : p.length < 3)
    (hnone : slot s.mem t i = none) (hn : TableFrame img held s.mem n)
    (hnew : ∀ q, Node q → walk (slot s.mem) s.satp q ≠ some n)
    (hempty : ∀ j, ¬ E (p ++ [i] ++ [j]) → entry s.mem n j % 2 = 0)
    (hs : s' = { s with mem := store s.mem 8 (4096 * t + 8 * i) (n * 1024 + 1) }) :
    LiveTables img held E s' ∧ walk (slot s'.mem) s.satp (p ++ [i]) = some n ∧
      (∀ q, Node q → q ≠ p ++ [i] → walk (slot s'.mem) s.satp q = walk (slot s.mem) s.satp q) ∧
      ∀ va, Outside va → ¬ E (path va) → leafOf s' va = leafOf s va := by
  subst hs
  have hlink := linked_table hr hp hw (i := i) rfl hn
  refine ⟨⟨h.root, h.frames, ?_, ?_, fun f hf => h.held_store hr hp hw hf, ?_⟩, hlink.walk_entry h.inj hp.inside,
    ?_, ?_⟩
  · exact hlink.injectiveOn h.inj hp.inside h.inj (fun q hq => hq.inside) (fun _ => hnew)
      fun j rest hq => link_slot hr hp hw rfl hn hnew hempty hE hq
  · intro q u hq hu
    rcases h.link_cases hr hp hw rfl hn hnew hempty hE hq hu with ⟨rfl, rfl⟩ | ⟨_, hold⟩
    · exact h.tableFrame_store hr hp hw hn
    · exact h.tableFrame_store hr hp hw (h.tables q u hq hold)
  · exact fun q u j hq hu hd hEq hv => h.link_entries hr hp hw rfl hn hnew hempty hE hl hq hu hd hEq hv
  · exact fun q hq hne => h.link_other hr hp hw rfl hn hnew hempty hE hnone hq hne
  · exact fun va hva hEva => h.link_leafOf hr hp hw rfl hn hnew hempty hE hl hnone hva hEva

omit hr in
lemma walk_storeLast (hl : p.length = 3) (he : e < 2 ^ 64) (hodd : e % 2 = 1) {q : List (Fin 512)} (hq : Node q) :
    walk (slot (store s.mem 8 (4096 * t + 8 * i) e)) s.satp q = walk (slot s.mem) s.satp q := by
  have hlink := Tree.linked hp hw (i := i) (e := e) he hodd rfl
  refine hlink.walk_of_not_prefix h.inj hq.inside fun hpre => ?_
  have hlen := hpre.length_le
  have hlt := hq.1
  simp only [List.length_append, List.length_singleton] at hlen
  omega

omit hr in
lemma leafOf_storeLast (hl : p.length = 3) (he : e < 2 ^ 64) (hodd : e % 2 = 1) {va : ℕ} (hva : Outside va)
    (hne : path va ≠ p ++ [i]) : leafOf { s with mem := store s.mem 8 (4096 * t + 8 * i) e } va = leafOf s va := by
  refine leafOf_congr (h.walk_storeLast hp hw hl he hodd (inner_node hva)) fun u hu => ?_
  change entry (store s.mem 8 (4096 * t + 8 * i) e) u (getVpn0 va) = _
  rw [entry_store he, if_neg]
  rintro ⟨rfl, hj⟩
  have hpeq := h.inj _ p u (inner_node hva) hp hu hw
  exact hne (by rw [path_eq_concat, hpeq, hj])

lemma storeLeaf {s' : State Frames} {v : ℕ} (hpv : p = [getVpn3 v, getVpn2 v, getVpn1 v])
    (hi : i = getVpn0 v) (hE : ∀ q, E q → q = path v) (he : e < 2 ^ 64) (hodd : e % 2 = 1)
    (hok : EntryOk NoLeaf (path v) e) (hs : s' = { s with mem := store s.mem 8 (4096 * t + 8 * i) e }) :
    LiveTables img held (fun _ => False) s' ∧ leafOf s' v = some e ∧
      ∀ va, Outside va → path va ≠ path v → leafOf s' va = leafOf s va := by
  subst hs hi
  have hl : p.length = 3 := by rw [hpv]; rfl
  have hpath : p ++ [getVpn0 v] = path v := by rw [hpv, path_eq_concat]
  have hnode : ∀ q, Node q → walk (slot (store s.mem 8 (4096 * t + 8 * getVpn0 v) e)) s.satp q =
      walk (slot s.mem) s.satp q := fun q hq => h.walk_storeLast hp hw hl he hodd hq
  refine ⟨⟨h.root, h.frames, ?_, ?_, fun f hf => h.held_store hr hp hw hf, ?_⟩, ?_, fun va hva hne => ?_⟩
  · intro q q' u hq hq' hu hu'
    exact h.inj q q' u hq hq' (hnode q hq ▸ hu) (hnode q' hq' ▸ hu')
  · intro q u hq hu
    exact h.tableFrame_store hr hp hw (h.tables q u hq (hnode q hq ▸ hu))
  · intro q u j hq hu hdq _ hvalid
    have hold := hnode q hq ▸ hu
    change entry (store s.mem 8 (4096 * t + 8 * getVpn0 v) e) u j % 2 = 1 at hvalid
    change EntryOk NoLeaf (q ++ [j]) (entry (store s.mem 8 (4096 * t + 8 * getVpn0 v) e) u j)
    rw [entry_store he] at hvalid ⊢
    split_ifs at hvalid ⊢ with hh
    · obtain ⟨rfl, rfl⟩ := hh
      obtain rfl := h.inj q p u hq hp hold hw
      exact hpath ▸ hok
    · refine h.entries q u j hq hold hdq (fun hEq => hh ?_) hvalid
      obtain ⟨rfl, hj⟩ := List.append_inj' ((hE _ hEq).trans hpath.symm) rfl
      rw [hw, Option.some.injEq] at hold
      exact ⟨hold.symm, List.singleton_inj.mp hj⟩
  · have hnew : entry (store s.mem 8 (4096 * t + 8 * getVpn0 v) e) t (getVpn0 v) = e := by
      rw [entry_store he, if_pos ⟨rfl, rfl⟩]
    rw [leafOf, ← hpv, hnode p hp, hw, Option.bind_some, hnew, if_pos hodd]
  · exact h.leafOf_storeLast hp hw hl he hodd hva (hpath ▸ hne)

end Store

lemma not_held_of_free {k : ℕ} (hk : FirstFree img s.mem k) : frame img k ∉ held := by
  intro hh
  obtain ⟨j, _, heq, htaken⟩ := h.held _ hh
  rw [← hr.frame_injective heq, hk.2.1] at htaken
  cases htaken

lemma drawTable {s' : State Frames} {p : List (Fin 512)} {i : Fin 512} {t k : ℕ} (hE : ∀ q, E q → q.length = 4)
    (hl : p.length < 3) (hd : ¬ DirectMapped (p ++ [i])) (hw : walk (slot s.mem) s.satp p = some t)
    (hnone : slot s.mem t i = none) (hk : FirstFree img s.mem k)
    (hempty : ∀ j, ¬ E (p ++ [i] ++ [j]) → entryOf img s.mem k j % 2 = 0)
    (hs : s' = { s with
      mem := setEntry (setPageframeAllocated s.mem (flag img k)) (tableAddress t) i
        (createValidPageTableEntry (PhysicalFrame.getPpn (frame img k))) }) :
    TableDrawn img held E s s' (p ++ [i]) k := by
  have hp : Node p := Node.of_concat hd (by omega)
  have hpi : Node (p ++ [i]) := ⟨by simp only [List.length_append, List.length_singleton]; omega, hd⟩
  obtain ⟨h₁, hwalk, hleaf⟩ := h.draw hr hk (Set.subset_insert _ _)
  have hlow := frame_div_lt hr hk.1
  have he : createValidPageTableEntry (PhysicalFrame.getPpn (frame img k)) = frame img k / 4096 * 1024 + 1 := by
    rw [PhysicalFrame.getPpn_eq, createValidPageTableEntry_eq]
    omega
  rw [he, setEntry_tableAddress ((h.lt hr hp hw).trans (by decide))] at hs
  -- The frame keeps what its last owner has left in it.
  have hkept : ∀ j, entry (setPageframeAllocated s.mem (flag img k)) (frame img k / 4096) j = entryOf img s.mem k j :=
    fun j => entry_congr fun x hx => update_flag_outside hk.1 fun hres => reserved_apart hr hres hx
  have htaken : TableFrame img held (setPageframeAllocated s.mem (flag img k)) (frame img k / 4096) :=
    ⟨k, hk.1, frame_page hr.start_le k, by rw [isFree_setAllocated hr hk.1 hk.1]; simp, h.not_held_of_free hr hk⟩
  have hw₁ := (hwalk p hp.inside).trans hw
  have hnone₁ : slot (setPageframeAllocated s.mem (flag img k)) t i = none := by
    have hh := hwalk (p ++ [i]) hpi.inside
    rwa [walk_concat, walk_concat, hw₁, hw, Option.bind_some, Option.bind_some, hnone] at hh
  have hnew : ∀ q, Node q → walk (slot (setPageframeAllocated s.mem (flag img k))) s.satp q ≠
      some (frame img k / 4096) := fun q hq hh => h.ne_of_free hr hq (hwalk q hq.inside ▸ hh) hk.2.1 rfl
  obtain ⟨h', hself, hother, hleaf'⟩ := h₁.linkTable hr hp hw₁ hE hl hnone₁ htaken hnew
    (fun j hj => (congrArg (· % 2) (hkept j)).trans (hempty j hj)) hs
  have hmem : s'.mem = store (setPageframeAllocated s.mem (flag img k)) 8 (4096 * t + 8 * i)
    (frame img k / 4096 * 1024 + 1) := by rw [hs]
  have hsatp : s'.satp = s.satp := by rw [hs]
  refine ⟨h', hsatp ▸ hself, fun q hq hne => ?_, fun va hva hEva => ?_, fun j => ?_, fun last n hn => ?_⟩
  · rw [hsatp, hother q hq hne]
    exact hwalk q hq.inside
  · exact (hleaf' va hva hEva).trans (hleaf va hva)
  · rw [hmem, entry_store (by omega), if_neg fun hh => h.ne_of_free hr hp hw hk.2.1 hh.1, hkept]
  · rw [Nat.add_comm] at hn
    rw [hmem]
    refine (hn k hk).2.congr hr (fun x hx => ?_) fun j hj hfree x hx => ?_
    · exact h₁.store_reserved hr hp hw₁ hx
    · have hne := h₁.ne_of_free hr hp hw₁ hfree
      exact store_outside (by omega)

omit hr h in
lemma tableAt_of_walk {p : List (Fin 512)} {i : Fin 512} {t u : ℕ} (ht : t < 2 ^ 52)
    (hw : walk (slot s.mem) s.satp p = some t) (hu : walk (slot s.mem) s.satp (p ++ [i]) = some u) :
    tableAt s.mem (tableAddress t) i = tableAddress u := by
  rw [walk_concat, hw, Option.bind_some] at hu
  rw [tableAt_tableAddress ht, ← (slot_eq_some hu).2]

lemma nextTable {s' : State Frames} {p : List (Fin 512)} {i : Fin 512} {t T : ℕ} (hE : ∀ q, E q → q.length = 4)
    (hl : p.length < 3) (hd : ¬ DirectMapped (p ++ [i])) (hw : walk (slot s.mem) s.satp p = some t)
    (hempty : walk (slot s.mem) s.satp (p ++ [i]) = none → ∀ k, FirstFree img s.mem k → ∀ j,
      ¬ E (p ++ [i] ++ [j]) → entryOf img s.mem k j % 2 = 0)
    (hk : nextTable (PhysicalAllocator.kallocFrame (reserved img)) s (tableAddress t) i = some (s', T)) :
    ∃ u, T = tableAddress u ∧ LiveTables img held E s' ∧ walk (slot s'.mem) s'.satp (p ++ [i]) = some u ∧
      (∀ q, Node q → q ≠ p ++ [i] → walk (slot s'.mem) s'.satp q = walk (slot s.mem) s.satp q) ∧
      (∀ va, Outside va → ¬ E (path va) → leafOf s' va = leafOf s va) ∧
      ∀ last n, EmptyAhead img last (missingTable s.mem s.satp (p ++ [i]) + n) s.mem →
        EmptyAhead img last n s'.mem := by
  have hp : Node p := Node.of_concat hd (by omega)
  have ht : t < 2 ^ 52 := (h.lt hr hp hw).trans (by decide)
  have hslot : walk (slot s.mem) s.satp (p ++ [i]) = slot s.mem t i := by rw [walk_concat, hw, Option.bind_some]
  obtain ⟨hT, hcase⟩ := nextTable_cases hk
  rw [isEntryValid_tableAddress ht, decide_eq_true_iff, decide_eq_false_iff_not] at hcase
  rcases hcase with ⟨hv, rfl⟩ | ⟨hv, f, s₁, hk, hs⟩
  · have hs : slot s'.mem t i = some (entry s'.mem t i / 1024 % 2 ^ 52) := by rw [slot, target, if_pos hv]
    refine ⟨_, hT.trans (tableAt_tableAddress ht), h, hslot.trans hs, fun _ _ _ => rfl, fun _ _ _ => rfl,
      fun last n hn => ?_⟩
    rw [missingTable, hslot, hs, Option.isSome_some, if_pos rfl, Nat.zero_add] at hn
    exact hn
  · have hnone : slot s.mem t i = none := slot_eq_none (by omega)
    obtain ⟨k, hfirst, rfl, rfl⟩ := kallocFrame_cases hr h.frames hk
    have hdrawn := h.drawTable hr hE hl hd hw hnone hfirst (hempty (hslot.trans hnone) k hfirst) hs
    have hu := tableAt_of_walk ht ((hdrawn.other p hp (by simp)).trans hw) hdrawn.self
    refine ⟨_, hT.trans hu, hdrawn.live, hdrawn.self, hdrawn.other, hdrawn.leaf, fun last n hn => ?_⟩
    rw [missingTable, hslot, hnone, Option.isSome_none, if_neg (by decide)] at hn
    exact hdrawn.ahead last n hn

end LiveTables

end TetraOS.Memory
