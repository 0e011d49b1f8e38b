import Mathlib.Tactic

/-! Loading the segments of a program into an address space, seen as a partial map from addresses to bytes. -/

namespace TetraOS.Processes

abbrev Space := ℕ → Option UInt8

namespace Space

def mapZero (m : Space) (page : ℕ) : Space := fun x => if x / 4096 = page then some 0 else m x

def copyIn (m : Space) (dest : ℕ) (b : ℕ → UInt8) (n : ℕ) : Space :=
  fun x => if dest ≤ x ∧ x < dest + n then some (b (x - dest)) else m x

def MappedOn (m : Space) (dest n : ℕ) : Prop := ∀ i < n, (m (dest + i)).isSome

end Space

structure Segment where
  offset : ℕ
  vaddr : ℕ
  filesz : ℕ
  memsz : ℕ

namespace Segment

variable (file : ℕ → UInt8) (g : Segment)

def page : ℕ := g.vaddr / 4096

def byte (j : ℕ) : UInt8 := if j < g.filesz then file (g.offset + j) else 0

/-- What the loader does with a segment: it maps one page, and copies. -/
def loaded (m : Space) : Space := (m.mapZero g.page).copyIn g.vaddr (fun i => file (g.offset + i)) g.filesz

def Loadable (m : Space) : Prop := (m.mapZero g.page).MappedOn g.vaddr g.filesz

end Segment

section Loader

variable (file : ℕ → UInt8)

def loadedAll : List Segment → Space → Space
  | [], m => m
  | g :: gs, m => loadedAll gs (g.loaded file m)

def LoadableAll : List Segment → Space → Prop
  | [], _ => True
  | g :: gs, m => g.Loadable m ∧ LoadableAll gs (g.loaded file m)

def Shows (segs : List Segment) (m : Space) : Prop :=
  ∀ g ∈ segs, ∀ j < g.memsz, m (g.vaddr + j) = some (g.byte file j)

def Named (gs : List Segment) (page : ℕ) : Prop := ∃ g ∈ gs, g.memsz = 0 ∧ g.page = page

instance (gs : List Segment) (page : ℕ) : Decidable (Named gs page) := inferInstanceAs (Decidable (∃ g ∈ gs, _))

/-- Byte `j` of a segment gets its page: it is in the first page of the segment, or in one that is there already;
and an empty segment that follows takes nothing from it. -/
structure Fits (before after : List Segment) (g : Segment) (m : Space) (j : ℕ) : Prop where
  kept : Named after ((g.vaddr + j) / 4096) → g.byte file j = 0
  there : (g.vaddr + j) / 4096 = g.page ∨ Named before ((g.vaddr + j) / 4096) ∨
    (j < g.filesz ∧ m (g.vaddr + j) ≠ none) ∨
    (g.filesz ≤ j ∧ (m (g.vaddr + j) = some 0 ∨ Named after ((g.vaddr + j) / 4096)))

def FitsAll (segs : List Segment) (m : Space) : Prop :=
  ∀ before g after, segs = before ++ g :: after → ∀ j < g.memsz, Fits file before after g m j

structure WellFormed (segs : List Segment) : Prop where
  filesz : ∀ g ∈ segs, g.filesz ≤ g.memsz
  disjoint : segs.Pairwise fun g h => ∀ i < g.memsz, ∀ j < h.memsz, (g.vaddr + i) / 4096 ≠ (h.vaddr + j) / 4096

end Loader

section Values

variable {file : ℕ → UInt8} {m : Space} {g : Segment}

lemma Segment.loaded_file {j : ℕ} (hj : j < g.filesz) : g.loaded file m (g.vaddr + j) = some (file (g.offset + j)) := by
  rw [Segment.loaded, Space.copyIn, if_pos ⟨by omega, by omega⟩, Nat.add_sub_cancel_left]

lemma Segment.loaded_outside {x : ℕ} (hx : x < g.vaddr ∨ g.vaddr + g.filesz ≤ x) :
    g.loaded file m x = if x / 4096 = g.page then some 0 else m x := by
  rw [Segment.loaded, Space.copyIn, if_neg (by omega), Space.mapZero]

lemma Segment.loadable_iff : g.Loadable m ↔
    ∀ j < g.filesz, (g.vaddr + j) / 4096 = g.page ∨ (m (g.vaddr + j)).isSome := by
  constructor
  · intro h j hj
    by_cases hp : (g.vaddr + j) / 4096 = g.page
    · exact Or.inl hp
    · have hs := h j hj
      rw [Space.mapZero, if_neg hp] at hs
      exact Or.inr hs
  · intro h j hj
    rw [Space.mapZero]
    rcases h j hj with hp | hs
    · rw [if_pos hp]
      rfl
    · split
      · rfl
      · exact hs

lemma loadedAll_append (before after : List Segment) (m : Space) :
    loadedAll file (before ++ after) m = loadedAll file after (loadedAll file before m) := by
  induction before generalizing m with
  | nil => rfl
  | cons g gs ih => exact ih _

lemma loadableAll_append {before after : List Segment} {m : Space} : LoadableAll file (before ++ after) m ↔
    LoadableAll file before m ∧ LoadableAll file after (loadedAll file before m) := by
  induction before generalizing m with
  | nil => exact (iff_of_eq (true_and _)).symm
  | cons g gs ih =>
    rw [List.cons_append, LoadableAll, LoadableAll, ih, and_assoc]
    rfl

lemma named_cons {gs : List Segment} {page : ℕ} :
    Named (g :: gs) page ↔ g.memsz = 0 ∧ g.page = page ∨ Named gs page := by
  rw [Named, List.exists_mem_cons_iff]
  rfl

lemma loadedAll_apart {gs : List Segment} (hsz : ∀ g ∈ gs, g.filesz ≤ g.memsz) {x : ℕ}
    (hx : ∀ g ∈ gs, ∀ i < g.memsz, (g.vaddr + i) / 4096 ≠ x / 4096) (m : Space) :
    loadedAll file gs m x = if Named gs (x / 4096) then some 0 else m x := by
  induction gs generalizing m with
  | nil => rw [if_neg (by rintro ⟨g, hg, _⟩; cases hg)]; rfl
  | cons g gs ih =>
    have hgsz := hsz g List.mem_cons_self
    have hgx := hx g List.mem_cons_self
    have hout : x < g.vaddr ∨ g.vaddr + g.filesz ≤ x := by
      by_contra hin
      refine hgx (x - g.vaddr) (by omega) ?_
      rw [Nat.add_sub_cancel' (by omega)]
    have hpage : x / 4096 = g.page ↔ g.memsz = 0 ∧ g.page = x / 4096 := by
      constructor
      · intro hp
        refine ⟨?_, hp.symm⟩
        by_contra hpos
        exact hgx 0 (by omega) hp.symm
      · exact fun hp => hp.2.symm
    rw [loadedAll, ih (fun h hh => hsz h (List.mem_cons_of_mem _ hh)) (fun h hh => hx h (List.mem_cons_of_mem _ hh)),
      Segment.loaded_outside hout]
    by_cases hn : Named gs (x / 4096)
    · rw [if_pos hn, if_pos (named_cons.mpr (Or.inr hn))]
    · rw [if_neg hn]
      by_cases hp : x / 4096 = g.page
      · rw [if_pos hp, if_pos (named_cons.mpr (Or.inl (hpage.mp hp)))]
      · rw [if_neg hp, if_neg (fun hh => (named_cons.mp hh).elim (fun hh => hp (hpage.mpr hh)) hn)]

end Values

section Segments

variable {file : ℕ → UInt8} {m : Space} {before after : List Segment} {g : Segment}
    (h : WellFormed (before ++ g :: after))
include h

lemma WellFormed.before_apart {j : ℕ} (hj : j < g.memsz) : ∀ k ∈ before, ∀ i < k.memsz,
    (k.vaddr + i) / 4096 ≠ (g.vaddr + j) / 4096 := by
  intro k hk i hi
  exact (List.pairwise_append.mp h.disjoint).2.2 k hk g List.mem_cons_self i hi j hj

lemma WellFormed.after_apart {j : ℕ} (hj : j < g.memsz) : ∀ k ∈ after, ∀ i < k.memsz,
    (k.vaddr + i) / 4096 ≠ (g.vaddr + j) / 4096 := by
  intro k hk i hi
  have hpair := (List.pairwise_append.mp h.disjoint).2.1
  exact ((List.pairwise_cons.mp hpair).1 k hk j hj i hi).symm

lemma WellFormed.before_value {j : ℕ} (hj : j < g.memsz) : loadedAll file before m (g.vaddr + j) =
    if Named before ((g.vaddr + j) / 4096) then some 0 else m (g.vaddr + j) :=
  loadedAll_apart (fun k hk => h.filesz k (List.mem_append_left _ hk)) (h.before_apart hj) m

lemma WellFormed.value {j : ℕ} (hj : j < g.memsz) : loadedAll file (before ++ g :: after) m (g.vaddr + j) =
    if Named after ((g.vaddr + j) / 4096) then some 0 else g.loaded file (loadedAll file before m) (g.vaddr + j) := by
  rw [loadedAll_append]
  exact loadedAll_apart (fun k hk => h.filesz k (List.mem_append_right _ (List.mem_cons_of_mem _ hk)))
    (h.after_apart hj) _

lemma WellFormed.loadable_of_fits (hfits : ∀ j < g.memsz, Fits file before after g m j) :
    g.Loadable (loadedAll file before m) := by
  rw [Segment.loadable_iff]
  intro j hj
  have hsz := h.filesz g (List.mem_append_right _ List.mem_cons_self)
  rw [h.before_value (by omega)]
  rcases (hfits j (by omega)).there with hp | hn | ⟨_, hm⟩ | ⟨hle, _⟩
  · exact Or.inl hp
  · rw [if_pos hn]
    exact Or.inr rfl
  · right
    split
    · rfl
    · exact Option.isSome_iff_ne_none.mpr hm
  · omega

lemma WellFormed.shows_of_fits {j : ℕ} (hj : j < g.memsz) (hfits : Fits file before after g m j) :
    loadedAll file (before ++ g :: after) m (g.vaddr + j) = some (g.byte file j) := by
  rw [h.value hj]
  by_cases hn : Named after ((g.vaddr + j) / 4096)
  · rw [if_pos hn, hfits.kept hn]
  · rw [if_neg hn]
    by_cases hf : j < g.filesz
    · rw [Segment.loaded_file hf, Segment.byte, if_pos hf]
    · rw [Segment.loaded_outside (by omega), Segment.byte, if_neg hf, h.before_value hj]
      split
      · rfl
      · split
        · rfl
        · have hthere := hfits.there
          tauto

lemma WellFormed.fits {j : ℕ} (hj : j < g.memsz) (hload : g.Loadable (loadedAll file before m))
    (hshow : loadedAll file (before ++ g :: after) m (g.vaddr + j) = some (g.byte file j)) :
    Fits file before after g m j := by
  rw [h.value hj] at hshow
  refine ⟨fun hn => ?_, ?_⟩
  · rw [if_pos hn] at hshow
    exact (Option.some.inj hshow).symm
  · by_cases hf : j < g.filesz
    · rcases Segment.loadable_iff.mp hload j hf with hp | hs
      · exact Or.inl hp
      · rw [h.before_value hj] at hs
        by_cases hn : Named before ((g.vaddr + j) / 4096)
        · exact Or.inr (Or.inl hn)
        · rw [if_neg hn] at hs
          exact Or.inr (Or.inr (Or.inl ⟨hf, Option.isSome_iff_ne_none.mp hs⟩))
    · by_cases hn : Named after ((g.vaddr + j) / 4096)
      · exact Or.inr (Or.inr (Or.inr ⟨by omega, Or.inr hn⟩))
      · rw [if_neg hn, Segment.loaded_outside (by omega), h.before_value hj, Segment.byte, if_neg hf] at hshow
        by_cases hp : (g.vaddr + j) / 4096 = g.page
        · exact Or.inl hp
        · rw [if_neg hp] at hshow
          by_cases hb : Named before ((g.vaddr + j) / 4096)
          · exact Or.inr (Or.inl hb)
          · rw [if_neg hb] at hshow
            exact Or.inr (Or.inr (Or.inr ⟨by omega, Or.inl hshow⟩))

end Segments

lemma loaded_iff_fits {file : ℕ → UInt8} {segs : List Segment} {m : Space} (h : WellFormed segs) :
    LoadableAll file segs m ∧ Shows file segs (loadedAll file segs m) ↔ FitsAll file segs m := by
  constructor
  · rintro ⟨hload, hshow⟩ before g after rfl j hj
    exact h.fits hj (loadableAll_append.mp hload).2.1 (hshow g (List.mem_append_right _ List.mem_cons_self) j hj)
  · intro hfits
    have hrest : ∀ before after, segs = before ++ after → LoadableAll file after (loadedAll file before m) := by
      intro before after
      induction after generalizing before with
      | nil => exact fun _ => trivial
      | cons g after ih =>
        intro heq
        have hg := (heq ▸ h).loadable_of_fits (hfits before g after heq)
        have htail := ih (before ++ [g]) (by rw [heq, List.append_assoc]; rfl)
        rw [loadedAll_append] at htail
        exact ⟨hg, htail⟩
    refine ⟨hrest [] segs rfl, fun g hg j hj => ?_⟩
    obtain ⟨before, after, rfl⟩ := List.append_of_mem hg
    exact h.shows_of_fits hj (hfits before g after rfl j hj)

end TetraOS.Processes
