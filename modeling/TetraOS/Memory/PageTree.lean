import TetraOS.Memory.Paging

/-! The tree of page tables in memory, and what `map_page` does to it. The frame allocator enters only
through its contract: the frames it hands out are below 4 GiB, were not handed out before, and are
apart from the bytes it keeps its own records in. -/

namespace TetraOS.Memory

open Library.ByteMemory Library.TableTree VirtualPage PageTable

variable {α : Type}

structure FrameSource (α : Type) where
  kallocFrame : FrameAlloc α
  Good : Memory → α → Prop
  Free : Memory → α → ℕ → Prop
  Bytes : α → ℕ → Prop
  left : Memory → α → ℕ
  step {m a f m' a'} : Good m a → kallocFrame m a = some (f, m', a') →
    ∃ n, f = 4096 * n ∧ Free m a n ∧ ¬ Free m' a' n ∧ (∀ k, Free m' a' k → Free m a k) ∧
      Good m' a' ∧ (∀ x, ¬ Bytes a x → m' x = m x) ∧ (∀ x, Bytes a' x ↔ Bytes a x) ∧
      left m a = left m' a' + 1
  isSome {m a} : Good m a → 0 < left m a → (kallocFrame m a).isSome
  low {m a n} : Good m a → Free m a n → n < 2 ^ 20
  apart {m a n x} : Good m a → Free m a n → Bytes a x → x / 4096 ≠ n
  local_good {m m' a} : Good m a → (∀ x, Bytes a x → m' x = m x) → Good m' a
  local_free {m m' a n} : Good m a → (∀ x, Bytes a x → m' x = m x) → (Free m' a n ↔ Free m a n)
  local_left {m m' a} : Good m a → (∀ x, Bytes a x → m' x = m x) → left m' a = left m a

/-- The paths of the direct map: the first four gigabytes of the upper half. -/
def DirectMapped (p : List (Fin 512)) : Prop := ∃ j rest, p = 256 :: j :: rest ∧ j < 4

def Outside (va : ℕ) : Prop := ¬ DirectMapped (path va)

lemma outside_iff {va : ℕ} : Outside va ↔ ¬ ((getVpn3 va).val = 256 ∧ (getVpn2 va).val < 4) := by
  apply not_congr
  simp only [DirectMapped, path, List.cons.injEq]
  constructor
  · rintro ⟨j, rest, ⟨h3, rfl, rfl⟩, hj⟩
    exact ⟨by rw [h3]; rfl, hj⟩
  · rintro ⟨h3, h2⟩
    exact ⟨_, _, ⟨Fin.ext h3, rfl, rfl⟩, h2⟩

def Node (p : List (Fin 512)) : Prop := p.length < 4 ∧ ¬ DirectMapped p

def Owned (L : List (Fin 512) → Prop) (p : List (Fin 512)) : Prop :=
  ¬ DirectMapped p ∧ (p.length < 4 ∨ p.length = 4 ∧ L p)

section Paths

variable {p q : List (Fin 512)} {i : Fin 512} {L : List (Fin 512) → Prop}

lemma DirectMapped.of_prefix (h : DirectMapped p) (hp : p <+: q) : DirectMapped q := by
  obtain ⟨j, rest, rfl, hj⟩ := h
  obtain ⟨more, rfl⟩ := hp
  exact ⟨j, rest ++ more, rfl, hj⟩

lemma Node.of_concat (h : ¬ DirectMapped (p ++ [i])) (hl : p.length < 4) : Node p :=
  ⟨hl, fun hd => h (hd.of_prefix (List.prefix_append p [i]))⟩

lemma inside_of_length (hl : q.length ≤ 4) (h : ¬ DirectMapped q) : Inside Node q := by
  intro p i hp
  have hlen := hp.length_le
  simp only [List.length_append, List.length_singleton] at hlen
  exact ⟨by omega, fun hd => h (hd.of_prefix ((List.prefix_append p [i]).trans hp))⟩

lemma Node.inside (h : Node p) : Inside Node p := inside_of_length h.1.le h.2

lemma Node.owned (h : Node p) : Owned L p := ⟨h.2, Or.inl h.1⟩

lemma Owned.length_le (h : Owned L p) : p.length ≤ 4 := by
  rcases h.2 with h | h <;> omega

lemma Owned.inside (h : Owned L p) : Inside Node p := inside_of_length h.length_le h.1

lemma node_nil : Node [] := by
  refine ⟨by simp, ?_⟩
  rintro ⟨j, rest, h, _⟩
  cases h

lemma node_direct : Node [256] := by
  refine ⟨by simp, ?_⟩
  rintro ⟨j, rest, h, _⟩
  cases h

lemma inside_path {va : ℕ} (h : Outside va) : Inside Node (path va) := inside_of_length (by simp [path]) h

end Paths

structure Tree (S : FrameSource α) (L : List (Fin 512) → Prop) (Ok : List (Fin 512) → ℕ → Prop)
    (s : State α) : Prop where
  root : s.firstLevelTable = tableAddress s.satp
  good : S.Good s.mem s.frames
  inj : InjectiveOn (slot s.mem) s.satp (Owned L)
  low : ∀ p t, Owned L p → walk (slot s.mem) s.satp p = some t → t < 2 ^ 20
  taken : ∀ p t, Owned L p → walk (slot s.mem) s.satp p = some t → ¬ S.Free s.mem s.frames t
  apart : ∀ p t x, Owned L p → walk (slot s.mem) s.satp p = some t → S.Bytes s.frames x → x / 4096 ≠ t
  zero : ∀ t, S.Free s.mem s.frames t → Zero s.mem (4096 * t) 4096
  entries : ∀ p t i, Node p → walk (slot s.mem) s.satp p = some t → ¬ DirectMapped (p ++ [i]) →
    entry s.mem t i % 2 = 1 → Ok (p ++ [i]) (entry s.mem t i)
  direct : ∃ t, walk (slot s.mem) s.satp [256] = some t ∧
    ∀ j : Fin 512, j.val < 4 → entry s.mem t j = j.val * 2 ^ 28 + 15

structure Fresh (S : FrameSource α) (L : List (Fin 512) → Prop) (s : State α) (n : ℕ) : Prop where
  low : n < 2 ^ 20
  taken : ¬ S.Free s.mem s.frames n
  apart : ∀ x, S.Bytes s.frames x → x / 4096 ≠ n
  unowned : ∀ q, Owned L q → walk (slot s.mem) s.satp q ≠ some n
  zero : Zero s.mem (4096 * n) 4096

/-- What drawing frames for new tables may do: tables stay where they are, everything new comes
from the free frames, and only tables and the allocator's records are written. -/
structure Grows (S : FrameSource α) (L : List (Fin 512) → Prop) (s s' : State α) : Prop where
  satp : s'.satp = s.satp
  firstLevelTable : s'.firstLevelTable = s.firstLevelTable
  freeList : s'.freeList = s.freeList
  virtualAllocEnd : s'.virtualAllocEnd = s.virtualAllocEnd
  bytes : ∀ x, S.Bytes s'.frames x ↔ S.Bytes s.frames x
  free : ∀ n, S.Free s'.mem s'.frames n → S.Free s.mem s.frames n
  tables : ∀ q t, Node q → walk (slot s.mem) s.satp q = some t → walk (slot s'.mem) s.satp q = some t
  owned : ∀ q t, Owned L q → walk (slot s'.mem) s.satp q = some t →
    walk (slot s.mem) s.satp q = some t ∨ S.Free s.mem s.frames t
  mem : ∀ x, ¬ S.Bytes s.frames x → (∀ q, Node q → walk (slot s'.mem) s.satp q ≠ some (x / 4096)) →
    s'.mem x = s.mem x

def missingTable (m : Memory) (r : ℕ) (q : List (Fin 512)) : ℕ := if (walk (slot m) r q).isSome then 0 else 1

def missingTables (m : Memory) (r v : ℕ) : ℕ :=
  missingTable m r [getVpn3 v] + missingTable m r [getVpn3 v, getVpn2 v] +
    missingTable m r [getVpn3 v, getVpn2 v, getVpn1 v]

lemma missingTables_le (m : Memory) (r v : ℕ) : missingTables m r v ≤ 3 := by
  have hle : ∀ q, missingTable m r q ≤ 1 := by
    intro q
    rw [missingTable]
    split <;> omega
  have h₁ := hle [getVpn3 v]
  have h₂ := hle [getVpn3 v, getVpn2 v]
  have h₃ := hle [getVpn3 v, getVpn2 v, getVpn1 v]
  rw [missingTables]
  omega

structure Descends (S : FrameSource α) (L : List (Fin 512) → Prop) (Ok : List (Fin 512) → ℕ → Prop)
    (s s' : State α) (p : List (Fin 512)) (t k : ℕ) : Prop where
  tree : Tree S L Ok s'
  grows : Grows S L s s'
  self : walk (slot s'.mem) s.satp p = some t
  other : ∀ q, Inside Node q → ¬ q <+: p → walk (slot s'.mem) s.satp q = walk (slot s.mem) s.satp q
  left : S.left s.mem s.frames = S.left s'.mem s'.frames + k

/-- The effect of `map_page` on the tree: one page changes, and the tables that were missing on its
way are drawn from the free frames. -/
structure Maps (S : FrameSource α) (L : List (Fin 512) → Prop) (s s' : State α) (v n : ℕ) : Prop where
  satp : s'.satp = s.satp
  freeList : s'.freeList = s.freeList
  virtualAllocEnd : s'.virtualAllocEnd = s.virtualAllocEnd
  bytes : ∀ x, S.Bytes s'.frames x ↔ S.Bytes s.frames x
  free : ∀ k, S.Free s'.mem s'.frames k → S.Free s.mem s.frames k
  tables : ∀ q t, Node q → walk (slot s.mem) s.satp q = some t → walk (slot s'.mem) s.satp q = some t
  owned : ∀ q t, Owned L q → walk (slot s'.mem) s.satp q = some t → q ≠ path v →
    walk (slot s.mem) s.satp q = some t ∨ S.Free s.mem s.frames t
  mem : ∀ x, ¬ S.Bytes s.frames x → (∀ q, Node q → walk (slot s'.mem) s.satp q ≠ some (x / 4096)) →
    s'.mem x = s.mem x
  self : walk (slot s'.mem) s.satp (path v) = some n
  other : ∀ q, Inside Node q → ¬ q <+: path v → walk (slot s'.mem) s.satp q = walk (slot s.mem) s.satp q
  left : S.left s.mem s.frames = S.left s'.mem s'.frames + missingTables s.mem s.satp v

section Steps

variable {S : FrameSource α} {L : List (Fin 512) → Prop} {Ok : List (Fin 512) → ℕ → Prop}
  {s₀ s s₁ s₂ s' s'' : State α}

lemma Grows.refl (s : State α) : Grows S L s s :=
  ⟨rfl, rfl, rfl, rfl, fun _ => Iff.rfl, fun _ h => h, fun _ _ _ h => h, fun _ _ _ h => Or.inl h,
    fun _ _ _ => rfl⟩

lemma Grows.trans (h : Grows S L s s') (h' : Grows S L s' s'') : Grows S L s s'' := by
  have htables : ∀ q t, Node q → walk (slot s'.mem) s.satp q = some t →
      walk (slot s''.mem) s.satp q = some t := by
    have hh := h'.tables
    rw [h.satp] at hh
    exact hh
  have howned := h'.owned
  have hmem := h'.mem
  rw [h.satp] at howned hmem
  refine ⟨h'.satp.trans h.satp, h'.firstLevelTable.trans h.firstLevelTable, h'.freeList.trans h.freeList,
    h'.virtualAllocEnd.trans h.virtualAllocEnd, fun x => (h'.bytes x).trans (h.bytes x),
    fun n hn => h.free n (h'.free n hn), fun q t hq hw => htables q t hq (h.tables q t hq hw), ?_, ?_⟩
  · intro q t hq hw
    rcases howned q t hq hw with hw | hf
    · exact h.owned q t hq hw
    · exact Or.inr (h.free t hf)
  · intro x hb hx
    exact (hmem x (fun hh => hb ((h.bytes x).mp hh)) hx).trans
      (h.mem x hb fun q hq hw => hx q hq (htables q _ hq hw))

lemma Fresh.grows {n : ℕ} (hf : Fresh S L s n) (h : Grows S L s s') : Fresh S L s' n where
  low := hf.low
  taken hn := hf.taken (h.free n hn)
  apart x hx := hf.apart x ((h.bytes x).mp hx)
  unowned q hq hw := by
    rw [h.satp] at hw
    rcases h.owned q n hq hw with hw | hn
    · exact hf.unowned q hq hw
    · exact hf.taken hn
  zero x hx hx' := by
    have hpage : x / 4096 = n := by omega
    rw [h.mem x (fun hb => hf.apart x hb hpage), hf.zero x hx hx']
    intro q hq hw
    rw [hpage] at hw
    rcases h.owned q n hq.owned hw with hw | hn
    · exact hf.unowned q hq.owned hw
    · exact hf.taken hn

lemma Fresh.ne_of_walk {p : List (Fin 512)} {n t : ℕ} (hf : Fresh S L s n) (hp : Node p)
    (hw : walk (slot s.mem) s.satp p = some t) : n ≠ t := by
  rintro rfl
  exact hf.unowned p hp.owned hw

lemma Fresh.entry_store {n t e : ℕ} (hf : Fresh S L s n) (hne : n ≠ t) (he : e < 2 ^ 64) (i j : Fin 512) :
    entry (store s.mem 8 (4096 * t + 8 * i) e) n j = 0 := by
  rw [Memory.entry_store he, if_neg (fun hh => hne hh.1), entry_zero hf.zero]

lemma Fresh.slot_store {n t e : ℕ} (hf : Fresh S L s n) (hne : n ≠ t) (he : e < 2 ^ 64) (i j : Fin 512) :
    slot (store s.mem 8 (4096 * t + 8 * i) e) n j = none := by
  rw [slot, hf.entry_store hne he, target, if_neg (by decide)]

lemma tables_congr {m' : Memory}
    (ht : ∀ q x, Node q → walk (slot s.mem) s.satp q = some (x / 4096) → m' x = s.mem x) :
    (∀ p t i, Node p → walk (slot s.mem) s.satp p = some t → entry m' t i = entry s.mem t i) ∧
      ∀ q, Inside Node q → walk (slot m') s.satp q = walk (slot s.mem) s.satp q := by
  have he : ∀ p t i, Node p → walk (slot s.mem) s.satp p = some t → entry m' t i = entry s.mem t i := by
    intro p t i hp hw
    apply entry_congr
    rintro x rfl
    exact ht p x hp hw
  exact ⟨he, fun q hq => walk_congr (fun p t i hp hw => congrArg target (he p t i hp hw)) hq⟩

namespace Tree

variable (h : Tree S L Ok s)
include h

lemma node_inj : InjectiveOn (slot s.mem) s.satp Node :=
  fun p q t hp hq => h.inj p q t hp.owned hq.owned

lemma lt_of_node {p : List (Fin 512)} {t : ℕ} (hp : Node p) (hw : walk (slot s.mem) s.satp p = some t) :
    t < 2 ^ 52 := (h.low p t hp.owned hw).trans (by decide)

lemma change {m' : Memory} {a' : α} (hgood : S.Good m' a')
    (hbytes : ∀ x, S.Bytes a' x ↔ S.Bytes s.frames x)
    (hfree : ∀ n, S.Free m' a' n → S.Free s.mem s.frames n)
    (ht : ∀ q x, Node q → walk (slot s.mem) s.satp q = some (x / 4096) → m' x = s.mem x)
    (hz : ∀ x, S.Free m' a' (x / 4096) → m' x = s.mem x) (hs : s' = { s with mem := m', frames := a' }) :
    Tree S L Ok s' ∧ ∀ q, Inside Node q → walk (slot s'.mem) s.satp q = walk (slot s.mem) s.satp q := by
  subst hs
  obtain ⟨he, hw⟩ := tables_congr ht
  refine ⟨⟨h.root, hgood, ?_, ?_, ?_, ?_, ?_, ?_, ?_⟩, hw⟩
  · intro p q t hp hq hp' hq'
    rw [hw p hp.inside] at hp'
    rw [hw q hq.inside] at hq'
    exact h.inj p q t hp hq hp' hq'
  · intro p t hp hp'
    rw [hw p hp.inside] at hp'
    exact h.low p t hp hp'
  · intro p t hp hp' hf
    rw [hw p hp.inside] at hp'
    exact h.taken p t hp hp' (hfree t hf)
  · intro p t x hp hp' hx
    rw [hw p hp.inside] at hp'
    exact h.apart p t x hp hp' ((hbytes x).mp hx)
  · intro t hf x hx hx'
    have hpage : x / 4096 = t := by omega
    exact (hz x (hpage ▸ hf)).trans (h.zero t (hfree t hf) x hx hx')
  · intro p t i hp hp' hd hv
    rw [hw p hp.inside] at hp'
    rw [he p t i hp hp'] at hv ⊢
    exact h.entries p t i hp hp' hd hv
  · obtain ⟨t, ht, hj⟩ := h.direct
    refine ⟨t, (hw _ node_direct.inside).trans ht, fun j hlt => ?_⟩
    exact (he _ t j node_direct ht).trans (hj j hlt)

lemma write {m' : Memory} (hb : ∀ x, S.Bytes s.frames x → m' x = s.mem x)
    (ht : ∀ q x, Node q → walk (slot s.mem) s.satp q = some (x / 4096) → m' x = s.mem x)
    (hz : ∀ x, S.Free s.mem s.frames (x / 4096) → m' x = s.mem x) (hs : s' = { s with mem := m' }) :
    Tree S L Ok s' ∧ ∀ q, Inside Node q → walk (slot s'.mem) s.satp q = walk (slot s.mem) s.satp q :=
  h.change (S.local_good h.good hb) (fun _ => Iff.rfl) (fun _ => (S.local_free h.good hb).mp) ht
    (fun x hx => hz x ((S.local_free h.good hb).mp hx)) hs

lemma kallocFrame {f : ℕ} (hk : s.kallocFrame S.kallocFrame = some (f, s')) :
    ∃ n, f = 4096 * n ∧ S.Free s.mem s.frames n ∧ Fresh S L s' n ∧ Tree S L Ok s' ∧ Grows S L s s' ∧
      (∀ q, Inside Node q → walk (slot s'.mem) s.satp q = walk (slot s.mem) s.satp q) ∧
      S.left s.mem s.frames = S.left s'.mem s'.frames + 1 := by
  obtain ⟨⟨f', m', a'⟩, hk', heq⟩ := Option.map_eq_some_iff.mp hk
  obtain ⟨rfl, rfl⟩ := Prod.mk.inj heq
  obtain ⟨n, rfl, hn, hn', hfree, hgood, hmem, hbytes, hleft⟩ := S.step h.good hk'
  have htable : ∀ q x, Node q → walk (slot s.mem) s.satp q = some (x / 4096) → m' x = s.mem x :=
    fun q x hq hw => hmem x fun hb => h.apart q _ x hq.owned hw hb rfl
  have hzero : ∀ x, S.Free s.mem s.frames (x / 4096) → m' x = s.mem x :=
    fun x hx => hmem x fun hb => S.apart h.good hx hb rfl
  obtain ⟨ht, hw⟩ := h.change hgood hbytes hfree htable (fun x hx => hzero x (hfree _ hx)) rfl
  refine ⟨n, rfl, hn, ⟨S.low h.good hn, hn', ?_, ?_, ?_⟩, ht, ⟨rfl, rfl, rfl, rfl, hbytes, hfree, ?_, ?_, ?_⟩,
    hw, hleft⟩
  · exact fun x hx => S.apart h.good hn ((hbytes x).mp hx)
  · intro q hq hh
    exact h.taken q n hq (hw q hq.inside ▸ hh) hn
  · intro x hx hx'
    have hpage : x / 4096 = n := by omega
    exact (hzero x (hpage ▸ hn)).trans (h.zero n hn x hx hx')
  · exact fun q t hq hh => (hw q hq.inside).trans hh
  · exact fun q t hq hh => Or.inl (hw q hq.inside ▸ hh)
  · exact fun x hb _ => hmem x hb

section SetEntry

variable {p : List (Fin 512)} {i : Fin 512} {t e n : ℕ} (hp : Node p)
    (hw : walk (slot s.mem) s.satp p = some t) (he : e < 2 ^ 64)
include hp hw he

omit h in
lemma linked (hv : e % 2 = 1) (hn : e / 1024 % 2 ^ 52 = n) :
    Linked (slot s.mem) (slot (store s.mem 8 (4096 * t + 8 * i) e)) s.satp Node p i t n := by
  refine ⟨hp, hw, ?_, ?_⟩
  · rw [slot, entry_store he, if_pos ⟨rfl, rfl⟩, target, if_pos hv, hn]
  · intro q u j _ _ hne
    rw [slot, entry_store he, if_neg (by tauto), slot]

omit he in
lemma bytes_setEntry {x : ℕ} (hx : S.Bytes s.frames x) : store s.mem 8 (4096 * t + 8 * i) e x = s.mem x := by
  have hpage := h.apart p t x hp.owned hw hx
  exact store_outside (by omega)

omit he in
lemma zero_setEntry (hfree : ∀ k, S.Free (store s.mem 8 (4096 * t + 8 * i) e) s.frames k ↔ S.Free s.mem s.frames k)
    {u : ℕ} (hu : S.Free (store s.mem 8 (4096 * t + 8 * i) e) s.frames u) :
    Zero (store s.mem 8 (4096 * t + 8 * i) e) (4096 * u) 4096 := by
  intro x hx hx'
  have hfree' := (hfree u).mp hu
  have hne : u ≠ t := by
    rintro rfl
    exact h.taken p u hp.owned hw hfree'
  rw [store_outside (by omega)]
  exact h.zero u hfree' x hx hx'

lemma direct_setEntry (hv : e % 2 = 1) (hn : e / 1024 % 2 ^ 52 = n) (hd : ¬ DirectMapped (p ++ [i]))
    (h256 : p ++ [i] ≠ [256]) :
    ∃ u, walk (slot (store s.mem 8 (4096 * t + 8 * i) e)) s.satp [256] = some u ∧
      ∀ j : Fin 512, j.val < 4 → entry (store s.mem 8 (4096 * t + 8 * i) e) u j = j.val * 2 ^ 28 + 15 := by
  obtain ⟨u, hu, hj⟩ := h.direct
  have hpre : ¬ p ++ [i] <+: [256] := by
    intro hpre
    refine h256 (hpre.eq_of_length ?_)
    have hl := hpre.length_le
    simp only [List.length_append, List.length_singleton] at hl ⊢
    omega
  have hlink := linked (i := i) hp hw he hv hn
  refine ⟨u, (hlink.walk_of_not_prefix h.node_inj node_direct.inside hpre).trans hu, fun j hlt => ?_⟩
  rw [entry_store he, if_neg, hj j hlt]
  rintro ⟨rfl, rfl⟩
  obtain rfl := h.node_inj p [256] u hp node_direct hw hu
  exact hd ⟨j, [], rfl, hlt⟩

section Fresh

variable (hv : e % 2 = 1) (hn : e / 1024 % 2 ^ 52 = n) (hd : ¬ DirectMapped (p ++ [i]))
  (hfresh : Owned L (p ++ [i]) → Fresh S L s n)
include hd hfresh

omit h in
/-- Behind the new entry there is nothing yet: a table just drawn is zero, and a leaf ends the path. -/
lemma slot_behind_setEntry {j : Fin 512} {rest : List (Fin 512)} (hlen : (p ++ [i] ++ j :: rest).length ≤ 4) :
    slot (store s.mem 8 (4096 * t + 8 * i) e) n j = none := by
  simp only [List.length_append, List.length_cons] at hlen
  have hf := hfresh ⟨hd, Or.inl (by simp; omega)⟩
  exact hf.slot_store (hf.ne_of_walk hp hw) he i j

include hv hn

lemma walk_setEntry {q : List (Fin 512)} {u : ℕ} (hq : Owned L q)
    (hu : walk (slot (store s.mem 8 (4096 * t + 8 * i) e)) s.satp q = some u) :
    (q = p ++ [i] ∧ u = n) ∨ (¬ p ++ [i] <+: q ∧ walk (slot s.mem) s.satp q = some u) :=
  (linked hp hw he hv hn).walk_cases h.node_inj hp.inside hq.inside
    (fun _ _ hrest => slot_behind_setEntry hp hw he hd hfresh (hrest ▸ hq.length_le)) hu

lemma entries_setEntry (hok : Ok (p ++ [i]) e) {q : List (Fin 512)} {u : ℕ} {j : Fin 512} (hq : Node q)
    (hu : walk (slot (store s.mem 8 (4096 * t + 8 * i) e)) s.satp q = some u) (hdq : ¬ DirectMapped (q ++ [j]))
    (hvq : entry (store s.mem 8 (4096 * t + 8 * i) e) u j % 2 = 1) :
    Ok (q ++ [j]) (entry (store s.mem 8 (4096 * t + 8 * i) e) u j) := by
  rcases h.walk_setEntry hp hw he hv hn hd hfresh hq.owned hu with ⟨rfl, rfl⟩ | ⟨_, hold⟩
  · have hf := hfresh hq.owned
    rw [hf.entry_store (hf.ne_of_walk hp hw) he] at hvq
    cases hvq
  · rw [entry_store he] at hvq ⊢
    split
    · rename_i hh
      obtain ⟨rfl, rfl⟩ := hh
      obtain rfl := h.node_inj q p u hq hp hold hw
      exact hok
    · rename_i hh
      rw [if_neg hh] at hvq
      exact h.entries q u j hq hold hdq hvq

lemma setEntry (h256 : p ++ [i] ≠ [256]) (hok : Ok (p ++ [i]) e)
    (hs : s' = { s with mem := store s.mem 8 (4096 * t + 8 * i) e }) : Tree S L Ok s' := by
  subst hs
  have hbytes : ∀ x, S.Bytes s.frames x → store s.mem 8 (4096 * t + 8 * i) e x = s.mem x := fun x hx =>
    h.bytes_setEntry hp hw hx
  have hfree := fun k => S.local_free (n := k) h.good hbytes
  have hcases := fun q u => h.walk_setEntry (q := q) (u := u) hp hw he hv hn hd hfresh
  refine ⟨h.root, S.local_good h.good hbytes, ?_, ?_, ?_, ?_, fun u hu => h.zero_setEntry hp hw hfree hu,
    fun q u j hq hu hdq hvq => h.entries_setEntry hp hw he hv hn hd hfresh hok hq hu hdq hvq,
    h.direct_setEntry hp hw he hv hn hd h256⟩
  · exact (linked hp hw he hv hn).injectiveOn h.node_inj hp.inside h.inj (fun q hq => hq.inside)
      (fun ho => (hfresh ho).unowned) fun j q ho => slot_behind_setEntry hp hw he hd hfresh ho.length_le
  · intro q u hq hu
    rcases hcases q u hq hu with ⟨rfl, rfl⟩ | ⟨_, hu⟩
    · exact (hfresh hq).low
    · exact h.low q u hq hu
  · intro q u hq hu hf
    rcases hcases q u hq hu with ⟨rfl, rfl⟩ | ⟨_, hu⟩
    · exact (hfresh hq).taken ((hfree u).mp hf)
    · exact h.taken q u hq hu ((hfree u).mp hf)
  · intro q u x hq hu hx
    rcases hcases q u hq hu with ⟨rfl, rfl⟩ | ⟨_, hu⟩
    · exact (hfresh hq).apart x hx
    · exact h.apart q u x hq hu hx

end Fresh

end SetEntry

section Link

variable {p : List (Fin 512)} {i : Fin 512} {t n : ℕ} (hp : Node p)
    (hw : walk (slot s.mem) s.satp p = some t)
include hp hw

lemma linkTable (hd : ¬ DirectMapped (p ++ [i])) (hnone : slot s.mem t i = none)
    (hok : Ok (p ++ [i]) (n * 1024 + 1)) (hfresh : Fresh S L s n)
    (hs : s' = { s with mem := store s.mem 8 (4096 * t + 8 * i) (n * 1024 + 1) }) :
    Tree S L Ok s' ∧ walk (slot s'.mem) s.satp (p ++ [i]) = some n ∧
      ∀ q, Inside Node q → q ≠ p ++ [i] → walk (slot s'.mem) s.satp q = walk (slot s.mem) s.satp q := by
  have hn := hfresh.low
  have h256 : p ++ [i] ≠ [256] := by
    intro heq
    obtain ⟨u, hu, _⟩ := h.direct
    rw [← heq, walk_concat, hw, Option.bind_some, hnone] at hu
    cases hu
  have htree := h.setEntry (n := n) hp hw (by omega) (by omega) (by omega) hd (fun _ => hfresh) h256 hok hs
  have hlink := linked hp hw (i := i) (e := n * 1024 + 1) (n := n) (by omega) (by omega) (by omega)
  subst hs
  refine ⟨htree, hlink.walk_entry h.node_inj hp.inside, fun q hq hne => ?_⟩
  exact hlink.walk_of_ne h.node_inj hp.inside hnone hq
    (fun j rest _ => hfresh.slot_store (hfresh.ne_of_walk hp hw) (by omega) i j) hne

lemma setEntry_grows {e : ℕ} (hgrow : Grows S L s₀ s)
    (htables : ∀ q u, Node q → walk (slot s.mem) s₀.satp q = some u →
      walk (slot (store s.mem 8 (4096 * t + 8 * i) e)) s₀.satp q = some u) :
    (∀ k, S.Free (store s.mem 8 (4096 * t + 8 * i) e) s.frames k → S.Free s₀.mem s₀.frames k) ∧
      (∀ x, ¬ S.Bytes s₀.frames x → (∀ q, Node q →
        walk (slot (store s.mem 8 (4096 * t + 8 * i) e)) s₀.satp q ≠ some (x / 4096)) →
        store s.mem 8 (4096 * t + 8 * i) e x = s₀.mem x) ∧
      S.left (store s.mem 8 (4096 * t + 8 * i) e) s.frames = S.left s.mem s.frames := by
  have hpage : ∀ x, x / 4096 ≠ t → store s.mem 8 (4096 * t + 8 * i) e x = s.mem x :=
    fun x hx => store_outside (by omega)
  have hb : ∀ x, S.Bytes s.frames x → store s.mem 8 (4096 * t + 8 * i) e x = s.mem x :=
    fun x hx => hpage x (h.apart p t x hp.owned hw hx)
  refine ⟨fun k hk => hgrow.free k ((S.local_free h.good hb).mp hk), fun x hx hq => ?_, S.local_left h.good hb⟩
  have hne : x / 4096 ≠ t := by
    rintro rfl
    exact hq p hp (htables p _ hp (hgrow.satp ▸ hw))
  exact (hpage x hne).trans (hgrow.mem x hx fun q hq' hh => hq q hq' (htables q _ hq' hh))

end Link

lemma drawTable (hok : ∀ q n, q.length < 4 → n < 2 ^ 20 → Ok q (n * 1024 + 1))
    {p : List (Fin 512)} {i : Fin 512} {t f : ℕ} (hl : p.length < 3)
    (hw : walk (slot s.mem) s.satp p = some t) (hd : ¬ DirectMapped (p ++ [i])) (hnone : slot s.mem t i = none)
    (hk : s.kallocFrame S.kallocFrame = some (f, s₁))
    (hs : s' = { s₁ with
      mem := PageTable.setEntry s₁.mem (tableAddress t) i (createValidPageTableEntry (PhysicalFrame.getPpn f)) }) :
    ∃ n, Tree S L Ok s' ∧ Grows S L s s' ∧ walk (slot s'.mem) s.satp (p ++ [i]) = some n ∧
      (∀ q, Inside Node q → q ≠ p ++ [i] → walk (slot s'.mem) s.satp q = walk (slot s.mem) s.satp q) ∧
      S.left s.mem s.frames = S.left s'.mem s'.frames + 1 := by
  have hp : Node p := Node.of_concat hd (by omega)
  have hpi : Node (p ++ [i]) := ⟨by simp; omega, hd⟩
  have hslot : walk (slot s.mem) s.satp (p ++ [i]) = none := by
    rw [walk_concat, hw, Option.bind_some, hnone]
  obtain ⟨n, rfl, hn, hfresh, htree, hgrow, hwalk, hleft⟩ := h.kallocFrame hk
  have hlow := hfresh.low
  have hsatp := hgrow.satp
  have hw₁ : walk (slot s₁.mem) s₁.satp p = some t := by rw [hsatp, hwalk p hp.inside, hw]
  have hnone₁ : slot s₁.mem t i = none := by
    have hh := hwalk (p ++ [i]) hpi.inside
    rwa [hslot, ← hsatp, walk_concat, hw₁, Option.bind_some] at hh
  have he : createValidPageTableEntry (PhysicalFrame.getPpn (4096 * n)) = n * 1024 + 1 := by
    rw [PhysicalFrame.getPpn_eq, createValidPageTableEntry_eq]
    omega
  rw [he, setEntry_tableAddress (h.lt_of_node hp hw)] at hs
  obtain ⟨htree', hself, hother⟩ := htree.linkTable hp hw₁ hd hnone₁ (hok _ n hpi.1 hlow) hfresh hs
  rw [hsatp] at hself hother
  have hother' : ∀ q, Inside Node q → q ≠ p ++ [i] →
      walk (slot s'.mem) s.satp q = walk (slot s.mem) s.satp q :=
    fun q hq hne => (hother q hq hne).trans (hwalk q hq)
  have htables : ∀ q u, Node q → walk (slot s₁.mem) s.satp q = some u → walk (slot s'.mem) s.satp q = some u := by
    intro q u hq hu
    refine (hother q hq.inside ?_).trans hu
    rintro rfl
    rw [hwalk _ hpi.inside, hslot] at hu
    cases hu
  subst hs
  obtain ⟨hfree, hmem, hleft'⟩ := htree.setEntry_grows hp hw₁ hgrow htables
  refine ⟨n, htree', ⟨hsatp, hgrow.firstLevelTable, hgrow.freeList, hgrow.virtualAllocEnd, hgrow.bytes, hfree,
    fun q u hq hu => htables q u hq (hgrow.tables q u hq hu), ?_, hmem⟩, hself, hother', ?_⟩
  · intro q u hq hu
    by_cases hne : q = p ++ [i]
    · rw [hne, hself, Option.some.injEq] at hu
      exact Or.inr (hu ▸ hn)
    · exact Or.inl (hother' q hq.inside hne ▸ hu)
  · rw [hleft', hleft]

lemma nextTable (hok : ∀ q n, q.length < 4 → n < 2 ^ 20 → Ok q (n * 1024 + 1))
    {p : List (Fin 512)} {i : Fin 512} {t T : ℕ} (hl : p.length < 3)
    (hw : walk (slot s.mem) s.satp p = some t) (hd : ¬ DirectMapped (p ++ [i]))
    (hk : nextTable S.kallocFrame s (tableAddress t) i = some (s', T)) :
    ∃ u, T = tableAddress u ∧ Tree S L Ok s' ∧ Grows S L s s' ∧
      walk (slot s'.mem) s.satp (p ++ [i]) = some u ∧
      (∀ q, Inside Node q → q ≠ p ++ [i] → walk (slot s'.mem) s.satp q = walk (slot s.mem) s.satp q) ∧
      S.left s.mem s.frames = S.left s'.mem s'.frames + missingTable s.mem s.satp (p ++ [i]) := by
  have hp : Node p := Node.of_concat hd (by omega)
  have ht := h.lt_of_node hp hw
  have hslot : walk (slot s.mem) s.satp (p ++ [i]) = slot s.mem t i := by
    rw [walk_concat, hw, Option.bind_some]
  obtain ⟨hT, hcase⟩ := nextTable_cases hk
  rw [isEntryValid_tableAddress ht, decide_eq_true_iff, decide_eq_false_iff_not] at hcase
  rw [tableAt_tableAddress ht] at hT
  rw [missingTable, hslot]
  rcases hcase with ⟨hv, rfl⟩ | ⟨hv, f, s₁, hk, hs⟩
  · have hs : slot s'.mem t i = some (entry s'.mem t i / 1024 % 2 ^ 52) := by rw [slot, target, if_pos hv]
    exact ⟨_, hT, h, Grows.refl s', hslot.trans hs, fun _ _ _ => rfl, by rw [hs]; rfl⟩
  · have hnone : slot s.mem t i = none := by rw [slot, target, if_neg hv]
    obtain ⟨n, htree, hgrow, hself, hother, hleft⟩ := h.drawTable hok hl hw hd hnone hk hs
    have hu : slot s'.mem t i = some n := by
      rwa [walk_concat, hother p hp.inside (by simp), hw, Option.bind_some] at hself
    exact ⟨n, hT.trans (congrArg tableAddress (slot_eq_some hu).2.symm), htree, hgrow, hself, hother, by
      rw [hnone]; exact hleft⟩

lemma nextTable_isSome {p : List (Fin 512)} {i : Fin 512} {t : ℕ} (hp : Node p)
    (hw : walk (slot s.mem) s.satp p = some t)
    (hl : missingTable s.mem s.satp (p ++ [i]) ≤ S.left s.mem s.frames) :
    ∃ s' T, Memory.nextTable S.kallocFrame s (tableAddress t) i = some (s', T) := by
  have ht := h.lt_of_node hp hw
  rw [missingTable, walk_concat, hw, Option.bind_some, slot, target] at hl
  by_cases hv : entry s.mem t i % 2 = 1
  · exact ⟨_, _, by
      simp only [Memory.nextTable, isEntryValid_tableAddress ht, hv, decide_true, if_true, Option.map_some]
      rfl⟩
  · rw [if_neg hv, Option.isSome_none, if_neg (by decide)] at hl
    obtain ⟨⟨f, m, a⟩, hk⟩ := Option.isSome_iff_exists.mp (S.isSome h.good hl)
    exact ⟨_, _, by
      simp only [Memory.nextTable, isEntryValid_tableAddress ht, hv, decide_false, Bool.false_eq_true,
        if_false, State.kallocFrame, hk, Option.map_some]
      rfl⟩

lemma descends_nil : Descends S L Ok s s [] s.satp 0 :=
  ⟨h, Grows.refl s, walk_nil, fun _ _ _ => rfl, rfl⟩

end Tree

namespace Descends

variable {p : List (Fin 512)} {i : Fin 512} {t k : ℕ} (h : Descends S L Ok s s₁ p t k)
  (hl : p.length < 3) (hd : ¬ DirectMapped (p ++ [i]))
include h hl hd

lemma missingTable_next : missingTable s₁.mem s₁.satp (p ++ [i]) = missingTable s.mem s.satp (p ++ [i]) := by
  have hpi : Node (p ++ [i]) := ⟨by simp; omega, hd⟩
  rw [missingTable, h.grows.satp, h.other _ hpi.inside, missingTable]
  intro hpre
  have hlen := hpre.length_le
  simp at hlen

lemma next (hok : ∀ q n, q.length < 4 → n < 2 ^ 20 → Ok q (n * 1024 + 1)) {T : ℕ}
    (hk : nextTable S.kallocFrame s₁ (tableAddress t) i = some (s₂, T)) :
    ∃ u, T = tableAddress u ∧ Descends S L Ok s s₂ (p ++ [i]) u (k + missingTable s.mem s.satp (p ++ [i])) := by
  have hr := h.grows.satp
  obtain ⟨u, hT, htree, hgrow, hself, hother, hleft⟩ := h.tree.nextTable hok hl (hr ▸ h.self) hd hk
  rw [h.missingTable_next hl hd] at hleft
  rw [hr] at hself hother
  refine ⟨u, hT, htree, h.grows.trans hgrow, hself, fun q hq hpre => ?_, by rw [h.left, hleft]; omega⟩
  rw [hother q hq (by rintro rfl; exact hpre (List.prefix_refl _)),
    h.other q hq fun hh => hpre (hh.trans (List.prefix_append _ _))]

lemma next_isSome (hleft : k + missingTable s.mem s.satp (p ++ [i]) ≤ S.left s.mem s.frames) :
    ∃ s₂ T, nextTable S.kallocFrame s₁ (tableAddress t) i = some (s₂, T) := by
  refine h.tree.nextTable_isSome (Node.of_concat hd (by omega)) (h.grows.satp ▸ h.self) ?_
  rw [h.missingTable_next hl hd]
  have hk := h.left
  omega

end Descends

namespace Tree

variable (h : Tree S L Ok s)
include h

lemma mapPage (hok : ∀ q n, q.length < 4 → n < 2 ^ 20 → Ok q (n * 1024 + 1)) {v f flag e n : ℕ}
    (hv : Outside v) (he : e = createValidPageTableEntry (PhysicalFrame.getPpn f) ||| flag) (hlt : e < 2 ^ 64)
    (hn : e / 1024 % 2 ^ 52 = n) (hleaf : Ok (path v) e) (hfresh : L (path v) → Fresh S L s n)
    (hk : mapPage S.kallocFrame s v f flag = some s') : Tree S L Ok s' ∧ Maps S L s s' v n := by
  obtain ⟨s₁, s₂, s₃, T₁, T₂, T₃, e', h₁, h₂, h₃, rfl, hs⟩ := mapPage_cases hk
  rw [← he] at hs
  rw [h.root] at h₁
  have hd : ∀ p, p <+: path v → ¬ DirectMapped p := fun p hp hh => hv (hh.of_prefix hp)
  obtain ⟨u₁, rfl, hd₁⟩ := h.descends_nil.next (by decide) (hd _ ⟨_, rfl⟩) hok h₁
  obtain ⟨u₂, rfl, hd₂⟩ := hd₁.next (by simp) (hd _ ⟨_, rfl⟩) hok h₂
  obtain ⟨u₃, rfl, ⟨ht₃, hgrow, hw₃, ho₃, hl₃⟩⟩ := hd₂.next (by simp) (hd _ ⟨_, rfl⟩) hok h₃
  have hr₃ : s₃.satp = s.satp := hgrow.satp
  have hp : Node [getVpn3 v, getVpn2 v, getVpn1 v] := ⟨by simp, hd _ ⟨_, rfl⟩⟩
  have hw : walk (slot s₃.mem) s₃.satp [getVpn3 v, getVpn2 v, getVpn1 v] = some u₃ := by rw [hr₃]; exact hw₃
  have hodd : e % 2 = 1 := by
    rw [he, createValidPageTableEntry_eq, Nat.or_mod_two_eq_one]
    omega
  rw [setEntry_tableAddress (ht₃.lt_of_node hp hw)] at hs
  have hlink := linked hp hw (i := getVpn0 v) hlt hodd hn
  have hfresh₃ : Owned L (path v) → Fresh S L s₃ n := fun ho =>
    (hfresh (ho.2.resolve_left (by simp [path])).2).grows hgrow
  have htree := ht₃.setEntry hp hw hlt hodd hn hv hfresh₃ (by simp) hleaf hs
  rw [hr₃] at hlink
  have hinj : InjectiveOn (slot s₃.mem) s.satp Node := hr₃ ▸ ht₃.node_inj
  subst hs
  have hlast : ∀ q, Inside Node q → q ≠ path v →
      walk (slot (store s₃.mem 8 (4096 * u₃ + 8 * getVpn0 v) e)) s.satp q = walk (slot s₃.mem) s.satp q := by
    intro q hq hne
    refine hlink.walk_of_not_prefix hinj hq ?_
    rintro ⟨rest, rfl⟩
    cases rest with
    | nil => exact hne (List.append_nil _)
    | cons j rest =>
      have hh := (hq (path v) j ⟨rest, by simp [path]⟩).1
      simp [path] at hh
  have htables : ∀ q u, Node q → walk (slot s₃.mem) s.satp q = some u →
      walk (slot (store s₃.mem 8 (4096 * u₃ + 8 * getVpn0 v) e)) s.satp q = some u := by
    intro q u hq hu
    refine (hlast q hq.inside ?_).trans hu
    rintro rfl
    exact absurd hq.1 (by simp [path])
  obtain ⟨hfree, hmem, hleft⟩ := ht₃.setEntry_grows hp hw hgrow htables
  refine ⟨htree, hr₃, hgrow.freeList, hgrow.virtualAllocEnd, hgrow.bytes, hfree,
    fun q u hq hu => htables q u hq (hgrow.tables q u hq hu), ?_, hmem, hlink.walk_entry hinj hp.inside, ?_, ?_⟩
  · intro q u hq hu hne
    exact hgrow.owned q u hq ((hlast q hq.inside hne).symm.trans hu)
  · intro q hq hpre
    refine (hlast q hq ?_).trans (ho₃ q hq fun hh => hpre (hh.trans ⟨_, rfl⟩))
    rintro rfl
    exact hpre (List.prefix_refl _)
  · rw [hleft, hl₃, missingTables, Nat.zero_add]
    rfl

lemma mapPage_isSome (hok : ∀ q n, q.length < 4 → n < 2 ^ 20 → Ok q (n * 1024 + 1)) {v : ℕ} (hv : Outside v)
    (hl : missingTables s.mem s.satp v ≤ S.left s.mem s.frames) (f flag : ℕ) :
    ∃ s', Memory.mapPage S.kallocFrame s v f flag = some s' := by
  have hd : ∀ p, p <+: path v → ¬ DirectMapped p := fun p hp hh => hv (hh.of_prefix hp)
  simp only [missingTables] at hl
  obtain ⟨s₁, T₁, h₁⟩ := h.descends_nil.next_isSome (i := getVpn3 v) (by decide) (hd _ ⟨_, rfl⟩) (by
    simp only [List.nil_append]; omega)
  obtain ⟨u₁, rfl, hd₁⟩ := h.descends_nil.next (by decide) (hd _ ⟨_, rfl⟩) hok h₁
  obtain ⟨s₂, T₂, h₂⟩ := hd₁.next_isSome (i := getVpn2 v) (by simp) (hd _ ⟨_, rfl⟩) (by
    simp only [List.cons_append, List.nil_append]; omega)
  obtain ⟨u₂, rfl, hd₂⟩ := hd₁.next (by simp) (hd _ ⟨_, rfl⟩) hok h₂
  obtain ⟨s₃, T₃, h₃⟩ := hd₂.next_isSome (i := getVpn1 v) (by simp) (hd _ ⟨_, rfl⟩) (by
    simp only [List.cons_append, List.nil_append]; omega)
  rw [← h.root] at h₁
  exact ⟨_, by
    simp only [Memory.mapPage, h₁, h₂, h₃, Option.bind_eq_bind, Option.bind_some]
    rfl⟩

end Tree

end Steps

end TetraOS.Memory
