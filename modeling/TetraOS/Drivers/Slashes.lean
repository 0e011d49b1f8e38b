import TetraOS.Drivers.FileContent
import TetraOS.Drivers.Paths

/-! Paths with runs of slashes. The loop of `get_inode_from_dir` takes the character behind a slash for the start
of a name, whatever it is, so that such paths ask for empty names and for names that begin with a slash. -/

namespace TetraOS.Drivers.Ext2

variable {σ β : Type}

def collapse : List UInt8 → List UInt8
  | [] => []
  | [c] => [c]
  | c :: d :: rest => if c = 47 ∧ d = 47 then collapse (d :: rest) else c :: collapse (d :: rest)

def HasRun (path : List UInt8) : Prop := [47, 47] <:+: path

section Collapse

variable {c : UInt8} {name path rest : List UInt8}

lemma collapse_char (hc : c ≠ 47) : collapse (c :: rest) = c :: collapse rest := by
  cases rest with
  | nil => rfl
  | cons d rest => exact if_neg fun hh => hc hh.1

lemma collapse_slash (rest : List UInt8) : collapse (47 :: rest) = 47 :: collapse (rest.dropWhile (· = 47)) := by
  induction rest with
  | nil => rfl
  | cons c rest ih =>
    by_cases hc : c = 47
    · subst hc
      rw [collapse, if_pos ⟨rfl, rfl⟩, ih, List.dropWhile_cons_of_pos (by decide)]
    · rw [collapse, if_neg fun hh => hc hh.2, List.dropWhile_cons_of_neg (by simp [hc])]

lemma hasRun_cons : HasRun (c :: rest) ↔ (c = 47 ∧ rest.head? = some 47) ∨ HasRun rest := by
  rw [HasRun, List.infix_cons_iff, HasRun]
  refine or_congr_left ?_
  rw [List.cons_prefix_cons]
  refine and_congr eq_comm ?_
  cases rest with
  | nil => simp
  | cons d rest => simp [List.cons_prefix_cons, eq_comm]

lemma exists_last (hne : path ≠ []) (h : ¬ HasRun (path ++ [47])) : ∃ before c, path = before ++ [c] ∧ c ≠ 47 ∧
    ¬ HasRun before := by
  obtain ⟨before, c, rfl⟩ := (List.eq_nil_or_concat' path).resolve_left hne
  refine ⟨before, c, rfl, ?_, fun hh => h (hh.trans ⟨[], [c, 47], by simp⟩)⟩
  rintro rfl
  exact h ⟨before, [], by simp⟩

lemma collapse_name (hname : 47 ∉ name) : collapse (name ++ rest) = name ++ collapse rest := by
  induction name with
  | nil => rfl
  | cons c name ih =>
    rw [List.mem_cons, not_or] at hname
    rw [List.cons_append, collapse_char (Ne.symm hname.1), ih hname.2]
    rfl

lemma collapse_append (hpath : ¬ HasRun path) (hname : 47 ∉ name) (hne : name ≠ []) :
    collapse (path ++ name ++ rest) = path ++ name ++ collapse rest := by
  induction path with
  | nil => exact collapse_name hname
  | cons c path ih =>
    rw [hasRun_cons, not_or] at hpath
    obtain ⟨d, more, hmore⟩ : ∃ d more, path ++ name = d :: more := by
      refine List.exists_cons_of_ne_nil fun hh => hne ?_
      exact (List.append_eq_nil_iff.mp hh).2
    have hne : ¬ (c = 47 ∧ d = 47) := by
      rintro ⟨hc, rfl⟩
      cases path with
      | nil =>
        rw [List.nil_append] at hmore
        exact hname (by rw [hmore]; exact List.mem_cons_self)
      | cons e path =>
        obtain ⟨rfl, _⟩ := List.cons.inj hmore
        exact hpath.1 ⟨hc, rfl⟩
    have hrest := ih hpath.2
    rw [hmore] at hrest
    rw [List.cons_append, List.cons_append, hmore, List.cons_append, collapse, if_neg hne, ← List.cons_append, hrest]
    rfl

lemma collapse_takeWhile : (collapse path).takeWhile (· ≠ 47) = path.takeWhile (· ≠ 47) := by
  induction path with
  | nil => rfl
  | cons c path ih =>
    by_cases hc : c = 47
    · subst hc
      rw [collapse_slash, List.takeWhile_cons_of_neg (by decide), List.takeWhile_cons_of_neg (by decide)]
    · rw [collapse_char hc, List.takeWhile_cons_of_pos (by simp [hc]), List.takeWhile_cons_of_pos (by simp [hc]), ih]

lemma exists_first_run (h : HasRun path) : ∃ before rest, path = before ++ 47 :: 47 :: rest ∧
    ¬ HasRun (before ++ [47]) := by
  induction path with
  | nil => exact absurd h (by rw [HasRun]; simp)
  | cons c path ih =>
    by_cases hhere : c = 47 ∧ path.head? = some 47
    · obtain ⟨rfl, hhead⟩ := hhere
      obtain ⟨rest, rfl⟩ := List.head?_eq_some_iff.mp hhead
      exact ⟨[], rest, rfl, by rw [HasRun]; decide⟩
    · obtain ⟨before, rest, rfl, hno⟩ := ih ((hasRun_cons.mp h).resolve_left hhere)
      refine ⟨c :: before, rest, rfl, ?_⟩
      rw [List.cons_append, hasRun_cons, not_or]
      refine ⟨fun hh => hhere ⟨hh.1, ?_⟩, hno⟩
      cases before with
      | nil => rfl
      | cons d before => exact hh.2

end Collapse

section Names

variable {acc name path rest : List UInt8}

lemma namesFrom_head (acc rest : List UInt8) :
    ∃ more, namesFrom acc rest = (acc ++ rest.takeWhile (· ≠ 47)) :: more := by
  induction rest generalizing acc with
  | nil => exact ⟨[], by rw [namesFrom, List.takeWhile_nil, List.append_nil]⟩
  | cons c rest ih =>
    by_cases hc : c = 47
    · subst hc
      rw [List.takeWhile_cons_of_neg (by decide), List.append_nil]
      cases rest with
      | nil => exact ⟨[], rfl⟩
      | cons d rest => exact ⟨_, namesFrom_slash⟩
    · obtain ⟨more, hmore⟩ := ih (acc ++ [c])
      exact ⟨more, by rw [namesFrom_char hc, hmore, List.takeWhile_cons_of_pos (by simp [hc]), List.append_assoc]; rfl⟩

lemma namesFrom_length (acc rest : List UInt8) : ∃ name more, namesFrom acc rest = name :: more ∧
    acc.length ≤ name.length := by
  obtain ⟨more, hmore⟩ := namesFrom_head acc rest
  exact ⟨_, more, hmore, by rw [List.length_append]; omega⟩

lemma namesFrom_through (hname : 47 ∉ name) (hne : name ≠ []) (acc path : List UInt8) : ∃ before start, ∀ rest,
    namesFrom acc (path ++ name ++ rest) = before ++ namesFrom (start ++ name) rest := by
  match path with
  | [] => exact ⟨[], acc, fun rest => by rw [List.nil_append, List.nil_append, namesFrom_append hname]⟩
  | [c] =>
    by_cases hc : c = 47
    · subst hc
      refine ⟨[acc], [], fun rest => ?_⟩
      rw [List.append_assoc, List.singleton_append, namesFrom_slash_name hname hne, namesFrom_append hname]
      rfl
    · obtain ⟨before, start, h⟩ := namesFrom_through hname hne (acc ++ [c]) []
      exact ⟨before, start, fun rest => by
        rw [List.append_assoc, List.singleton_append, namesFrom_char hc]; exact h rest⟩
  | c :: d :: path =>
    by_cases hc : c = 47
    · subst hc
      obtain ⟨before, start, h⟩ := namesFrom_through hname hne [d] path
      exact ⟨acc :: before, start, fun rest => by
        rw [List.cons_append, List.cons_append, List.cons_append, List.cons_append, namesFrom_slash, h rest]; rfl⟩
    · obtain ⟨before, start, h⟩ := namesFrom_through hname hne (acc ++ [c]) (d :: path)
      exact ⟨before, start, fun rest => by
        rw [List.cons_append, List.cons_append, namesFrom_char hc]; exact h rest⟩

lemma lookups_through (hname : 47 ∉ name) (hne : name ≠ []) (path : List UInt8) : ∃ before start, ∀ rest,
    lookups (path ++ name ++ rest) = before ++ namesFrom (start ++ name) rest := by
  cases path with
  | nil =>
    refine ⟨[], [], fun rest => ?_⟩
    obtain ⟨c, name, rfl⟩ := List.exists_cons_of_ne_nil hne
    have hc : c ≠ 47 := fun hh => hname (hh ▸ List.mem_cons_self)
    rw [List.nil_append, List.cons_append, lookups, if_neg hc, ← List.cons_append, namesFrom_append hname]
    rfl
  | cons c path =>
    by_cases hc : c = 47
    · obtain ⟨before, start, h⟩ := namesFrom_through hname hne [] path
      exact ⟨before, start, fun rest => by rw [List.cons_append, List.cons_append, lookups, if_pos hc, h rest]⟩
    · obtain ⟨before, start, h⟩ := namesFrom_through hname hne [] (c :: path)
      exact ⟨before, start, fun rest => by
        rw [List.cons_append, List.cons_append, lookups, if_neg hc, ← List.cons_append, ← List.cons_append, h rest]⟩

lemma mem_namesFrom (hacc : 47 ∉ acc) (hrest : ¬ HasRun rest) (hname : name ∈ namesFrom acc rest) :
    47 ∉ name ∧ name <:+: acc ++ rest := by
  induction acc, rest using namesFrom.induct with
  | case1 acc =>
    obtain rfl := List.mem_singleton.mp hname
    exact ⟨hacc, by rw [List.append_nil]⟩
  | case2 acc =>
    obtain rfl := List.mem_singleton.mp hname
    exact ⟨hacc, (List.prefix_append _ _).isInfix⟩
  | case3 acc c hc =>
    rw [namesFrom, if_neg hc] at hname
    obtain rfl := List.mem_singleton.mp hname
    exact ⟨by simp [hacc, Ne.symm hc], List.infix_rfl⟩
  | case4 acc d rest ih =>
    rw [hasRun_cons, not_or] at hrest
    have hd : d ≠ 47 := fun hh => hrest.1 ⟨rfl, by rw [hh]; rfl⟩
    rw [namesFrom_slash] at hname
    rcases List.mem_cons.mp hname with rfl | hname
    · exact ⟨hacc, (List.prefix_append _ _).isInfix⟩
    · obtain ⟨hslash, hin⟩ := ih (by simp [Ne.symm hd]) (fun hh => hrest.2 (hasRun_cons.mpr (Or.inr hh))) hname
      exact ⟨hslash, hin.trans ⟨acc ++ [47], [], by simp⟩⟩
  | case5 acc c d rest hc ih =>
    rw [hasRun_cons, not_or] at hrest
    rw [namesFrom_char hc] at hname
    obtain ⟨hslash, hin⟩ := ih (by simp [hacc, Ne.symm hc]) hrest.2 hname
    rw [List.append_assoc] at hin
    exact ⟨hslash, hin⟩

lemma mem_lookups (hpath : ¬ HasRun path) (hname : name ∈ lookups path) : 47 ∉ name ∧ name <:+: path := by
  cases path with
  | nil =>
    obtain rfl := List.mem_singleton.mp hname
    exact ⟨List.not_mem_nil, List.infix_rfl⟩
  | cons c rest =>
    rw [lookups] at hname
    split at hname
    · obtain ⟨hslash, hin⟩ := mem_namesFrom List.not_mem_nil (fun hh => hpath (hasRun_cons.mpr (Or.inr hh))) hname
      exact ⟨hslash, hin.trans (List.suffix_cons c rest).isInfix⟩
    · exact mem_namesFrom List.not_mem_nil hpath hname

section Behind

variable (hne : path ≠ []) (hrun : ¬ HasRun (path ++ [47]))
include hne hrun

lemma lookups_behind (d : UInt8) (rest : List UInt8) :
    lookups (path ++ 47 :: d :: rest) = lookups path ++ namesFrom [d] rest := by
  obtain ⟨first, c, rfl, hc, _⟩ := exists_last hne hrun
  have hc' : (47 : UInt8) ∉ [c] := by simp [Ne.symm hc]
  obtain ⟨init, start, hthrough⟩ := lookups_through hc' (List.cons_ne_nil c []) first
  have hpath : lookups (first ++ [c]) = init ++ [start ++ [c]] := by
    have h := hthrough []
    rwa [List.append_nil] at h
  rw [hthrough, namesFrom_slash, hpath, List.append_assoc]
  rfl

lemma lookups_behind_nil : lookups (path ++ [47]) = lookups path := by
  obtain ⟨first, c, rfl, hc, _⟩ := exists_last hne hrun
  have hc' : (47 : UInt8) ∉ [c] := by simp [Ne.symm hc]
  obtain ⟨init, start, hthrough⟩ := lookups_through hc' (List.cons_ne_nil c []) first
  have h := hthrough []
  rw [List.append_nil] at h
  rw [hthrough, h]
  rfl

lemma collapse_behind (rest : List UInt8) :
    collapse (path ++ 47 :: rest) = path ++ 47 :: collapse (rest.dropWhile (· = 47)) := by
  obtain ⟨first, c, rfl, hc, hfirst⟩ := exists_last hne hrun
  have hc' : (47 : UInt8) ∉ [c] := by simp [Ne.symm hc]
  rw [collapse_append hfirst hc' (List.cons_ne_nil c []), collapse_slash]

end Behind

end Names

section Characters

variable {c : UInt8} {acc name path rest : List UInt8}

lemma mem_of_mem_namesFrom (hname : name ∈ namesFrom acc rest) (hc : c ∈ name) : c ∈ acc ++ rest := by
  induction acc, rest using namesFrom.induct with
  | case1 acc =>
    obtain rfl := List.mem_singleton.mp hname
    exact List.mem_append_left _ hc
  | case2 acc =>
    obtain rfl := List.mem_singleton.mp hname
    exact List.mem_append_left _ hc
  | case3 acc d hd =>
    rw [namesFrom, if_neg hd] at hname
    obtain rfl := List.mem_singleton.mp hname
    exact hc
  | case4 acc d rest ih =>
    rw [namesFrom_slash] at hname
    rcases List.mem_cons.mp hname with rfl | hname
    · exact List.mem_append_left _ hc
    · exact List.mem_append_right _ (List.mem_cons_of_mem _ (ih hname))
  | case5 acc d e rest hd ih =>
    rw [namesFrom_char hd] at hname
    have hin := ih hname
    rwa [List.append_assoc] at hin

lemma mem_of_mem_lookups (hname : name ∈ lookups path) (hc : c ∈ name) : c ∈ path := by
  cases path with
  | nil =>
    obtain rfl := List.mem_singleton.mp hname
    exact hc
  | cons d rest =>
    rw [lookups] at hname
    split at hname
    · exact List.mem_cons_of_mem _ (mem_of_mem_namesFrom hname hc)
    · exact mem_of_mem_namesFrom hname hc

lemma mem_of_mem_collapse (hc : c ∈ collapse path) : c ∈ path := by
  induction path using collapse.induct with
  | case1 => exact hc
  | case2 d => exact hc
  | case3 d e rest hslash ih =>
    rw [collapse, if_pos hslash] at hc
    exact List.mem_cons_of_mem _ (ih hc)
  | case4 d e rest hslash ih =>
    rw [collapse, if_neg hslash] at hc
    rcases List.mem_cons.mp hc with rfl | hc
    · exact List.mem_cons_self
    · exact List.mem_cons_of_mem _ (ih hc)

end Characters

def outcome (D : BlockDevice σ β) (fs : EXT2 β) (s : σ) (dir : Buffer β) (path : List UInt8) : Option (ℤ × Buffer β) :=
  (getInodeFromDir D fs s dir path).map fun r => (r.1, r.2.1)

/-- On every file system, the path is as good as the one without empty names, and `/` stays where it is. -/
def IgnoresEmptyNames (path : List UInt8) : Prop :=
  ∀ (σ β : Type) (D : BlockDevice σ β) (fs : EXT2 β) (s : σ) (dir : Buffer β),
    outcome D fs s dir path = outcome D fs s dir (collapse path) ∧
    (path = [47] → outcome D fs s dir path = some (0, dir))

/-- No later than right behind the first run of slashes, which has two of them and does not start the path, there is
a name that is too long for a directory. -/
def TooLong (path : List UInt8) : Prop :=
  ∃ before name after, path = before ++ name ++ after ∧ 255 < name.length ∧ 47 ∉ name ∧
    (¬ HasRun before ∨ ∃ first, first ≠ [] ∧ ¬ HasRun (first ++ [47]) ∧ before = first ++ [47, 47])

lemma outcome_eq {D : BlockDevice σ β} {fs : EXT2 β} {s : σ} {dir : Buffer β} {path : List UInt8} (hzero : 0 ∉ path) :
    outcome D fs s dir path = (lookUpAll (findInDir D fs) (lookups path) (dir, s)).map fun r => (r.1, r.2.1) := by
  rw [outcome, getInodeFromDir_eq_lookUpAll hzero]

section Long

variable {D : BlockDevice σ β} {fs : EXT2 β} {s : σ} {dir : Buffer β} {name name' : List UInt8}

lemma entryMatches_long (h : 255 < name.length) (data : Buffer β) (offset : ℕ) :
    entryMatches D data offset name = false := by
  have hlen : nameLen D data offset < 256 := uint_lt 1 data _
  have hne : (name.length == nameLen D data offset) = false := beq_eq_false_iff_ne.mpr (by omega)
  rw [entryMatches, hne, Bool.false_and]

lemma scan_long (h : 255 < name.length) (data : Buffer β) (left offset : ℕ) :
    (scan D data name left offset).1 = 0 := by
  induction left generalizing offset with
  | zero => rfl
  | succ left ih => rw [scan, entryMatches_long h, if_neg Bool.false_ne_true, ih]

lemma getInodeInDir_long (h : 255 < name.length) : getInodeInDir D fs s dir name =
    some (-1, dir, if iMode D dir &&& 0x4000 = 0 then s else
      (D.read s (fs.blockOffset (iBlock D dir 0)) fs.blockSize (D.heap s)).2.2) := by
  rw [getInodeInDir]
  split
  · rfl
  · dsimp only
    rw [if_pos (scan_long h _ 10 0)]

lemma lookUpAll_long (h : 255 < name.length) (h' : 255 < name'.length) (before more more' : List (List UInt8))
    (t : Buffer β × σ) : lookUpAll (findInDir D fs) (before ++ name :: more) t =
      lookUpAll (findInDir D fs) (before ++ name' :: more') t := by
  induction before generalizing t with
  | nil =>
    rw [List.nil_append, List.nil_append, lookUpAll, lookUpAll, findInDir, findInDir, getInodeInDir_long h,
      getInodeInDir_long h']
    rfl
  | cons n before ih =>
    simp only [List.cons_append, lookUpAll, ih]

end Long

lemma TooLong.lookups {path : List UInt8} (h : TooLong path) : ∃ before name name' more more',
    lookups path = before ++ name :: more ∧ lookups (collapse path) = before ++ name' :: more' ∧
    255 < name.length ∧ 255 < name'.length := by
  obtain ⟨before, name, after, rfl, hlong, hslash, hcase⟩ := h
  have hne : name ≠ [] := by
    rintro rfl
    exact absurd hlong (by decide)
  rcases hcase with hrun | ⟨first, hfirst, hrun, rfl⟩
  · obtain ⟨init, start, hthrough⟩ := lookups_through hslash hne before
    obtain ⟨long, more, hmore, hlen⟩ := namesFrom_length (start ++ name) after
    obtain ⟨long', more', hmore', hlen'⟩ := namesFrom_length (start ++ name) (collapse after)
    rw [List.length_append] at hlen hlen'
    refine ⟨init, long, long', more, more', by rw [hthrough, hmore], ?_, by omega, by omega⟩
    rw [collapse_append hrun hslash hne, hthrough, hmore']
  · obtain ⟨d, name, rfl⟩ := List.exists_cons_of_ne_nil hne
    rw [List.mem_cons, not_or] at hslash
    obtain ⟨long, more, hmore, hlen⟩ := namesFrom_length ([47] ++ d :: name) after
    obtain ⟨long', more', hmore', hlen'⟩ := namesFrom_length ([d] ++ name) (collapse after)
    rw [List.length_append] at hlen
    have hdrop : (47 :: d :: (name ++ after)).dropWhile (· = 47) = d :: (name ++ after) := by
      rw [List.dropWhile_cons_of_pos (by decide), List.dropWhile_cons_of_neg (by simp [Ne.symm hslash.1])]
    have hpath : first ++ [47, 47] ++ d :: name ++ after = first ++ 47 :: 47 :: d :: (name ++ after) := by simp
    refine ⟨Ext2.lookups first, long, long', more, more', ?_, ?_, by omega, hlong.trans_le hlen'⟩
    · rw [hpath, lookups_behind hfirst hrun, ← hmore, ← namesFrom_append (by simpa using hslash)]
      rfl
    · rw [hpath, collapse_behind hfirst hrun, hdrop, collapse_char (Ne.symm hslash.1), collapse_name hslash.2,
        lookups_behind hfirst hrun, namesFrom_append hslash.2, hmore']

section Scripted

def entryBlock (name : List UInt8) : Buffer UInt8 := fun i =>
  if i = 0 then 1 else if i = 6 then UInt8.ofNat name.length else if 8 ≤ i then name.getD (i - 8) 0 else 0

def directory (k : ℕ) : Buffer UInt8 := fun i => if i = 1 then 0x40 else if i = 4 then UInt8.ofNat k else 0

/-- A device for paths that ask for the given names one after another: each directory has the next of them as its
only entry. -/
def scripted : BlockDevice (List (List UInt8)) UInt8 where
  val := id
  zero := 0
  heap := fun _ _ => 0
  read := fun names _ length _ =>
    if length = inodeSize then (0, directory names.length, names) else (0, entryBlock (names.headD [0]), names.tail)

def scriptedSystem : EXT2 UInt8 := ⟨fun _ => 1, 1024, [fun _ => 0]⟩

variable {name name' : List UInt8} {names more more' : List (List UInt8)} {k : ℕ}

lemma entryMatches_entryBlock (h : name.length ≤ 255) :
    entryMatches scripted (entryBlock name) 0 name' = true ↔ name' = name := by
  have hlen : nameLen scripted (entryBlock name) 0 = name.length := by
    change (UInt8.ofNat name.length).toNat + 256 * 0 = _
    rw [UInt8.toNat_ofNat']
    omega
  have hname : ∀ i, entryName scripted (entryBlock name) 0 i = name.getD i 0 := by
    intro i
    change entryBlock name (0 + 8 + i) = _
    rw [entryBlock, if_neg (by omega), if_neg (by omega), if_pos (by omega), Nat.zero_add, Nat.add_sub_cancel_left]
  rw [entryMatches, hlen, Bool.and_eq_true, beq_iff_eq, List.all_eq_true]
  constructor
  · rintro ⟨hl, hall⟩
    refine List.ext_getElem hl fun i hi hi' => ?_
    have hchar := hall i (List.mem_range.mpr hi)
    rwa [beq_iff_eq, hname, List.getD_eq_getElem _ _ hi, List.getD_eq_getElem _ _ hi'] at hchar
  · rintro rfl
    exact ⟨rfl, fun i _ => by rw [beq_iff_eq, hname]⟩

lemma scan_entryBlock (h : name.length ≤ 255) (left : ℕ) :
    scan scripted (entryBlock name) name' left 0 = if name' = name then (left, 0) else (0, 0) := by
  have hrec : recLen scripted (entryBlock name) 0 = 0 := rfl
  induction left with
  | zero => rw [scan, ite_self]
  | succ left ih =>
    rw [scan, hrec, ih]
    by_cases heq : name' = name
    · rw [if_pos ((entryMatches_entryBlock h).mpr heq), if_pos heq]
    · rw [if_neg fun hh => heq ((entryMatches_entryBlock h).mp hh), if_neg heq, if_neg heq]

lemma getInodeInDir_scripted (h : (names.headD [0]).length ≤ 255) :
    getInodeInDir scripted scriptedSystem names (directory k) name =
      if name = names.headD [0] then some (0, directory names.tail.length, names.tail)
      else some (-1, directory k, names.tail) := by
  have hmode : ¬ iMode scripted (directory k) &&& 0x4000 = 0 := by
    change ¬ ((0 : UInt8).toNat + 256 * ((0x40 : UInt8).toNat + 256 * 0)) &&& 0x4000 = 0
    decide
  have hread : scripted.read names (scriptedSystem.blockOffset (iBlock scripted (directory k) 0))
      scriptedSystem.blockSize (scripted.heap names) = (0, entryBlock (names.headD [0]), names.tail) := rfl
  rw [getInodeInDir, if_neg hmode, hread]
  dsimp only
  rw [scan_entryBlock h]
  by_cases heq : name = names.headD [0]
  · have hinode : entryInode scripted (entryBlock (names.headD [0])) 0 = 1 := rfl
    have hgroup : sInodesPerGroup scripted scriptedSystem.superBlock = 0x01010101 := rfl
    rw [if_pos heq, if_pos heq]
    dsimp only
    rw [hinode, hgroup, if_neg (by decide), if_neg (by decide)]
    rfl
  · rw [if_neg heq, if_neg heq]
    rfl

lemma lookUpAll_missed (h : (names.headD [0]).length ≤ 255) (hne : name ≠ names.headD [0]) :
    lookUpAll (findInDir scripted scriptedSystem) (name :: more) (directory k, names) =
      some (-1, directory k, names.tail) := by
  rw [lookUpAll, findInDir, getInodeInDir_scripted h, if_neg hne]
  rfl

lemma lookUpAll_found (h : name.length ≤ 255) : lookUpAll (findInDir scripted scriptedSystem) (name :: more)
    (directory k, name :: names) =
      lookUpAll (findInDir scripted scriptedSystem) more (directory names.length, names) := by
  rw [lookUpAll, findInDir, getInodeInDir_scripted (by exact h), List.headD_cons, if_pos rfl]
  rfl

lemma lookUpAll_scripted (before : List (List UInt8)) (h : ∀ n ∈ before, n.length ≤ 255) :
    lookUpAll (findInDir scripted scriptedSystem) (before ++ more)
        (directory (before ++ names).length, before ++ names) =
      lookUpAll (findInDir scripted scriptedSystem) more (directory names.length, names) := by
  induction before with
  | nil => rfl
  | cons n before ih =>
    rw [List.cons_append, List.cons_append, lookUpAll_found (h n List.mem_cons_self),
      ih fun n' hn' => h n' (List.mem_cons_of_mem _ hn')]

lemma directory_ne : directory 0 ≠ directory 1 := by
  intro h
  exact absurd (congrFun h 4) (by decide)

lemma lookUpAll_end (h : ∀ n ∈ more, 0 ∉ n) : ∃ res,
    lookUpAll (findInDir scripted scriptedSystem) more (directory 0, []) = some (res, directory 0, []) := by
  cases more with
  | nil => exact ⟨0, rfl⟩
  | cons n more =>
    refine ⟨-1, lookUpAll_missed (by decide) ?_⟩
    rintro rfl
    exact h [0] List.mem_cons_self List.mem_cons_self

lemma scripted_apart (hne : name ≠ name') (hshort : name'.length ≤ 255) (hzero : ∀ n ∈ more', 0 ∉ n) :
    (lookUpAll (findInDir scripted scriptedSystem) (name :: more) (directory 1, [name'])).map (fun r => (r.1, r.2.1)) ≠
      (lookUpAll (findInDir scripted scriptedSystem) (name' :: more') (directory 1, [name'])).map
        fun r => (r.1, r.2.1) := by
  obtain ⟨res, hres⟩ := lookUpAll_end hzero
  rw [lookUpAll_missed (by exact hshort) (by exact hne), lookUpAll_found hshort, List.length_nil, hres]
  intro h
  exact directory_ne (Prod.mk.inj (Option.some.inj h)).2.symm

/-- A device that goes along with the names both paths ask for, and then tells them apart. -/
lemma not_ignores {path : List UInt8} (before names : List (List UInt8)) (hzero : 0 ∉ path)
    (hlookups : lookups path = before ++ more) (hlookups' : lookups (collapse path) = before ++ more')
    (hshort : ∀ n ∈ before, n.length ≤ 255)
    (hapart : (lookUpAll (findInDir scripted scriptedSystem) more (directory names.length, names)).map
        (fun r => (r.1, r.2.1)) ≠
      (lookUpAll (findInDir scripted scriptedSystem) more' (directory names.length, names)).map
        fun r => (r.1, r.2.1)) : ¬ IgnoresEmptyNames path := by
  intro h
  have hsame := (h _ _ scripted scriptedSystem (before ++ names) (directory (before ++ names).length)).1
  have hzero' : 0 ∉ collapse path := fun hh => hzero (mem_of_mem_collapse hh)
  rw [outcome_eq hzero, outcome_eq hzero', hlookups, hlookups', lookUpAll_scripted before hshort,
    lookUpAll_scripted before hshort] at hsame
  exact hapart hsame

end Scripted

section Runs

variable {before path rest : List UInt8}

lemma head_dropWhile (path : List UInt8) : path.dropWhile (· = 47) = [] ∨
    ∃ c more, path.dropWhile (· = 47) = c :: more ∧ c ≠ 47 := by
  cases hdrop : path.dropWhile (· = 47) with
  | nil => exact Or.inl rfl
  | cons c more =>
    refine Or.inr ⟨c, more, rfl, fun hc => ?_⟩
    have hhead := List.head_dropWhile_not (l := path) (· = 47) (by rw [hdrop]; exact List.cons_ne_nil c more)
    simp [hdrop, hc] at hhead

lemma not_ignores_start (hzero : 0 ∉ 47 :: 47 :: rest) (hne : rest ≠ []) : ¬ IgnoresEmptyNames (47 :: 47 :: rest) := by
  obtain ⟨d, tail, rfl⟩ := List.exists_cons_of_ne_nil hne
  have hlookups : lookups (47 :: 47 :: d :: tail) = [] :: namesFrom [d] tail := rfl
  have hzero' : ∀ n ∈ namesFrom [d] tail, 0 ∉ n := fun n hn hh => by
    have hin := mem_of_mem_namesFrom hn hh
    exact hzero (by simp at hin ⊢; exact hin)
  obtain ⟨name, more, hmore, _⟩ := namesFrom_length [d] tail
  rcases head_dropWhile (47 :: d :: tail) with hdrop | ⟨c, rest, hdrop, hc⟩
  · have hlookups' : lookups (collapse (47 :: 47 :: d :: tail)) = [[]] := by rw [collapse_slash, hdrop]; rfl
    refine not_ignores [] [[]] hzero hlookups hlookups' (fun n hn => absurd hn List.not_mem_nil) ?_
    rw [List.length_singleton, lookUpAll_found (Nat.zero_le _), lookUpAll_found (Nat.zero_le _), hmore,
      List.length_nil, lookUpAll_missed (by decide) fun hh => hzero' name (by rw [hmore]; exact List.mem_cons_self)
        (by rw [hh]; exact List.mem_cons_self)]
    intro h
    exact absurd (Prod.mk.inj (Option.some.inj h)).1 (by decide)
  · obtain ⟨more', hmore'⟩ := namesFrom_head [] (collapse (c :: rest))
    have hlookups' : lookups (collapse (47 :: 47 :: d :: tail)) =
        ([] ++ (collapse (c :: rest)).takeWhile (· ≠ 47)) :: more' := by
      rw [collapse_slash, hdrop, lookups, if_pos rfl, hmore']
    refine not_ignores [] [[]] hzero hlookups hlookups' (fun n hn => absurd hn List.not_mem_nil)
      (scripted_apart ?_ (Nat.zero_le _) hzero').symm
    rw [collapse_takeWhile, List.takeWhile_cons_of_pos (by simp [hc])]
    exact List.cons_ne_nil _ _

section Behind

variable (hzero : 0 ∉ before ++ 47 :: 47 :: rest) (hne : before ≠ []) (hrun : ¬ HasRun (before ++ [47]))
    (hshort : ¬ TooLong (before ++ 47 :: 47 :: rest))
include hrun hshort

lemma length_le_of_mem_lookups {name : List UInt8} (hname : name ∈ lookups before) : name.length ≤ 255 := by
  by_contra hlong
  obtain ⟨hslash, pre, post, hin⟩ := mem_lookups (fun hh => hrun (hh.trans (List.prefix_append _ _).isInfix)) hname
  refine hshort ⟨pre, name, post ++ 47 :: 47 :: rest, by rw [← hin]; simp, by omega, hslash, Or.inl fun hh => hrun ?_⟩
  exact hh.trans ⟨[], name ++ post ++ [47], by rw [← hin]; simp⟩

include hne

lemma length_le_of_append {name after : List UInt8} (hrest : rest = name ++ after)
    (hslash : 47 ∉ name) : name.length ≤ 255 := by
  by_contra hlong
  have hpath : before ++ 47 :: 47 :: rest = (before ++ [47, 47]) ++ name ++ after := by
    rw [hrest]
    simp
  exact hshort ⟨before ++ [47, 47], name, after, hpath, by omega, hslash, Or.inr ⟨before, hne, hrun, rfl⟩⟩

include hzero

/-- Only slashes follow: the name `/` is asked for besides. -/
lemma not_ignores_slashes (hdrop : rest.dropWhile (· = 47) = []) :
    ¬ IgnoresEmptyNames (before ++ 47 :: 47 :: rest) := by
  obtain ⟨more, hmore⟩ := namesFrom_head [47] rest
  rw [List.singleton_append] at hmore
  have hslash : 0 ∉ (47 :: rest.takeWhile (· ≠ 47)) := fun hh => hzero (mem_of_mem_lookups (by
    rw [lookups_behind hne hrun, hmore]
    exact List.mem_append_right _ List.mem_cons_self) hh)
  have hlookups' : lookups (collapse (before ++ 47 :: 47 :: rest)) = lookups before ++ [] := by
    rw [collapse_behind hne hrun, List.dropWhile_cons_of_pos (by decide), hdrop, collapse, List.append_nil,
      lookups_behind_nil hne hrun]
  refine not_ignores _ [] hzero (lookups_behind hne hrun 47 rest) hlookups'
    (fun n hn => length_le_of_mem_lookups hrun hshort hn) ?_
  rw [hmore, lookUpAll_missed (by decide) fun hh => hslash (by rw [hh]; exact List.mem_cons_self)]
  intro h
  exact absurd (Prod.mk.inj (Option.some.inj h)).1 (by decide)

/-- Another name follows: it is asked for with a slash before it. -/
lemma not_ignores_name {d : UInt8} {tail : List UInt8} (hdrop : rest.dropWhile (· = 47) = d :: tail) (hd : d ≠ 47) :
    ¬ IgnoresEmptyNames (before ++ 47 :: 47 :: rest) := by
  obtain ⟨more, hmore⟩ := namesFrom_head [47] rest
  obtain ⟨more', hmore'⟩ := namesFrom_head [] (collapse (d :: tail))
  rw [collapse_takeWhile, List.nil_append, collapse_char hd, namesFrom_char hd, List.nil_append] at hmore'
  rw [List.singleton_append] at hmore
  have hname : 47 ∉ (d :: tail).takeWhile (· ≠ 47) := fun hh => by
    simpa using List.all_eq_true.mp List.all_takeWhile _ hh
  have hlookups := lookups_behind hne hrun 47 rest
  have hlookups' : lookups (collapse (before ++ 47 :: 47 :: rest)) = lookups before ++
      (d :: tail).takeWhile (· ≠ 47) :: more' := by
    rw [collapse_behind hne hrun, List.dropWhile_cons_of_pos (by decide), hdrop, collapse_char hd,
      lookups_behind hne hrun, hmore']
  rw [hmore] at hlookups
  have hzeros : ∀ n ∈ more, 0 ∉ n := fun n hn hh => hzero (mem_of_mem_lookups (by
    rw [hlookups]
    exact List.mem_append_right _ (List.mem_cons_of_mem _ hn)) hh)
  have hzeros' : ∀ n ∈ more', 0 ∉ n := fun n hn hh => hzero (mem_of_mem_collapse (mem_of_mem_lookups (by
    rw [hlookups']
    exact List.mem_append_right _ (List.mem_cons_of_mem _ hn)) hh))
  have hshort' : ∀ n ∈ lookups before, n.length ≤ 255 := fun _ => length_le_of_mem_lookups hrun hshort
  have hapart : (47 : UInt8) :: rest.takeWhile (· ≠ 47) ≠ (d :: tail).takeWhile (· ≠ 47) := fun hh =>
    hname (by rw [← hh]; exact List.mem_cons_self)
  by_cases hlong : ((d :: tail).takeWhile (· ≠ 47)).length ≤ 255
  · exact not_ignores _ [_] hzero hlookups hlookups' hshort' (scripted_apart hapart hlong hzeros')
  · refine not_ignores _ [_] hzero hlookups hlookups' hshort' (scripted_apart hapart.symm ?_ hzeros).symm
    cases rest with
    | nil => simp
    | cons e rest =>
      by_cases he : e = 47
      · simp [he]
      · rw [List.dropWhile_cons_of_neg (by simp [he])] at hdrop
        rw [← hdrop] at hlong hname
        exact absurd (length_le_of_append hne hrun hshort (List.takeWhile_append_dropWhile).symm hname) hlong

lemma not_ignores_behind : ¬ IgnoresEmptyNames (before ++ 47 :: 47 :: rest) := by
  rcases head_dropWhile rest with hdrop | ⟨d, tail, hdrop, hd⟩
  · exact not_ignores_slashes hzero hne hrun hshort hdrop
  · exact not_ignores_name hzero hne hrun hshort hdrop hd

end Behind

end Runs

lemma not_tooLong_slashes {path : List UInt8} (h : ∀ c ∈ path, c = 47) : ¬ TooLong path := by
  rintro ⟨before, name, after, rfl, hlong, hslash, _⟩
  obtain ⟨c, name, rfl⟩ := List.exists_cons_of_length_pos (by omega : 0 < name.length)
  exact hslash (h c (by simp) ▸ List.mem_cons_self)

lemma ignores_of_tooLong {path : List UInt8} (hzero : 0 ∉ path) (h : TooLong path) : IgnoresEmptyNames path := by
  intro σ β D fs s dir
  have hzero' : 0 ∉ collapse path := fun hh => hzero (mem_of_mem_collapse hh)
  obtain ⟨before, name, name', more, more', hlookups, hlookups', hlong, hlong'⟩ := h.lookups
  refine ⟨?_, fun hpath => absurd h (not_tooLong_slashes (by simp [hpath]))⟩
  rw [outcome_eq hzero, outcome_eq hzero', hlookups, hlookups', lookUpAll_long hlong hlong' before more more']

/-- Empty names in a path are ignored on every file system exactly for `//`, and where a name that no directory
can hold comes before the outcome can differ. -/
theorem ignoresEmptyNames_iff (path : List UInt8) (hzero : 0 ∉ path)
    (hslashes : HasRun path ∨ path ≠ [] ∧ ∀ c ∈ path, c = 47) :
    IgnoresEmptyNames path ↔ path = [47, 47] ∨ TooLong path := by
  constructor
  · intro hignores
    by_cases hrun : HasRun path
    · obtain ⟨before, rest, rfl, hfirst⟩ := exists_first_run hrun
      by_contra hcase
      rw [not_or] at hcase
      by_cases hstart : before = []
      · subst hstart
        refine not_ignores_start hzero ?_ hignores
        rintro rfl
        exact hcase.1 rfl
      · exact not_ignores_behind hzero hstart hfirst hcase.2 hignores
    · obtain ⟨hne, hall⟩ := hslashes.resolve_left hrun
      have hpath : path = [47] := by
        obtain ⟨c, rest, rfl⟩ := List.exists_cons_of_ne_nil hne
        have hc := hall c List.mem_cons_self
        subst hc
        cases rest with
        | nil => rfl
        | cons d rest => exact absurd (hasRun_cons.mpr (Or.inl ⟨rfl, by simp [hall d]⟩)) hrun
      subst hpath
      have hroot := (hignores _ _ scripted scriptedSystem [] (directory 0)).2 rfl
      rw [outcome_eq hzero, show lookups [47] = [[]] from rfl, lookUpAll_missed (by decide) (by decide)] at hroot
      exact absurd (Prod.mk.inj (Option.some.inj hroot)).1 (by decide)
  · rintro (rfl | hlong)
    · intro σ β D fs s dir
      rw [outcome_eq hzero, outcome_eq (by decide)]
      exact ⟨rfl, fun hpath => absurd hpath (by decide)⟩
    · exact ignores_of_tooLong hzero hlong

theorem ignoresEmptyNames_two_slashes : IgnoresEmptyNames [47, 47] :=
  (ignoresEmptyNames_iff [47, 47] (by decide) (Or.inr (by simp))).mpr (Or.inl rfl)

/-- The image with the file `f`, where the heap holds bytes that no entry matches. -/
def filledDevice : BlockDevice Unit Located := { twoBlockDevice 6 with heap := fun _ _ => (0xFF, 0) }

/-- `/f` is there, but `//f` does not find it, and `/` is not the root directory. -/
theorem slashes_before_file : mount filledDevice () = some (twoBlockSystem 6, ()) ∧
    getRootInode filledDevice (twoBlockSystem 6) () filledDevice.new = some (twoBlockRoot, ()) ∧
    (outcome filledDevice (twoBlockSystem 6) () twoBlockRoot [47, 102]).map Prod.fst = some 0 ∧
    (outcome filledDevice (twoBlockSystem 6) () twoBlockRoot [47, 47, 102]).map Prod.fst = some (-1) ∧
    (outcome filledDevice (twoBlockSystem 6) () twoBlockRoot [47]).map Prod.fst = some (-1) ∧
    ¬ IgnoresEmptyNames [47, 47, 102] ∧ ¬ IgnoresEmptyNames [47] := by
  have hfile : (outcome filledDevice (twoBlockSystem 6) () twoBlockRoot [47, 102]).map Prod.fst = some 0 := by decide
  have hslashes : (outcome filledDevice (twoBlockSystem 6) () twoBlockRoot [47, 47, 102]).map Prod.fst =
      some (-1) := by decide
  have hroot : (outcome filledDevice (twoBlockSystem 6) () twoBlockRoot [47]).map Prod.fst = some (-1) := by decide
  refine ⟨by rfl, by rfl, hfile, hslashes, hroot, fun h => ?_, fun h => ?_⟩
  · rw [(h _ _ _ _ () twoBlockRoot).1] at hslashes
    exact absurd (hslashes.symm.trans hfile) (by decide)
  · rw [(h _ _ _ _ () twoBlockRoot).2 rfl] at hroot
    exact absurd hroot (by decide)

end TetraOS.Drivers.Ext2
