import Mathlib.Data.List.GetD
import TetraOS.Drivers.Ext2

/-! How `get_inode_from_dir` takes a path apart. The lookup in a directory is a parameter here, and the indices
into the path and into the buffers for names are checked. -/

namespace TetraOS.Drivers.Ext2

variable {σ β τ : Type}

def finish (D : BlockDevice σ β) (fs : EXT2 β) (path : List UInt8) : PathEnd σ β → Option (ℤ × Buffer β × σ)
  | .folder res dir s => some (res, dir, s)
  | .file current size dir s => getInodeInDir D fs s dir (slice path (current - size) size)

lemma getInodeFromDir_eq {D : BlockDevice σ β} {fs : EXT2 β} {s : σ} {dir : Buffer β} {path : List UInt8} :
    getInodeFromDir D fs s dir path = (pathLoop D fs path (path.length + 1) 0 0 dir s).bind (finish D fs path) := by
  rw [getInodeFromDir]
  congr 1

section Loop

abbrev Find (τ : Type) := τ → List UInt8 → Option (ℤ × τ)

def charAt (path : List UInt8) (i : ℤ) : Option UInt8 := if i < 0 then none else (path ++ [0])[i.toNat]?

def put (buffer : List UInt8) (i : ℕ) (c : UInt8) : Option (List UInt8) :=
  if i < buffer.length then some (buffer.set i c) else none

/-- The loop that copies a name into its block of `size + 1` bytes, which holds `junk` before. -/
def copyName (path : List UInt8) (junk : ℕ → UInt8) (start : ℤ) (size : ℕ) : Option (List UInt8) := do
  let block := (List.range (size + 1)).map junk
  let copied ← (List.range size).foldlM (fun buffer (i : ℕ) => (charAt path (start + i)).bind (put buffer i)) block
  let name ← put copied size 0
  some (name.takeWhile (· ≠ 0))

inductive Ended (τ : Type) where
  | folder (res : ℤ) (t : τ)
  | file (current size : ℕ) (t : τ)

variable (find : Find τ) (path : List UInt8) (junk : ℕ → UInt8)

def walkLoop : ℕ → (current size : ℕ) → τ → Option (Ended τ)
  | 0, _, _, _ => none
  | fuel + 1, current, size, t => do
    let c ← charAt path current
    if c = 0 then some (.file current size t)
    else if c = 47 then
      if current = 0 then walkLoop fuel (current + 1) size t
      else do
        let current := current + 1
        let name ← copyName path junk (current - size - 1) size
        let (res, t) ← find t name
        if res < 0 then some (.folder res t)
        else if path.length = current then some (.folder 0 t)
        else walkLoop fuel (current + 1) 1 t
    else walkLoop fuel (current + 1) (size + 1) t

def lastName : Ended τ → Option (ℤ × τ)
  | .folder res t => some (res, t)
  | .file current size t => do
    let name ← copyName path junk (current - size) size
    let (res, t) ← find t name
    if res < 0 then some (res, t) else some (0, t)

def walkPath (t : τ) : Option (ℤ × τ) :=
  (walkLoop find path junk (path.length + 1) 0 0 t).bind (lastName find path junk)

def lookUpAll : List (List UInt8) → τ → Option (ℤ × τ)
  | [], t => some (0, t)
  | name :: names, t => do
    let (res, t) ← find t name
    if res < 0 then some (res, t) else lookUpAll names t

end Loop

/-- The names that the loop cuts out behind what is read of the first. The character after a slash is taken
as it is. -/
def namesFrom (acc : List UInt8) : List UInt8 → List (List UInt8)
  | [] => [acc]
  | [c] => if c = 47 then [acc] else [acc ++ [c]]
  | c :: d :: rest => if c = 47 then acc :: namesFrom [d] rest else namesFrom (acc ++ [c]) (d :: rest)

def lookups : List UInt8 → List (List UInt8)
  | [] => [[]]
  | c :: rest => if c = 47 then namesFrom [] rest else namesFrom [] (c :: rest)

def findInDir (D : BlockDevice σ β) (fs : EXT2 β) : Find (Buffer β × σ) := fun t name => getInodeInDir D fs t.2 t.1 name

section Names

variable {acc rest : List UInt8} {c d : UInt8}

lemma namesFrom_slash : namesFrom acc (47 :: d :: rest) = acc :: namesFrom [d] rest := if_pos rfl

lemma namesFrom_char (hc : c ≠ 47) : namesFrom acc (c :: rest) = namesFrom (acc ++ [c]) rest := by
  cases rest with
  | nil => exact if_neg hc
  | cons d rest => exact if_neg hc

end Names

section Copying

variable {pre acc rest : List UInt8} {junk : ℕ → UInt8}

lemma slice_eq (pre acc rest : List UInt8) : slice (pre ++ acc ++ rest) pre.length acc.length = acc := by
  apply List.ext_getElem
  · simp [slice]
  · intro i hi hi'
    simp only [slice, List.getElem_map, List.getElem_range]
    rw [List.append_assoc, List.getD_append_right _ _ _ _ (by omega), List.getD_append _ _ _ _ (by omega),
      Nat.add_sub_cancel_left, List.getD_eq_getElem _ _ hi']

lemma getD_append_cons (pre acc rest : List UInt8) (c : UInt8) :
    (pre ++ acc ++ c :: rest).getD (pre.length + acc.length) 0 = c := by
  rw [List.getD_append_right _ _ _ _ (by simp), List.length_append, Nat.sub_self]
  rfl

lemma charAt_eq {path : List UInt8} {i : ℕ} (hi : i ≤ path.length) : charAt path i = some (path.getD i 0) := by
  rw [charAt, if_neg (by omega), Int.toNat_natCast]
  rcases hi.lt_or_eq with hlt | rfl
  · rw [List.getElem?_append_left hlt, List.getD_eq_getElem _ _ hlt, List.getElem?_eq_getElem hlt]
  · rw [List.getElem?_append_right le_rfl, Nat.sub_self, List.getD_eq_default _ _ le_rfl]
    rfl

lemma put_eq (before after : List UInt8) (b c : UInt8) :
    put (before ++ b :: after) before.length c = some (before ++ c :: after) := by
  rw [put, if_pos (by simp), List.set_append_right _ _ le_rfl, Nat.sub_self, List.set_cons_zero]

lemma copy_prefix (pre acc rest : List UInt8) {block : List UInt8} (hblock : block.length = acc.length + 1) {k : ℕ}
    (hk : k ≤ acc.length) :
    (List.range k).foldlM (fun buffer (i : ℕ) =>
      (charAt (pre ++ acc ++ rest) (pre.length + i)).bind (put buffer i)) block =
        some (acc.take k ++ block.drop k) := by
  induction k with
  | zero => rfl
  | succ k ih =>
    have hchar : charAt (pre ++ acc ++ rest) (pre.length + k) = some acc[k] := by
      rw [← Nat.cast_add, charAt_eq (by simp; omega), List.append_assoc, List.getD_append_right _ _ _ _ (by omega),
        Nat.add_sub_cancel_left, List.getD_append _ _ _ _ (by omega), List.getD_eq_getElem _ _ (by omega)]
    have hput := put_eq (acc.take k) (block.drop (k + 1)) block[k] acc[k]
    rw [List.length_take_of_le (by omega), List.getElem_cons_drop] at hput
    rw [List.range_succ, List.foldlM_append, ih (by omega), Option.bind_eq_bind, Option.bind_some, List.foldlM_cons,
      hchar, Option.bind_some, hput, Option.bind_eq_bind, Option.bind_some, List.foldlM_nil]
    rw [← List.take_append_getElem (by omega : k < acc.length), List.append_assoc]
    rfl

lemma copyName_eq (hacc : 0 ∉ acc) : copyName (pre ++ acc ++ rest) junk pre.length acc.length = some acc := by
  have hcopy := copy_prefix pre acc rest
    (show ((List.range (acc.length + 1)).map junk).length = acc.length + 1 by simp) le_rfl
  have hlast : ((List.range (acc.length + 1)).map junk).drop acc.length = [junk acc.length] := by
    simp [List.range_succ]
  have hname : ∀ x ∈ acc, decide (x ≠ 0) = true := fun x hx => decide_eq_true fun hh => hacc (hh ▸ hx)
  rw [List.take_length, hlast] at hcopy
  rw [copyName, Option.bind_eq_bind, hcopy, Option.bind_some, put_eq, Option.bind_some,
    List.takeWhile_append_of_pos hname]
  simp

end Copying

section Walk

variable {find : Find τ} {path pre acc rest : List UInt8} {junk : ℕ → UInt8} {t : τ} (hzero : 0 ∉ path)
include hzero

lemma charAt_eq_getD {current : ℕ} (hcurrent : current ≤ path.length) :
    charAt path current = some (path.getD current 0) ∧ (path.getD current 0 = 0 ↔ current = path.length) := by
  refine ⟨charAt_eq hcurrent, fun hc => ?_, fun hc => ?_⟩
  · by_contra hne
    have hlt : current < path.length := by omega
    rw [List.getD_eq_getElem _ _ hlt] at hc
    exact hzero (hc ▸ List.getElem_mem hlt)
  · rw [List.getD_eq_default _ _ hc.ge]

section Steps

variable {fuel : ℕ} {c : UInt8}

lemma walkLoop_end (hpath : path = pre ++ acc) :
    (walkLoop find path junk (fuel + 1) (pre.length + acc.length) acc.length t).bind (lastName find path junk) =
      lookUpAll find [acc] t := by
  have hlen : path.length = pre.length + acc.length := by rw [hpath, List.length_append]
  have hacc : 0 ∉ acc := fun hh => hzero (by rw [hpath]; simp [hh])
  have hname : copyName path junk pre.length acc.length = some acc := by
    rw [hpath, ← List.append_nil (pre ++ acc)]
    exact copyName_eq hacc
  obtain ⟨hchar, hend⟩ := charAt_eq_getD hzero hlen.ge
  have hstart : ((pre.length + acc.length : ℕ) : ℤ) - acc.length = pre.length := by omega
  rw [walkLoop, hchar, Option.bind_eq_bind, Option.bind_some, if_pos (hend.mpr hlen.symm), Option.bind_some, lastName,
    hstart, hname]
  rfl

lemma walkLoop_read (hpath : path = pre ++ acc ++ c :: rest) :
    c ≠ 0 ∧ charAt path (pre.length + acc.length : ℕ) = some c := by
  have hle : pre.length + acc.length ≤ path.length := by rw [hpath]; simp
  refine ⟨fun hc => hzero (by rw [hpath, hc]; simp), ?_⟩
  rw [(charAt_eq_getD hzero hle).1, hpath, getD_append_cons]

lemma walkLoop_char (hpath : path = pre ++ acc ++ c :: rest) (hslash : c ≠ 47) :
    walkLoop find path junk (fuel + 1) (pre.length + acc.length) acc.length t =
      walkLoop find path junk fuel (pre.length + (acc ++ [c]).length) (acc ++ [c]).length t := by
  obtain ⟨hc, hchar⟩ := walkLoop_read hzero hpath
  rw [walkLoop, hchar, Option.bind_eq_bind, Option.bind_some, if_neg hc, if_neg hslash, List.length_append,
    List.length_singleton, Nat.add_assoc]

lemma walkLoop_slash (hpath : path = pre ++ acc ++ 47 :: rest) (hne : pre ++ acc ≠ []) :
    walkLoop find path junk (fuel + 1) (pre.length + acc.length) acc.length t = (find t acc).bind fun (res, t) =>
      if res < 0 then some (.folder res t)
      else if rest = [] then some (.folder 0 t)
      else walkLoop find path junk fuel (pre.length + acc.length + 2) 1 t := by
  obtain ⟨hc, hchar⟩ := walkLoop_read hzero hpath
  have hacc : 0 ∉ acc := fun hh => hzero (by rw [hpath]; simp [hh])
  have hname : copyName path junk pre.length acc.length = some acc := by rw [hpath]; exact copyName_eq hacc
  have hcurrent : pre.length + acc.length ≠ 0 := by
    rw [← List.length_append]
    exact fun hlen => hne (List.eq_nil_of_length_eq_zero hlen)
  have hstart : ((pre.length + acc.length + 1 : ℕ) : ℤ) - acc.length - 1 = pre.length := by omega
  have hrest : path.length = pre.length + acc.length + 1 ↔ rest = [] := by
    rw [← List.length_eq_zero_iff, hpath]
    simp only [List.length_append, List.length_cons]
    omega
  rw [walkLoop, hchar, Option.bind_eq_bind, Option.bind_some, if_neg hc, if_pos rfl, if_neg hcurrent]
  dsimp only
  rw [hstart, hname, Option.bind_eq_bind, Option.bind_some, Option.bind_eq_bind]
  simp only [hrest]

end Steps

lemma walkLoop_eq {fuel : ℕ} (hpath : path = pre ++ acc ++ rest) (hfuel : rest.length < fuel)
    (hfirst : pre ++ acc = [] → rest.head? ≠ some 47) :
    (walkLoop find path junk fuel (pre.length + acc.length) acc.length t).bind (lastName find path junk) =
      lookUpAll find (namesFrom acc rest) t := by
  induction fuel generalizing pre acc rest t with
  | zero => cases hfuel
  | succ fuel ih =>
    cases rest with
    | nil => exact walkLoop_end hzero (hpath.trans (List.append_nil _))
    | cons c rest =>
      by_cases hslash : c = 47
      · subst hslash
        rw [walkLoop_slash hzero hpath fun hh => hfirst hh rfl, Option.bind_assoc]
        cases rest with
        | nil =>
          rw [namesFrom, if_pos rfl, lookUpAll, Option.bind_eq_bind]
          refine congrArg _ (funext fun ⟨res, t⟩ => ?_)
          dsimp only
          split <;> rfl
        | cons d rest =>
          rw [namesFrom_slash, lookUpAll, Option.bind_eq_bind]
          refine congrArg _ (funext fun ⟨res, t⟩ => ?_)
          dsimp only
          by_cases hres : res < 0
          · rw [if_pos hres, if_pos hres]
            rfl
          · have hnext : pre.length + acc.length + 2 = (pre ++ acc ++ [47]).length + [d].length := by simp; omega
            rw [if_neg hres, if_neg hres, if_neg (List.cons_ne_nil _ _), hnext]
            refine ih ?_ ?_ ?_
            · rw [hpath]; simp
            · simp only [List.length_cons] at hfuel; omega
            · simp
      · rw [walkLoop_char hzero hpath hslash, namesFrom_char hslash]
        refine ih ?_ ?_ ?_
        · rw [hpath]; simp
        · simp only [List.length_cons] at hfuel; omega
        · simp

lemma walkPath_eq : walkPath find path junk t = lookUpAll find (lookups path) t := by
  rw [walkPath]
  cases path with
  | nil => exact walkLoop_eq hzero (show [] = [] ++ [] ++ [] from rfl) Nat.zero_lt_one (by simp)
  | cons c rest =>
    by_cases hslash : c = 47
    · subst hslash
      rw [lookups, if_pos rfl, walkLoop, charAt_eq (Nat.zero_le _), Option.bind_eq_bind, Option.bind_some]
      exact walkLoop_eq hzero (show 47 :: rest = [47] ++ [] ++ rest from rfl) (Nat.lt_succ_self _) (by simp)
    · rw [lookups, if_neg hslash]
      exact walkLoop_eq hzero (show c :: rest = [] ++ [] ++ c :: rest from rfl) (Nat.lt_succ_self _)
        (fun _ hh => hslash (Option.some.inj hh))

end Walk

section Driver

variable {D : BlockDevice σ β} {fs : EXT2 β} {s : σ} {dir : Buffer β} {path : List UInt8} (hzero : 0 ∉ path)

lemma getInodeInDir_res {s' : σ} {dir' : Buffer β} {res : ℤ} {name : List UInt8}
    (h : getInodeInDir D fs s dir name = some (res, dir', s')) : res = -1 ∨ res = 0 := by
  rcases getInodeInDir_cases h with ⟨_, hres, _⟩ | ⟨_, _, _, _, _, ⟨_, hres, _⟩ | ⟨_, _, _, _, _, hres, _⟩⟩
  · exact Or.inl hres
  · exact Or.inl hres
  · exact Or.inr hres

include hzero

lemma copyName_slice {current size : ℕ} (hsize : size ≤ current) (hcurrent : current ≤ path.length) (junk : ℕ → UInt8) :
    copyName path junk (current - size) size = some (slice path (current - size) size) := by
  obtain ⟨pre, acc, rest, rfl, hpre, rfl⟩ : ∃ pre acc rest : List UInt8, path = pre ++ acc ++ rest ∧
      pre.length = current - size ∧ acc.length = size := by
    refine ⟨path.take (current - size), (path.drop (current - size)).take size,
      (path.drop (current - size)).drop size, ?_, ?_, ?_⟩
    · rw [List.append_assoc, List.take_append_drop, List.take_append_drop]
    · rw [List.length_take_of_le (by omega)]
    · rw [List.length_take_of_le (by rw [List.length_drop]; omega)]
  have hstart : (current : ℤ) - acc.length = pre.length := by omega
  rw [hstart, ← hpre, slice_eq, copyName_eq fun hh => hzero (by simp [hh])]

lemma pathLoop_eq_walkLoop (junk : ℕ → UInt8) {fuel current size : ℕ} (hsize : size ≤ current)
    (hcurrent : current ≤ path.length) :
    (pathLoop D fs path fuel current size dir s).bind (finish D fs path) =
      (walkLoop (findInDir D fs) path junk fuel current size (dir, s)).bind
        (lastName (findInDir D fs) path junk) := by
  induction fuel generalizing current size dir s with
  | zero => rfl
  | succ fuel ih =>
    obtain ⟨hchar, hend⟩ := charAt_eq_getD hzero hcurrent
    rw [pathLoop, walkLoop, hchar]
    simp only [Option.bind_eq_bind, Option.bind_some]
    by_cases hc : path.getD current 0 = 0
    · rw [if_pos hc, if_pos hc, Option.bind_some, Option.bind_some, finish, lastName,
        copyName_slice hzero hsize hcurrent, Option.bind_eq_bind, Option.bind_some, findInDir]
      cases hin : getInodeInDir D fs s dir (slice path (current - size) size) with
      | none => rfl
      | some r =>
        obtain ⟨res, dir', s'⟩ := r
        rcases getInodeInDir_res hin with rfl | rfl <;> rfl
    · have hlt : current < path.length := lt_of_le_of_ne hcurrent fun hh => hc (hend.mpr hh)
      rw [if_neg hc, if_neg hc]
      by_cases hslash : path.getD current 0 = 47
      · rw [if_pos hslash, if_pos hslash]
        by_cases hfirst : current = 0
        · rw [if_pos hfirst, if_pos hfirst]
          exact ih (by omega) hlt
        · have hstart : ((current + 1 : ℕ) : ℤ) - size - 1 = current - size := by omega
          have hstart' : current + 1 - size - 1 = current - size := by omega
          rw [if_neg hfirst, if_neg hfirst]
          rw [hstart, hstart', copyName_slice hzero hsize hcurrent, Option.bind_some, Option.bind_assoc,
            Option.bind_assoc]
          refine congrArg _ (funext fun ⟨res, dir', s'⟩ => ?_)
          dsimp only
          by_cases hres : res < 0
          · rw [if_pos hres, if_pos hres]
            rfl
          · rw [if_neg hres, if_neg hres]
            by_cases hlen : path.length = current + 1
            · rw [if_pos hlen, if_pos hlen]
              rfl
            · rw [if_neg hlen, if_neg hlen]
              exact ih (by omega) (by omega)
      · rw [if_neg hslash, if_neg hslash]
        exact ih (by omega) hlt

lemma getInodeFromDir_eq_lookUpAll :
    getInodeFromDir D fs s dir path = lookUpAll (findInDir D fs) (lookups path) (dir, s) := by
  rw [getInodeFromDir_eq, pathLoop_eq_walkLoop hzero (fun _ => 0) le_rfl (Nat.zero_le _), ← walkPath,
    walkPath_eq hzero]

end Driver

section Joined

variable {acc name rest : List UInt8} {names : List (List UInt8)}

lemma namesFrom_append (hname : 47 ∉ name) : namesFrom acc (name ++ rest) = namesFrom (acc ++ name) rest := by
  induction name generalizing acc with
  | nil => rw [List.nil_append, List.append_nil]
  | cons c name ih =>
    rw [List.mem_cons, not_or] at hname
    rw [List.cons_append, namesFrom_char (Ne.symm hname.1), ih hname.2, List.append_assoc, List.singleton_append]

def joined (names : List (List UInt8)) (leading trailing : Bool) : List UInt8 :=
  (if leading then [47] else []) ++ List.intercalate [47] names ++ if trailing then [47] else []

lemma namesFrom_slash_name (hname : 47 ∉ name) (hne : name ≠ []) :
    namesFrom acc (47 :: (name ++ rest)) = acc :: namesFrom [] (name ++ rest) := by
  obtain ⟨c, name, rfl⟩ := List.exists_cons_of_ne_nil hne
  have hc : c ≠ 47 := fun hh => hname (hh ▸ List.mem_cons_self)
  rw [List.cons_append, namesFrom_slash, namesFrom_char hc, List.nil_append]

lemma namesFrom_intercalate (hne : names ≠ []) (hnames : ∀ name ∈ names, name ≠ [] ∧ 47 ∉ name) {tail : List UInt8}
    (htail : tail = [] ∨ tail = [47]) : namesFrom [] (List.intercalate [47] names ++ tail) = names := by
  induction names with
  | nil => exact absurd rfl hne
  | cons name names ih =>
    have hname := hnames name List.mem_cons_self
    cases names with
    | nil =>
      rw [List.intercalate_singleton, namesFrom_append hname.2]
      rcases htail with rfl | rfl <;> rfl
    | cons next names =>
      obtain ⟨hnext, hslash⟩ := hnames next (by simp)
      have hrest : ∃ rest, List.intercalate [47] (next :: names) ++ tail = next ++ rest := by
        cases names with
        | nil => exact ⟨tail, by rw [List.intercalate_singleton]⟩
        | cons _ _ => exact ⟨_, by rw [List.intercalate_cons_cons, List.append_assoc, List.append_assoc]⟩
      obtain ⟨rest, hrest⟩ := hrest
      rw [List.intercalate_cons_cons, List.append_assoc, List.append_assoc, namesFrom_append hname.2,
        List.singleton_append, hrest, namesFrom_slash_name hslash hnext, ← hrest,
        ih (List.cons_ne_nil _ _) fun n hn => hnames n (List.mem_cons_of_mem _ hn)]
      rfl

lemma lookups_joined (hne : names ≠ []) (hnames : ∀ name ∈ names, name ≠ [] ∧ 47 ∉ name) (leading trailing : Bool) :
    lookups (joined names leading trailing) = names := by
  have htail : (if trailing then [47] else []) = ([] : List UInt8) ∨
      (if trailing then [47] else []) = [(47 : UInt8)] := by
    cases trailing
    · exact Or.inl rfl
    · exact Or.inr rfl
  have hnamesFrom := namesFrom_intercalate hne hnames htail
  cases leading with
  | true =>
    rw [joined, if_pos rfl, List.append_assoc, List.singleton_append, lookups, if_pos rfl, hnamesFrom]
  | false =>
    rw [joined, if_neg Bool.false_ne_true, List.nil_append]
    obtain ⟨name, rest, rfl⟩ := List.exists_cons_of_ne_nil hne
    obtain ⟨hname, hslash⟩ := hnames name List.mem_cons_self
    obtain ⟨c, name, rfl⟩ := List.exists_cons_of_ne_nil hname
    have hc : c ≠ 47 := fun hh => hslash (hh ▸ List.mem_cons_self)
    have hstart : ∃ more,
        List.intercalate [47] ((c :: name) :: rest) ++ (if trailing then [47] else []) = c :: more := by
      cases rest with
      | nil => exact ⟨_, by rw [List.intercalate_singleton]; rfl⟩
      | cons _ _ => exact ⟨_, by rw [List.intercalate_cons_cons]; rfl⟩
    obtain ⟨more, hstart⟩ := hstart
    rw [hstart] at hnamesFrom ⊢
    rw [lookups, if_neg hc, hnamesFrom]

lemma zero_notMem_joined (hnames : ∀ name ∈ names, 0 ∉ name) (leading trailing : Bool) :
    0 ∉ joined names leading trailing := by
  have hmiddle : 0 ∉ List.intercalate [47] names := by
    induction names with
    | nil => exact List.not_mem_nil
    | cons name names ih =>
      have hname := hnames name List.mem_cons_self
      have hrest := ih fun n hn => hnames n (List.mem_cons_of_mem _ hn)
      cases names with
      | nil => rwa [List.intercalate_singleton]
      | cons next names =>
        rw [List.intercalate_cons_cons, List.mem_append, List.mem_append]
        rintro ((hh | hh) | hh)
        · exact hname hh
        · exact absurd hh (by decide)
        · exact hrest hh
  rw [joined, List.mem_append, List.mem_append]
  rintro ((hh | hh) | hh)
  · cases leading <;> simp at hh
  · exact hmiddle hh
  · cases trailing <;> simp at hh

end Joined

/-- For every lookup, in particular for one that records what it is asked for: a path asks for its names in their
order, up to the first that is not found, and no index leaves the path or the block of a name. -/
theorem walkPath_joined (names : List (List UInt8)) (hne : names ≠ [])
    (hnames : ∀ name ∈ names, name ≠ [] ∧ 47 ∉ name ∧ 0 ∉ name) (leading trailing : Bool) :
    (∀ (τ : Type) (find : Find τ) (junk : ℕ → UInt8) (t : τ),
      walkPath find (joined names leading trailing) junk t = lookUpAll find names t) ∧
    ∀ (σ β : Type) (D : BlockDevice σ β) (fs : EXT2 β) (s : σ) (dir : Buffer β),
      getInodeFromDir D fs s dir (joined names leading trailing) = lookUpAll (findInDir D fs) names (dir, s) := by
  have hzero := zero_notMem_joined (fun name hname => (hnames name hname).2.2) leading trailing
  have hlookups := lookups_joined hne (fun name hname => ⟨(hnames name hname).1, (hnames name hname).2.1⟩)
    leading trailing
  refine ⟨fun τ find junk t => ?_, fun σ β D fs s dir => ?_⟩
  · rw [walkPath_eq hzero, hlookups]
  · rw [getInodeFromDir_eq_lookUpAll hzero, hlookups]

theorem walkPath_joined_folder : walkPath (fun calls name => some (0, calls ++ [name]))
    [47, 97, 47, 98, 99, 47] (fun _ => 0) [] = some (0, [[97], [98, 99]]) :=
  (walkPath_joined [[97], [98, 99]] (by decide) (by simp) true true).1 (List (List UInt8)) _ _ []

end TetraOS.Drivers.Ext2
