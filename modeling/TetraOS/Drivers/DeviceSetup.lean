import Mathlib.Tactic
import TetraOS.Library.RegisterProgram

/-! `init` of the block and of the console driver (kernel/drivers/virtio/blk.cpp and console.cpp), with a virtio device
behind the registers. The device may ask for a reset, and may change its configuration, at any time. -/

namespace TetraOS.Drivers.DeviceSetup

open Relation Library.RegisterProgram

inductive Register where
  | status | deviceFeatures | deviceFeaturesSel | driverFeatures | driverFeaturesSel
  | queueSel | queueReady | queueNumMax | queueNum | queueDesc | queueDriver | queueDevice
  | writeback | capacity | numQueues

structure Queue where
  num : ℕ
  desc : ℕ
  driver : ℕ
  device : ℕ
  ready : ℕ

def Queue.unset : Queue := ⟨0, 0, 0, 0, 0⟩

section Device

/-- What a device is made for: its feature bits, the sets of them it can work with, and the sizes of its queues. -/
structure Model where
  features : ℕ
  accepts : (ℕ → ℕ) → Bool
  numMax : ℕ → ℕ

/-- The part of the state that the driver sets. The accepted features are kept as words. -/
structure Setup where
  status : ℕ
  featuresSel : ℕ
  driverSel : ℕ
  accepted : ℕ → ℕ
  queueSel : ℕ
  queues : ℕ → Queue
  writeback : ℕ

structure VirtioState where
  setup : Setup
  needsReset : Bool
  capacity : ℕ
  numQueues : ℕ

namespace Setup

variable (D : Model) (x : Setup)

def reset : Setup := { x with status := 0, accepted := fun _ => 0, queues := fun _ => .unset }

/-- FEATURES_OK is only taken on where the device can work with what was accepted. Bit 6 is for the device to set. -/
def setStatus (v : ℕ) : Setup :=
  if v = 0 then x.reset
  else if x.status &&& 0x8 = 0 ∧ D.accepts x.accepted = false then { x with status := v &&& 0xBF &&& 0xF7 }
  else { x with status := v &&& 0xBF }

def setQueue (f : Queue → Queue) : Setup :=
  { x with queues := Function.update x.queues x.queueSel (f (x.queues x.queueSel)) }

def write (r : Register) (v : ℕ) : Setup :=
  match r with
  | .status => x.setStatus D v
  | .deviceFeaturesSel => { x with featuresSel := v }
  | .driverFeaturesSel => { x with driverSel := v }
  | .driverFeatures =>
    if x.status &&& 0x8 = 0 then { x with accepted := Function.update x.accepted x.driverSel v } else x
  | .queueSel => { x with queueSel := v }
  | .queueNum => x.setQueue fun q => { q with num := v }
  | .queueDesc => x.setQueue fun q => { q with desc := v }
  | .queueDriver => x.setQueue fun q => { q with driver := v }
  | .queueDevice => x.setQueue fun q => { q with device := v }
  | .queueReady => x.setQueue fun q => { q with ready := v }
  | .writeback => { x with writeback := v }
  | _ => x

end Setup

def Model.word (D : Model) (i : ℕ) : ℕ := D.features / 2 ^ (32 * i) % 2 ^ 32

def VirtioState.read (D : Model) (s : VirtioState) (r : Register) : ℕ :=
  match r with
  | .status => if s.needsReset then s.setup.status ||| 0x40 else s.setup.status
  | .deviceFeatures => D.word s.setup.featuresSel
  | .queueReady => (s.setup.queues s.setup.queueSel).ready
  | .queueNumMax => D.numMax s.setup.queueSel
  | .writeback => s.setup.writeback
  | .capacity => s.capacity
  | .numQueues => s.numQueues
  | _ => 0

def VirtioState.write (D : Model) (s : VirtioState) (r : Register) (v : ℕ) : VirtioState :=
  match r with
  | .status => { s with setup := s.setup.setStatus D v, needsReset := s.needsReset && v != 0 }
  | _ => { s with setup := s.setup.write D r v }

inductive VirtioOwn : VirtioState → VirtioState → Prop
  | needsReset {s} : VirtioOwn s { s with needsReset := true }
  | reconfigure {s} (capacity numQueues : ℕ) : VirtioOwn s { s with capacity := capacity, numQueues := numQueues }

def virtio (D : Model) : Device Register ℕ VirtioState := ⟨fun s r => (s.read D r, s), VirtioState.write D, VirtioOwn⟩

end Device

section Driver

abbrev Access := Program Register ℕ (Except String Unit)

/-- The rest of `init` where it goes on. -/
def andThen (p q : Access) : Access :=
  p.bind fun
    | .ok () => q
    | .error text => .done (.error text)

/-- Where `init` returns -1, its result here is the text it logs. -/
def negotiate (device : String) : Access :=
  .write .status 0x0 <|
  .write .status 0x1 <|
  .read .status fun status =>
  .write .status (status ||| 0x2) <|
  .write .deviceFeaturesSel 0x0 <|
  .read .deviceFeatures fun deviceFeatures =>
  .write .deviceFeaturesSel 0x1 <|
  .read .deviceFeatures fun _ =>
  .write .driverFeaturesSel 0x0 <|
  .write .driverFeatures deviceFeatures <|
  .read .status fun status =>
  .write .status (status ||| 0x8) <|
  .read .status fun status =>
  if status &&& 0x8 = 0x0 then
    .done (.error ("Error in " ++ device ++ " device initialization: Device does not support the selected features"))
  else .done (.ok ())

def queueSize : ℕ := 256

/-- The offsets of `avail` and `used` in a `VirtQueue`. -/
def availOffset : ℕ := 16 * queueSize
def usedOffset : ℕ := availOffset + 520

/-- A new `VirtQueue` is at `queue`. -/
def setupQueue (phys : ℕ → ℕ) (device : String) (queue i : ℕ) : Access :=
  .write .queueSel i <|
  .read .queueReady fun queueReady =>
  if queueReady ≠ 0x0 then .done (.error ("VirtQueue for " ++ device ++ " device is already in use.")) else
  .read .queueNumMax fun queueNumMax =>
  if queueNumMax = 0x0 then .done (.error ("VirtQueue for " ++ device ++ " device is not available.")) else
  if queueNumMax < queueSize then .done (.error "VirtQueue does not support enough queue elements.") else
  .write .queueNum queueSize <|
  .write .queueDesc (phys queue) <|
  .write .queueDriver (phys (queue + availOffset)) <|
  .write .queueDevice (phys (queue + usedOffset)) <|
  .write .queueReady 0x1 <|
  .done (.ok ())

def setupQueues (phys : ℕ → ℕ) (device : String) (queues : ℕ → ℕ) : List ℕ → Access
  | [] => .done (.ok ())
  | i :: is => andThen (setupQueue phys device (queues i) i) (setupQueues phys device queues is)

def driverOk : Access :=
  .read .status fun status =>
  .write .status (status ||| 0x4) <|
  .done (.ok ())

def blockInit (phys queues : ℕ → ℕ) : Access :=
  andThen (negotiate "block") <|
  andThen (setupQueues phys "block" queues [0]) <|
  .write .writeback 0x0 <|
  .read .capacity fun _ =>
  .read .numQueues fun _ =>
  driverOk

def consoleInit (phys queues : ℕ → ℕ) : Access :=
  andThen (negotiate "console") <|
  andThen (setupQueues phys "console" queues [0, 1, 2, 3]) driverOk

end Driver

section Setup

variable (D : Model) (device : String)

/-- The words of features that the driver accepts: only the first one. -/
def Model.offered (D : Model) : ℕ → ℕ := Function.update (fun _ => 0) 0 (D.word 0)

inductive Negotiated : Except String Unit → Setup → Prop
  | agreed {x} : D.accepts D.offered = true → x.status = 0xB → x.accepted = D.offered → x.queues = (fun _ => .unset) →
      Negotiated (.ok ()) x
  | refused {x} : D.accepts D.offered = false → x.status = 0x3 → Negotiated
      (.error ("Error in " ++ device ++ " device initialization: Device does not support the selected features")) x

def setupView : View (virtio D) Setup where
  view := VirtioState.setup
  Reads x r v := match r with
    | .status => v = x.status ∨ v = x.status ||| 0x40
    | .deviceFeatures => v = D.word x.featuresSel
    | .queueReady => v = (x.queues x.queueSel).ready
    | .queueNumMax => v = D.numMax x.queueSel
    | _ => True
  Allowed _ _ _ := True
  write := Setup.write D
  own h := by cases h <;> rfl
  reads s r := by
    cases r with
    | status =>
      change (if s.needsReset then _ else _) = _ ∨ (if s.needsReset then _ else _) = _
      cases s.needsReset
      · exact Or.inl rfl
      · exact Or.inr rfl
    | deviceFeatures => rfl
    | queueReady => rfl
    | queueNumMax => rfl
    | _ => trivial
  read_view _ _ := rfl
  write_view {s r v} _ := by cases r <;> rfl

variable {D device} {J : Setup → Prop} {x : Setup} {v v' a b : ℕ}

lemma or_status (hv : v = a ∨ v = a ||| 0x40) : (v ||| b) &&& 0xBF = (a ||| b) &&& 0xBF := by
  rcases hv with rfl | rfl
  · rfl
  · rw [Nat.and_or_distrib_right, Nat.and_or_distrib_right, Nat.and_or_distrib_right, show 0x40 &&& 0xBF = 0 from rfl,
      Nat.or_zero]

lemma status_bit (hv : v = a ∨ v = a ||| 0x40) : v &&& 0x8 = a &&& 0x8 := by
  rcases hv with rfl | rfl
  · rfl
  · rw [Nat.and_or_distrib_right, show 0x40 &&& 0x8 = 0 from rfl, Nat.or_zero]

lemma ne_zero_of_and (h : v &&& 0xBF = v') (hpos : v' ≠ 0) : v ≠ 0 := by
  rintro rfl
  exact hpos (h.symm.trans (Nat.zero_and _))

lemma setStatus_zero : x.setStatus D 0 = x.reset := if_pos rfl

lemma setStatus_low (h : v &&& 0xBF = v') (hpos : v' ≠ 0) (hlow : v' &&& 0xF7 = v') :
    x.setStatus D v = { x with status := v' } := by
  rw [Setup.setStatus, if_neg (ne_zero_of_and h hpos), h, hlow, ite_self]

lemma setStatus_accepted (h : v &&& 0xBF = v') (hpos : v' ≠ 0)
    (haccepts : x.status &&& 0x8 ≠ 0 ∨ D.accepts x.accepted = true) :
    x.setStatus D v = { x with status := v' } := by
  rw [Setup.setStatus, if_neg (ne_zero_of_and h hpos), if_neg, h]
  rintro ⟨hstatus, hrefuse⟩
  rcases haccepts with hne | haccepts
  · exact hne hstatus
  · rw [haccepts] at hrefuse
    cases hrefuse

lemma setStatus_refused (h : v &&& 0xBF = v') (hpos : v' ≠ 0) (hstatus : x.status = 0x3)
    (hrefuse : D.accepts x.accepted = false) : x.setStatus D v = { x with status := v' &&& 0xF7 } := by
  rw [Setup.setStatus, if_neg (ne_zero_of_and h hpos), if_pos ⟨by rw [hstatus]; rfl, hrefuse⟩, h]

lemma accept_word (h : x.status = 0x3) :
    x.write D .driverFeatures v = { x with accepted := Function.update x.accepted x.driverSel v } :=
  if_pos (by rw [h]; rfl)

lemma meets_write {α : Type} {Q : α → Setup → Prop} {next : Program Register ℕ α} {r : Register} {y : Setup} (hx : J x)
    (hy : x.write D r v = y) (h : (setupView D).Meets J Q next y) : (setupView D).Meets J Q (.write r v next) x := by
  subst hy
  exact ⟨hx, trivial, h⟩

/-- Before DRIVER_OK. -/
def Dormant (x : Setup) : Prop := x.status ∈ [0x0, 0x1, 0x3, 0xB]

lemma negotiate_meets (hJ : ∀ x, Dormant x → J x) (hx : J x) :
    (setupView D).Meets J (Negotiated D device) (negotiate device) x := by
  have h0 : ∀ x : Setup, x.status = 0x0 → J x := fun x h => hJ x (by simp [Dormant, h])
  have h1 : ∀ x : Setup, x.status = 0x1 → J x := fun x h => hJ x (by simp [Dormant, h])
  have h3 : ∀ x : Setup, x.status = 0x3 → J x := fun x h => hJ x (by simp [Dormant, h])
  have hB : ∀ x : Setup, x.status = 0xB → J x := fun x h => hJ x (by simp [Dormant, h])
  refine meets_write hx setStatus_zero (meets_write (h0 _ rfl) (setStatus_low rfl (by decide : 0x1 ≠ 0) rfl) ?_)
  refine ⟨h1 _ rfl, fun v hv => ?_⟩
  refine meets_write (h1 _ rfl) (setStatus_low (or_status (a := 0x1) hv) (by decide : 0x3 ≠ 0) rfl) ?_
  refine meets_write (h3 _ rfl) rfl ⟨h3 _ rfl, ?_⟩
  rintro _ rfl
  refine meets_write (h3 _ rfl) rfl ⟨h3 _ rfl, fun _ _ => ?_⟩
  refine meets_write (h3 _ rfl) rfl (meets_write (h3 _ rfl) (accept_word rfl) ⟨h3 _ rfl, fun v hv => ?_⟩)
  have hv' : (v ||| 0x8) &&& 0xBF = 0xB := or_status (a := 0x3) hv
  cases haccepts : D.accepts D.offered with
  | false =>
    refine meets_write (h3 _ rfl) (setStatus_refused hv' (by decide) rfl haccepts) ⟨h3 _ rfl, fun v hv => ?_⟩
    have hbit : v &&& 0x8 = 0 := status_bit (a := 0x3) hv
    beta_reduce
    rw [if_pos hbit]
    exact ⟨h3 _ rfl, .refused haccepts rfl⟩
  | true =>
    refine meets_write (h3 _ rfl) (setStatus_accepted hv' (by decide) (Or.inr haccepts)) ⟨hB _ rfl, fun v hv => ?_⟩
    have hbit : v &&& 0x8 = 0x8 := status_bit (a := 0xB) hv
    beta_reduce
    rw [if_neg (by rw [hbit]; decide)]
    exact ⟨hB _ rfl, .agreed haccepts rfl rfl rfl⟩

variable (D device) in
def Model.refusal (i : ℕ) : Option String :=
  if D.numMax i = 0 then some ("VirtQueue for " ++ device ++ " device is not available.")
  else if D.numMax i < queueSize then some "VirtQueue does not support enough queue elements."
  else none

def configured (phys : ℕ → ℕ) (queue : ℕ) : Queue :=
  ⟨queueSize, phys queue, phys (queue + availOffset), phys (queue + usedOffset), 0x1⟩

variable {phys queues : ℕ → ℕ} {i : ℕ}

variable (D device phys) in
def QueueTried (x : Setup) (queue i : ℕ) (result : Except String Unit) (x' : Setup) : Prop :=
  match D.refusal device i with
  | some text => result = .error text ∧ x' = { x with queueSel := i }
  | none => result = .ok () ∧
      x' = { x with queueSel := i, queues := Function.update x.queues i (configured phys queue) }

lemma setupQueue_meets (hJ : ∀ x : Setup, x.status = 0xB → J x) (hx : x.status = 0xB) (hunset : x.queues i = .unset)
    (queue : ℕ) :
    (setupView D).Meets J (QueueTried D device phys x queue i) (setupQueue phys device queue i) x := by
  refine meets_write (hJ x hx) rfl ⟨hJ _ hx, fun v hv => ?_⟩
  obtain rfl : v = 0 := hv.trans (congrArg Queue.ready hunset)
  refine ⟨hJ _ hx, ?_⟩
  rintro _ rfl
  change (setupView D).Meets _ _ (if D.numMax i = 0 then _ else if D.numMax i < queueSize then _ else _) _
  unfold QueueTried Model.refusal
  split_ifs with hzero hsmall
  · exact ⟨hJ _ hx, rfl, rfl⟩
  · exact ⟨hJ _ hx, rfl, rfl⟩
  · refine ⟨hJ _ hx, trivial, hJ _ hx, trivial, hJ _ hx, trivial, hJ _ hx, trivial, hJ _ hx, trivial, hJ _ hx, rfl, ?_⟩
    simp [setupView, Setup.write, Setup.setQueue, configured]

variable (D device) in
def Model.first (is : List ℕ) : List ℕ := is.takeWhile fun i => (D.refusal device i).isNone

variable (D device phys queues) in
inductive QueuesTried (x : Setup) (is : List ℕ) : Except String Unit → Setup → Prop
  | ready {x'} : is.findSome? (D.refusal device) = none → x'.status = 0xB → x'.accepted = x.accepted →
      (∀ i ∈ is, x'.queues i = configured phys (queues i)) → (∀ i ∉ is, x'.queues i = x.queues i) →
      QueuesTried x is (.ok ()) x'
  | refused {x'} (text : String) : is.findSome? (D.refusal device) = some text → x'.status = 0xB →
      (∀ i ∈ D.first device is, x'.queues i = configured phys (queues i)) → (∀ i ∉ is, x'.queues i = x.queues i) →
      QueuesTried x is (.error text) x'

lemma setupQueues_meets {is : List ℕ} (hJ : ∀ x : Setup, x.status = 0xB → J x) (hx : x.status = 0xB)
    (hunset : ∀ i ∈ is, x.queues i = .unset) (hnodup : is.Nodup) :
    (setupView D).Meets J (QueuesTried D device phys queues x is) (setupQueues phys device queues is) x := by
  induction is generalizing x with
  | nil => exact ⟨hJ x hx, .ready rfl hx rfl (by simp) fun _ _ => rfl⟩
  | cons i is ih =>
    obtain ⟨hnot, hrest⟩ := List.nodup_cons.mp hnodup
    refine (setupQueue_meets hJ hx (hunset i List.mem_cons_self) (queues i)).bind fun result x' _ hx' => ?_
    unfold QueueTried at hx'
    cases hrefusal : D.refusal device i with
    | some text =>
      rw [hrefusal] at hx'
      obtain ⟨rfl, rfl⟩ := hx'
      refine ⟨hJ _ hx, .refused text (by rw [List.findSome?_cons, hrefusal]) hx ?_ fun _ _ => rfl⟩
      rw [Model.first, List.takeWhile_cons_of_neg (by rw [hrefusal]; nofun)]
      exact fun j hj => absurd hj List.not_mem_nil
    | none =>
      rw [hrefusal] at hx'
      obtain ⟨rfl, rfl⟩ := hx'
      have hkeep : ∀ j, j ≠ i → Function.update x.queues i (configured phys (queues i)) j = x.queues j :=
        fun j hj => Function.update_of_ne hj _ _
      have hrest' : ∀ j ∈ is, Function.update x.queues i (configured phys (queues i)) j = .unset := fun j hj =>
        (hkeep j fun h => hnot (h ▸ hj)).trans (hunset j (List.mem_cons_of_mem i hj))
      refine View.Meets.mono (ih hx hrest' hrest) fun result x' hdone => ?_
      cases hdone with
      | refused text htext hstatus hfirst hothers =>
        refine .refused text (by rw [List.findSome?_cons, hrefusal]; exact htext) hstatus ?_ ?_
        · rw [Model.first, List.takeWhile_cons_of_pos (by rw [hrefusal]; rfl)]
          intro j hj
          rcases List.mem_cons.mp hj with rfl | hj
          · exact (hothers j hnot).trans (Function.update_self ..)
          · exact hfirst j hj
        · intro j hj
          rw [List.mem_cons, not_or] at hj
          exact (hothers j hj.2).trans (hkeep j hj.1)
      | ready hnone hstatus haccepted hready hothers =>
        refine .ready (by rw [List.findSome?_cons, hrefusal]; exact hnone) hstatus haccepted ?_ ?_
        · intro j hj
          rcases List.mem_cons.mp hj with rfl | hj
          · exact (hothers j hnot).trans (Function.update_self ..)
          · exact hready j hj
        · intro j hj
          rw [List.mem_cons, not_or] at hj
          exact (hothers j hj.2).trans (hkeep j hj.1)

variable (D device phys queues) in
/-- The device has been told that the driver is ready: it knows what features were accepted and where its queues are. -/
structure Live (is : List ℕ) (x : Setup) : Prop where
  status : x.status = 0xF
  accepted : x.accepted = D.offered
  queues : ∀ i ∈ is, x.queues i = configured phys (queues i)
  others : ∀ i ∉ is, x.queues i = .unset

variable (D) in
def Usable (is : List ℕ) : Prop := D.accepts D.offered = true ∧ ∀ i ∈ is, queueSize ≤ D.numMax i

variable (D device) in
def outcome (is : List ℕ) : Except String Unit :=
  if D.accepts D.offered then
    match is.findSome? (D.refusal device) with
    | some text => .error text
    | none => .ok ()
  else .error ("Error in " ++ device ++ " device initialization: Device does not support the selected features")

lemma refusal_eq_none_iff (i : ℕ) : D.refusal device i = none ↔ queueSize ≤ D.numMax i := by
  rw [Model.refusal]
  split_ifs with hzero hsmall
  · simp [hzero, queueSize]
  · simp [hsmall]
  · simpa using hsmall

lemma outcome_eq_ok_iff (is : List ℕ) : outcome D device is = .ok () ↔ Usable D is := by
  rw [outcome, Usable]
  cases haccepts : D.accepts D.offered with
  | false => simp
  | true =>
    have hnone : is.findSome? (D.refusal device) = none ↔ ∀ i ∈ is, queueSize ≤ D.numMax i := by
      rw [List.findSome?_eq_none_iff]
      exact forall₂_congr fun i _ => refusal_eq_none_iff i
    rw [if_pos rfl, ← hnone, eq_self, true_and]
    cases is.findSome? (D.refusal device) with
    | none => exact iff_of_true rfl rfl
    | some text => exact iff_of_false nofun nofun

variable (D device phys queues) in
structure Finished (is : List ℕ) (result : Except String Unit) (x : Setup) : Prop where
  returns : result = outcome D device is
  live : result = .ok () → Live D phys queues is x
  dormant : result ≠ .ok () → Dormant x ∧
    (D.accepts D.offered = true → ∀ i ∈ D.first device is, x.queues i = configured phys (queues i))

variable (D phys queues) in
def Kept (x₀ : Setup) (is : List ℕ) (x : Setup) : Prop :=
  x = x₀ ∨ Dormant x ∨ Usable D is ∧ Live D phys queues is x

lemma init_meets {is : List ℕ} (hnodup : is.Nodup) (x₀ : Setup) (tail : Access)
    (htail : ∀ x, x.status = 0xB → x.accepted = D.offered → (∀ i ∈ is, x.queues i = configured phys (queues i)) →
      (∀ i ∉ is, x.queues i = .unset) → outcome D device is = .ok () →
      (setupView D).Meets (Kept D phys queues x₀ is) (Finished D device phys queues is) tail x) :
    (setupView D).Meets (Kept D phys queues x₀ is) (Finished D device phys queues is)
      (andThen (negotiate device) (andThen (setupQueues phys device queues is) tail)) x₀ := by
  have hdormant : ∀ x, Dormant x → Kept D phys queues x₀ is x := fun x h => Or.inr (Or.inl h)
  have hB : ∀ x : Setup, x.status = 0xB → Kept D phys queues x₀ is x := fun x h => hdormant x (by simp [Dormant, h])
  refine (negotiate_meets hdormant (Or.inl rfl)).bind fun result x hx hnegotiated => ?_
  cases hnegotiated with
  | refused haccepts hstatus =>
    refine ⟨hx, ?_, nofun, fun _ => ⟨by simp [Dormant, hstatus], fun h => ?_⟩⟩
    · rw [outcome, if_neg (by rw [haccepts]; nofun)]
    · rw [haccepts] at h
      cases h
  | agreed haccepts hstatus haccepted hqueues =>
    have hunset : ∀ i ∈ is, x.queues i = .unset := fun i _ => by rw [hqueues]
    refine (setupQueues_meets hB hstatus hunset hnodup).bind fun result y hy htried => ?_
    cases htried with
    | refused text htext hstatus' hfirst =>
      refine ⟨hy, ?_, nofun, fun _ => ⟨by simp [Dormant, hstatus'], fun _ => hfirst⟩⟩
      rw [outcome, if_pos haccepts, htext]
    | ready hnone hstatus' haccepted' hready hothers =>
      refine htail y hstatus' (haccepted'.trans haccepted) hready (fun i hi => ?_) ?_
      · rw [hothers i hi, hqueues]
      · rw [outcome, if_pos haccepts, hnone]

lemma driverOk_meets {is : List ℕ} (hJ : ∀ x, Dormant x ∨ Usable D is ∧ Live D phys queues is x → J x)
    (hx : x.status = 0xB)
    (haccepted : x.accepted = D.offered) (hready : ∀ i ∈ is, x.queues i = configured phys (queues i))
    (hothers : ∀ i ∉ is, x.queues i = .unset) (hok : outcome D device is = .ok ()) :
    (setupView D).Meets J (Finished D device phys queues is) driverOk x := by
  have hdormant : J x := hJ x (Or.inl (by simp [Dormant, hx]))
  refine ⟨hdormant, fun v hv => ?_⟩
  have hv' : (v ||| 0x4) &&& 0xBF = 0xF := or_status (a := 0xB) (hx ▸ hv)
  have hlive : Live D phys queues is { x with status := 0xF } := ⟨rfl, haccepted, hready, hothers⟩
  refine meets_write hdormant (setStatus_accepted hv' (by decide) (Or.inl (by rw [hx]; decide))) ?_
  exact ⟨hJ _ (Or.inr ⟨(outcome_eq_ok_iff is).mp hok, hlive⟩), hok.symm, fun _ => hlive, fun h => absurd rfl h⟩

variable (D phys queues) in
lemma blockInit_meets (x₀ : Setup) : (setupView D).Meets (Kept D phys queues x₀ [0])
    (Finished D "block" phys queues [0]) (blockInit phys queues) x₀ := by
  refine init_meets (List.nodup_singleton 0) x₀ _ fun x hx haccepted hready hothers hok => ?_
  have hdormant : ∀ y : Setup, y.status = 0xB → Kept D phys queues x₀ [0] y :=
    fun y hy => Or.inr (Or.inl (by simp [Dormant, hy]))
  refine meets_write (hdormant x hx) rfl ⟨hdormant _ hx, fun _ _ => ⟨hdormant _ hx, fun _ _ => ?_⟩⟩
  exact driverOk_meets (fun y hy => Or.inr hy) hx haccepted hready hothers hok

variable (D phys queues) in
lemma consoleInit_meets (x₀ : Setup) : (setupView D).Meets (Kept D phys queues x₀ [0, 1, 2, 3])
    (Finished D "console" phys queues [0, 1, 2, 3]) (consoleInit phys queues) x₀ := by
  refine init_meets (by decide) x₀ _ fun x hx haccepted hready hothers hok => ?_
  exact driverOk_meets (fun y hy => Or.inr hy) hx haccepted hready hothers hok

end Setup

section PollFree

variable {phys queues : ℕ → ℕ} {device : String}

lemma andThen_pollFree {p q : Access} (hp : p.PollFree) (hq : q.PollFree) : (andThen p q).PollFree := by
  refine hp.bind fun result => ?_
  cases result with
  | error text => trivial
  | ok => exact hq

lemma negotiate_pollFree : (negotiate device).PollFree := by
  intro status features features' status status
  beta_reduce
  split <;> trivial

lemma setupQueues_pollFree (is : List ℕ) : (setupQueues phys device queues is).PollFree := by
  induction is with
  | nil => trivial
  | cons i is ih =>
    refine andThen_pollFree (fun ready => ?_) ih
    beta_reduce
    split
    · trivial
    intro num
    beta_reduce
    split
    · trivial
    · split <;> trivial

variable (phys queues) in
lemma blockInit_pollFree : (blockInit phys queues).PollFree :=
  andThen_pollFree negotiate_pollFree (andThen_pollFree (setupQueues_pollFree _) fun _ _ _ => trivial)

variable (phys queues) in
lemma consoleInit_pollFree : (consoleInit phys queues).PollFree :=
  andThen_pollFree negotiate_pollFree (andThen_pollFree (setupQueues_pollFree _) fun _ => trivial)

end PollFree

/-- From any state of the device and whatever it does meanwhile: the block device goes from dormant to live only if it
is usable, and with its features agreed on and its queue in place. `init` ends so if and only if the device takes its
first 32 features without the others and its queue has 256 places; else it logs the first reason and the device stays
dormant. -/
theorem blockInit_run (D : Model) (phys queues : ℕ → ℕ) (s s' : VirtioState) (p : Access)
    (hrun : ReflTransGen (Step (virtio D)) (blockInit phys queues, s) (p, s')) :
    (s'.setup = s.setup ∨ Dormant s'.setup ∨ Usable D [0] ∧ Live D phys queues [0] s'.setup) ∧
    (∀ result, p = .done result → result = outcome D "block" [0] ∧ (result = .ok () ↔ Usable D [0]) ∧
      (result = .ok () → Live D phys queues [0] s'.setup) ∧ (result ≠ .ok () → Dormant s'.setup)) ∧
    ∃ result t, ReflTransGen (Step (virtio D)) (p, s') (.done result, t) := by
  have hmeets := (blockInit_meets D phys queues s.setup).run hrun
  refine ⟨hmeets.inv, ?_, ((blockInit_pollFree phys queues).run hrun).exists_done s'⟩
  rintro result rfl
  obtain ⟨_, hreturns, hlive, hdormant⟩ := hmeets
  exact ⟨hreturns, by rw [hreturns, outcome_eq_ok_iff], hlive, fun h => (hdormant h).1⟩

def liveDevice : VirtioState := ⟨⟨0xF, 0, 0, fun _ => 5, 0, fun _ => ⟨8, 1, 2, 3, 1⟩, 1⟩, true, 4096, 1⟩

theorem blockInit_run_live : ∃ t, ReflTransGen (Step (virtio ⟨0x130000006, fun _ => true, fun _ => 1024⟩))
    (blockInit id fun _ => 0x8000, liveDevice) (.done (.ok ()), t) ∧ t.setup.accepted 0 = 0x30000006 ∧
    t.setup.queues 0 = ⟨256, 0x8000, 0x9000, 0x9208, 1⟩ := by
  obtain ⟨result, t, hrun⟩ := (blockInit_pollFree id fun _ => 0x8000).exists_done
    (d := virtio ⟨0x130000006, fun _ => true, fun _ => 1024⟩) liveDevice
  obtain ⟨_, hdone, _⟩ := blockInit_run _ _ _ _ _ _ hrun
  obtain ⟨_, husable, hlive, _⟩ := hdone result rfl
  obtain rfl : result = .ok () := husable.mpr ⟨rfl, fun _ _ => (by decide : 256 ≤ 1024)⟩
  exact ⟨t, hrun, congrFun (hlive rfl).accepted 0, (hlive rfl).queues 0 (List.mem_singleton_self 0)⟩

/-- The console device needs all of its four queues. Where one is refused, those before it are left ready. -/
theorem consoleInit_run (D : Model) (phys queues : ℕ → ℕ) (s s' : VirtioState) (p : Access)
    (hrun : ReflTransGen (Step (virtio D)) (consoleInit phys queues, s) (p, s')) :
    (s'.setup = s.setup ∨ Dormant s'.setup ∨
      Usable D [0, 1, 2, 3] ∧ Live D phys queues [0, 1, 2, 3] s'.setup) ∧
    (∀ result, p = .done result → result = outcome D "console" [0, 1, 2, 3] ∧
      (result = .ok () ↔ Usable D [0, 1, 2, 3]) ∧ (result = .ok () → Live D phys queues [0, 1, 2, 3] s'.setup) ∧
      (result ≠ .ok () → Dormant s'.setup ∧ (D.accepts D.offered = true →
        ∀ i ∈ D.first "console" [0, 1, 2, 3], s'.setup.queues i = configured phys (queues i)))) ∧
    ∃ result t, ReflTransGen (Step (virtio D)) (p, s') (.done result, t) := by
  have hmeets := (consoleInit_meets D phys queues s.setup).run hrun
  refine ⟨hmeets.inv, ?_, ((consoleInit_pollFree phys queues).run hrun).exists_done s'⟩
  rintro result rfl
  obtain ⟨_, hreturns, hlive, hdormant⟩ := hmeets
  exact ⟨hreturns, by rw [hreturns, outcome_eq_ok_iff], hlive, hdormant⟩

def smallConsole : Model := ⟨0, fun _ => true, fun i => if i < 2 then 256 else 0⟩

theorem consoleInit_run_small : ∃ t, ReflTransGen (Step (virtio smallConsole))
    (consoleInit id fun i => 0x10000 * i, liveDevice)
      (.done (.error "VirtQueue for console device is not available."), t) ∧
    Dormant t.setup ∧ (t.setup.queues 1).ready = 1 := by
  obtain ⟨result, t, hrun⟩ := (consoleInit_pollFree id fun i => 0x10000 * i).exists_done
    (d := virtio smallConsole) liveDevice
  obtain ⟨_, hdone, _⟩ := consoleInit_run _ _ _ _ _ _ hrun
  obtain ⟨hresult, _, _, hdormant⟩ := hdone result rfl
  obtain rfl : result = .error "VirtQueue for console device is not available." := hresult
  obtain ⟨hdormant, hready⟩ := hdormant nofun
  exact ⟨t, hrun, hdormant, congrArg Queue.ready (hready rfl 1 (by decide))⟩

end TetraOS.Drivers.DeviceSetup
