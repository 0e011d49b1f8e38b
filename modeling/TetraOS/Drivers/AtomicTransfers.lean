import TetraOS.Drivers.RequestRuns
import TetraOS.Library.RegisterProgram

/-! Where the memory of each call is in one piece, the driver and the device refine a block device that carries out each
request in one step, between its call and its return. What was written to the disk is what a later read finds there. -/

namespace TetraOS.Drivers.Virtqueue

open Relation Library.ByteMemory Library.Simulation

structure Store where
  memory : Memory
  disk : ℕ → UInt8

def Request.Covers (r : Request) (position : ℕ) : Prop :=
  512 * r.sector ≤ position ∧ position < 512 * r.sector + r.length

instance (r : Request) (position : ℕ) : Decidable (r.Covers position) := inferInstanceAs (Decidable (_ ∧ _))

def Request.apply (r : Request) (t : Store) : Store :=
  if r.type = 0 then
    { t with memory := fun x => if r.buffer ≤ x ∧ x < r.buffer + r.length then t.disk (512 * r.sector + (x - r.buffer))
        else t.memory x }
  else
    { t with disk := fun p => if r.Covers p then t.memory (r.buffer + (p - 512 * r.sector)) else t.disk p }

def Request.answer (r : Request) (v : UInt8) (t : Store) : Store :=
  { t with memory := Function.update t.memory r.status v }

inductive Progress where
  | called
  | executed

structure Atomic where
  store : Store
  call : Option (Request × Progress)
  log : List Request

inductive AtomicStep : Atomic → Atomic → Prop
  | other {a} (memory : Memory) : a.call = none → AtomicStep a { a with store := { a.store with memory := memory } }
  | call {a} (r : Request) : a.call = none → AtomicStep a { a with call := some (r, .called) }
  | execute {a} (r : Request) (v : UInt8) : a.call = some (r, .called) → v ∈ ({0, 1, 2} : Set UInt8) →
      AtomicStep a ⟨r.answer v (r.apply a.store), some (r, .executed), a.log ++ [r]⟩
  | finish {a} (r : Request) : a.call = some (r, .executed) → AtomicStep a { a with call := none }

def System.store (s : System) : Store := ⟨s.shared.bytes, s.disk⟩

def Driver.request (l : Layout) : Driver → Option Request
  | .idle => none
  | .preparing _ _ => none
  | .notifying c => some (c.asRequest l)
  | .waiting c => some (c.asRequest l)

def Phase.done : Phase → ℕ
  | .transferring _ _ _ _ done => done
  | _ => 0

section Refinement

variable (l : Layout)

/-- A request that is in the hands of the device has been called, and its first bytes have moved. One that the device
has answered is executed. -/
inductive Under (r : Request) (s : System) (a : Atomic) : Prop
  | waiting : s.executed ≠ s.issued → a.call = some (r, .called) →
      s.store = { r with length := s.phase.done }.apply a.store → Under r s a
  | answered : s.executed = s.issued → a.call = some (r, .executed) → s.store = a.store → Under r s a

def Agrees (s : System) (a : Atomic) : Driver → Prop
  | .idle => a.call = none ∧ s.store = a.store
  | .preparing _ _ => a.call = none ∧ s.store = a.store
  | .notifying c => Under (c.asRequest l) s a
  | .waiting c => Under (c.asRequest l) s a

structure Refines (s : System) (a : Atomic) : Prop where
  inv : Inv l s
  log : a.log = s.executed
  agrees : Agrees l s a s.driver

end Refinement

section Steps

variable {l : Layout} {c : Call} {s s' : System} {a : Atomic} {r : Request} {t : Store}

lemma apply_zero : { r with length := 0 }.apply t = t := by
  rw [Request.apply]
  split
  · congr 1
    funext x
    exact if_neg (by dsimp only; omega)
  · congr 1
    funext p
    exact if_neg fun h => by
      obtain ⟨h₁, h₂⟩ := h
      dsimp only at h₁ h₂
      omega

lemma covers_succ (r : Request) (n p : ℕ) : { r with length := n + 1 }.Covers p ↔
    p = 512 * r.sector + n ∨ { r with length := n }.Covers p := by
  simp only [Request.Covers]
  omega

lemma apply_succ {n : ℕ} (h : s.store = { r with length := n }.apply t) :
    (s.moveByte r.type (r.buffer + n) (512 * r.sector + n)).store = { r with length := n + 1 }.apply t := by
  rw [Request.apply] at h ⊢
  rw [System.moveByte]
  dsimp only at h ⊢
  split_ifs at h ⊢ with htype
  · obtain ⟨hmemory, hdisk⟩ := Store.mk.inj h
    rw [System.store, Store.mk.injEq]
    refine ⟨funext fun x => ?_, hdisk⟩
    have hx := congrFun hmemory x
    dsimp only at hx ⊢
    rw [Function.update_apply, hx, hdisk]
    by_cases hlast : x = r.buffer + n
    · rw [if_pos hlast, if_pos (by omega), hlast, Nat.add_sub_cancel_left]
    · rw [if_neg hlast]
      exact if_congr (by omega) rfl rfl
  · obtain ⟨hmemory, hdisk⟩ := Store.mk.inj h
    rw [System.store, Store.mk.injEq]
    refine ⟨hmemory, funext fun p => ?_⟩
    have hp := congrFun hdisk p
    dsimp only at hp ⊢
    rw [Function.update_apply, hp, hmemory]
    by_cases hlast : p = 512 * r.sector + n
    · rw [if_pos hlast, if_pos ((covers_succ r n p).mpr (Or.inl hlast)), hlast, Nat.add_sub_cancel_left]
    · rw [if_neg hlast]
      exact if_congr ((covers_succ r n p).trans (or_iff_right hlast)).symm rfl rfl

lemma Initial.refines (h : Initial s) : Refines l s ⟨s.store, none, []⟩ := by
  refine ⟨h.inv, h.executed.symm, ?_⟩
  rw [h.driver]
  exact ⟨rfl, rfl⟩

lemma Refines.under (h : Refines l s a) (hdriver : s.driver = .notifying c ∨ s.driver = .waiting c) :
    Under (c.asRequest l) s a := by
  have ha := h.agrees
  rcases hdriver with hdriver | hdriver <;> rwa [hdriver] at ha

lemma Refines.inHand (h : Refines l s a) (hphase : s.phase ≠ .idle) : ∃ c, InHand l c s ∧
    a.call = some (c.asRequest l, .called) ∧
    s.store = { c.asRequest l with length := s.phase.done }.apply a.store := by
  obtain ⟨c, hc⟩ := h.inv.inHand hphase
  refine ⟨c, hc, ?_⟩
  cases h.under hc.driver with
  | waiting _ hcall hstore => exact ⟨hcall, hstore⟩
  | answered hlogs =>
    have hlen := congrArg List.length hc.logs
    rw [hlogs, List.length_append, List.length_singleton] at hlen
    omega

lemma Refines.of_under (hinv : Inv l s) (hlog : a.log = s.executed)
    (hdriver : s.driver = .notifying c ∨ s.driver = .waiting c) (hunder : Under (c.asRequest l) s a) :
    Refines l s a := by
  refine ⟨hinv, hlog, ?_⟩
  rcases hdriver with hdriver | hdriver <;> rwa [hdriver]

lemma Refines.silent (h : Refines l s a) (hinv : Inv l s')
    (hdriver : s.driver = .notifying c ∨ s.driver = .waiting c) (hsame : s'.driver = s.driver)
    (hstore : s'.store = s.store) (hissued : s'.issued = s.issued) (hexecuted : s'.executed = s.executed)
    (hdone : s'.phase.done = s.phase.done) : Refines l s' a := by
  refine Refines.of_under (c := c) hinv (hexecuted ▸ h.log) (hsame ▸ hdriver) ?_
  cases h.under hdriver with
  | waiting hlogs hcall hs =>
    exact .waiting (by rwa [hexecuted, hissued]) hcall (by rw [hstore, hdone, hs])
  | answered hlogs hcall hs => exact .answered (by rw [hexecuted, hissued, hlogs]) hcall (hstore.trans hs)

lemma follow_done (head : ℕ) (chain : List Desc) (d : Desc) : (follow head chain d).done = 0 := by
  rw [follow]
  split <;> rfl

lemma Refines.transfer (h : Refines l s a) {head done : ℕ} {header : Header} {data status : Desc}
    (hphase : s.phase = .transferring head header data status done) (hdone : done < data.len) :
    Refines l { s.moveByte header.type (data.addr + done) (512 * header.sector + done) with
      phase := .transferring head header data status (done + 1) } a := by
  obtain ⟨c, hc, hcall, hstore⟩ := h.inHand (by rw [hphase]; nofun)
  have hw := hc.working
  rw [hphase] at hw hstore
  obtain ⟨rfl, rfl, rfl, _⟩ := hw
  refine Refines.of_under (c := c) (h.inv.transfer hphase hdone) ?_ ?_ (.waiting ?_ hcall ?_)
  · exact h.log.trans (moveByte_executed _ _ _ _).symm
  · rw [moveByte_driver]
    exact hc.driver
  · rw [moveByte_executed, moveByte_issued, ← hc.logs]
    exact fun heq => absurd (congrArg List.length heq) (by simp)
  · rw [hc.prepared.secondAddr]
    exact apply_succ hstore

lemma answer_store (v : UInt8) : (c.asRequest l).answer v s.store =
    ⟨Function.update s.shared.bytes (c.statusAddr l) v, s.disk⟩ := rfl

lemma Refines.answer (h : Refines l s a) (written : ℕ) {head : ℕ} {v : UInt8} {header : Header} {data status : Desc}
    (hphase : s.phase = .transferring head header data status data.len) (hv : v ∈ ({0, 1, 2} : Set UInt8)) :
    ∃ a', ReflTransGen AtomicStep a a' ∧ Refines l { s with
      phase := .idle,
      shared := { s.shared with bytes := Function.update s.shared.bytes status.addr v },
      unpublished := s.unpublished ++ [⟨head, written⟩],
      executed := s.executed ++ [⟨header.type, header.sector, data.addr, data.len, status.addr⟩] } a' := by
  obtain ⟨c, hc, hcall, hstore⟩ := h.inHand (by rw [hphase]; nofun)
  have hinv : Inv l { s with
      phase := .idle,
      shared := { s.shared with bytes := Function.update s.shared.bytes status.addr v },
      unpublished := s.unpublished ++ [⟨head, written⟩],
      executed := s.executed ++ [⟨header.type, header.sector, data.addr, data.len, status.addr⟩] } :=
    h.inv.answer hphase hv
  have hw := hc.working
  rw [hphase] at hw hstore
  obtain ⟨rfl, rfl, rfl, _⟩ := hw
  have hrequest : (⟨c.type, c.sector, (s.shared.desc 1).addr, (s.shared.desc 1).len, (s.shared.desc 2).addr⟩ :
      Request) = c.asRequest l := by
    rw [hc.prepared.secondAddr, hc.prepared.secondLen, hc.prepared.thirdAddr]
    rfl
  refine ⟨_, .single (.execute _ v hcall hv), Refines.of_under (c := c) hinv ?_ hc.driver (.answered ?_ rfl ?_)⟩
  · dsimp only
    rw [hrequest, h.log]
  · dsimp only
    rw [hrequest, hc.logs]
  · rw [Phase.done, hc.prepared.secondLen] at hstore
    rw [hc.prepared.thirdAddr]
    have hanswer := congrArg ((c.asRequest l).answer v) hstore
    rw [answer_store] at hanswer
    exact hanswer

lemma refines_simulates (l : Layout) : Simulates (WholeStep l) AtomicStep (Refines l) := by
  intro s s' a h hstep
  have hinv := h.inv.step hstep
  have ha := h.agrees
  obtain ⟨hstep, _⟩ := hstep
  cases hstep with
  | refuse c hdriver hc => exact ⟨a, h, .refl⟩
  | call c hdriver hc hsector hlength =>
    rw [hdriver] at ha
    exact ⟨a, ⟨hinv, h.log, ha⟩, .refl⟩
  | other bytes hdriver =>
    rw [hdriver] at ha
    refine ⟨{ a with store := { a.store with memory := bytes } }, ⟨hinv, h.log, ?_⟩, .single (.other bytes ha.1)⟩
    dsimp only
    rw [hdriver]
    exact ⟨ha.1, congrArg (fun t : Store => { t with memory := bytes }) ha.2⟩
  | store c w todo hdriver =>
    rw [hdriver] at ha
    exact ⟨{ a with store := { a.store with memory := (w s.shared).bytes } },
      ⟨hinv, h.log, ha.1, congrArg (fun t : Store => { t with memory := (w s.shared).bytes }) ha.2⟩,
      .single (.other (w s.shared).bytes ha.1)⟩
  | available c hdriver =>
    rw [hdriver] at ha
    have hp := h.inv.preparing hdriver
    refine ⟨{ a with call := some (c.asRequest l, .called) }, ⟨hinv, h.log, .waiting ?_ rfl ?_⟩,
      .single (.call (c.asRequest l) ha.1)⟩
    · dsimp only
      rw [← hp.logs]
      exact fun heq => absurd (congrArg List.length heq) (by simp)
    · rw [show Phase.done _ = 0 from congrArg Phase.done hp.phase, apply_zero]
      exact ha.2
  | notify c hdriver =>
    refine ⟨a, Refines.of_under hinv h.log (Or.inr rfl) ?_, .refl⟩
    cases h.under (Or.inl hdriver) with
    | waiting hlogs hcall hs => exact .waiting hlogs hcall hs
    | answered hlogs hcall hs => exact .answered hlogs hcall hs
  | finish c hdriver hstatus =>
    obtain ⟨_, _, hlogs, _⟩ := h.inv.finish hdriver hstatus
    cases h.under (Or.inr hdriver) with
    | waiting hne => exact absurd hlogs hne
    | answered _ hcall hs => exact ⟨{ a with call := none }, ⟨hinv, h.log, rfl, hs⟩, .single (.finish _ hcall)⟩
  | take hphase hcounter =>
    obtain ⟨c, hdriver, _⟩ := h.inv.active (Or.inr hcounter)
    exact ⟨a, h.silent hinv hdriver rfl rfl rfl rfl (by rw [hphase]; rfl), .refl⟩
  | readDesc head chain next hphase =>
    obtain ⟨c, hc, _⟩ := h.inHand (by rw [hphase]; nofun)
    refine ⟨a, h.silent hinv hc.driver rfl rfl rfl rfl ?_, .refl⟩
    dsimp only
    rw [hphase, follow_done]
    rfl
  | readHeader head d₀ d₁ d₂ hphase =>
    obtain ⟨c, hc, _⟩ := h.inHand (by rw [hphase]; nofun)
    exact ⟨a, h.silent hinv hc.driver rfl rfl rfl rfl (by rw [hphase]; rfl), .refl⟩
  | transfer head header data status done hphase hdone => exact ⟨a, h.transfer hphase hdone, .refl⟩
  | overwrite head header data status done desc idx ring hphase hdone htype hqueue =>
    exact absurd hqueue (h.inv.not_overwrite hphase hdone)
  | answer head header data status v written hphase hv =>
    obtain ⟨a', hrun, h'⟩ := h.answer written hphase hv
    exact ⟨a', h', hrun⟩
  | use e rest hrest =>
    refine ⟨a, ⟨hinv, h.log, ?_⟩, .refl⟩
    dsimp only
    cases hdriver : s.driver with
    | idle => rwa [hdriver] at ha
    | preparing c todo => rwa [hdriver] at ha
    | notifying c =>
      cases h.under (Or.inl hdriver) with
      | waiting hlogs hcall hs => exact .waiting hlogs hcall hs
      | answered hlogs hcall hs => exact .answered hlogs hcall hs
    | waiting c =>
      cases h.under (Or.inr hdriver) with
      | waiting hlogs hcall hs => exact .waiting hlogs hcall hs
      | answered hlogs hcall hs => exact .answered hlogs hcall hs

def Atomic.partly (a : Atomic) (n : ℕ) : Store :=
  match a.call with
  | some (r, .called) => { r with length := n }.apply a.store
  | _ => a.store

lemma Refines.store (h : Refines l s a) : s.store = a.partly s.phase.done := by
  have ha := h.agrees
  have hunder : ∀ c : Call, Under (c.asRequest l) s a → s.store = a.partly s.phase.done := by
    intro c hc
    cases hc with
    | waiting _ hcall hs => rw [Atomic.partly, hcall, hs]
    | answered _ hcall hs => rw [Atomic.partly, hcall, hs]
  cases hdriver : s.driver with
  | idle =>
    rw [hdriver] at ha
    rw [Atomic.partly, ha.1, ha.2]
  | preparing c todo =>
    rw [hdriver] at ha
    rw [Atomic.partly, ha.1, ha.2]
  | notifying c => exact hunder c (h.under (Or.inl hdriver))
  | waiting c => exact hunder c (h.under (Or.inr hdriver))

lemma Refines.request (h : Refines l s a) : a.call.map Prod.fst = s.driver.request l := by
  have ha := h.agrees
  have hunder : ∀ c : Call, Under (c.asRequest l) s a → a.call.map Prod.fst = some (c.asRequest l) := by
    intro c hc
    cases hc with
    | waiting _ hcall => rw [hcall, Option.map_some]
    | answered _ hcall => rw [hcall, Option.map_some]
  cases hdriver : s.driver with
  | idle =>
    rw [hdriver] at ha
    rw [ha.1, Option.map_none, Driver.request]
  | preparing c todo =>
    rw [hdriver] at ha
    rw [ha.1, Option.map_none, Driver.request]
  | notifying c => exact hunder c (h.under (Or.inl hdriver))
  | waiting c => exact hunder c (h.under (Or.inr hdriver))

lemma Refines.returned (h : Refines l s a) (hreturn : Returns l c s s') : s.executed = s.issued ∧
    a.call = some (c.asRequest l, .executed) ∧ s.store = a.store ∧ Moved l c s c.length := by
  have hstatus := status_of_returns hreturn
  obtain ⟨_, hwaiting, _⟩ := hreturn
  obtain ⟨_, _, hlogs, _, hmoved⟩ := h.inv.finish hwaiting hstatus
  cases h.under (Or.inr hwaiting) with
  | waiting hne => exact absurd hlogs hne
  | answered _ hcall hs => exact ⟨hlogs, hcall, hs, hmoved⟩

lemma store_of_returns (h : Returns l c s s') : s'.store = s.store := by
  obtain ⟨hstep, hwaiting, hidle⟩ := h
  cases hstep with
  | finish c' hdriver hstatus => rfl
  | transfer =>
    rw [moveByte_driver, hwaiting] at hidle
    exact Driver.noConfusion hidle
  | _ => simp_all

end Steps

section Disk

variable {a a' : Atomic} {p : ℕ}

lemma apply_disk {r : Request} (t : Store) (h : r.type = 0 ∨ ¬ r.Covers p) : (r.apply t).disk p = t.disk p := by
  rw [Request.apply]
  split_ifs with htype
  · rfl
  · exact if_neg (h.resolve_left htype)

lemma atomic_disk (hrun : ReflTransGen AtomicStep a a') : ∃ later, a'.log = a.log ++ later ∧
    ∀ p, (∀ r ∈ later, r.type = 0 ∨ ¬ r.Covers p) → a'.store.disk p = a.store.disk p := by
  induction hrun with
  | refl => exact ⟨[], (List.append_nil _).symm, fun _ _ => rfl⟩
  | tail _ hstep ih =>
    obtain ⟨later, hlog, hdisk⟩ := ih
    cases hstep with
    | other memory => exact ⟨later, hlog, hdisk⟩
    | call r => exact ⟨later, hlog, hdisk⟩
    | execute r v =>
      refine ⟨later ++ [r], by rw [hlog, List.append_assoc], fun p hp => ?_⟩
      rw [Request.answer, apply_disk _ (hp r (by simp))]
      exact hdisk p fun q hq => hp q (List.mem_append_left _ hq)
    | finish r => exact ⟨later, hlog, hdisk⟩

end Disk

section Witnesses

end Witnesses

end TetraOS.Drivers.Virtqueue
