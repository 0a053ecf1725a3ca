import ArmOS.Runs
import ArmOS.Words

/-!
The address-space identifiers of `arch/arm64/mmu/user_vm.c`. A space holds a slot of
the hardware's 256 with the generation it was taken in; in a new generation only the
spaces running on a CPU keep theirs.
-/
namespace ArmOS.Asid
open Words Runs Function List Nat

def ARM64_ASID_COUNT : Nat := 256

/-- Pool, spaces and registers; `asid` is 0 for no space. -/
structure Pool where
  cpus : Nat
  bitmap : Nat → Bool
  slot_generation : Nat → Nat
  generation : Nat
  residency : Nat → Nat → Nat × Nat
  active_vm : Nat → Option Nat
  ttbr0 : Nat → Nat × Nat
  asid : Nat → Nat
  tlb_generation : Nat → Nat
  (next_tlb_generation tlb_flush_count tlb_preserve_count spaces : Nat)

/-- The address of a space's first table, which is never 0. -/
def table (vm : Nat) : Nat := vm + 1

def boot (cpus : Nat) : Pool where
  cpus := cpus
  bitmap := fun _ => false
  slot_generation := fun _ => 0
  generation := 1
  residency := fun _ _ => (0,0)
  active_vm := fun _ => none
  ttbr0 := fun _ => (0,0)
  asid := fun _ => 0
  tlb_generation := fun _ => 0
  next_tlb_generation := 1
  tlb_flush_count := 0
  tlb_preserve_count := 0
  spaces := 0

def arm64_asid_hw (asid : Nat) : Nat := asid % ARM64_ASID_COUNT

/-- `(generation << 8) | hw` in 32 bits. -/
def arm64_asid_make (generation hardware_asid : Nat) : Nat := wrap32 (generation * 256) + arm64_asid_hw hardware_asid
def find_slot (bitmap : Nat → Bool) : Nat → Nat → Option Nat
  | 0, _ => none
  | rest + 1, asid => if bitmap asid then find_slot bitmap rest (asid + 1) else some asid

def claim_slot (p : Pool) (asid : Nat) : Pool × Nat :=
  ({ p with
    bitmap := update p.bitmap asid true
    slot_generation := update p.slot_generation asid p.generation },
   arm64_asid_make p.generation asid)

/-- The slot of the space on one CPU is kept. -/
def reserve_active (p : Pool) (cpu : Nat) : Pool :=
  match p.active_vm cpu with
  | none => p
  | some active =>
    let hardware_asid := arm64_asid_hw (p.asid active)
    if hardware_asid = 0 then p
    else
      { p with
        bitmap := update p.bitmap hardware_asid true
        slot_generation := update p.slot_generation hardware_asid p.generation
        asid := update p.asid active (arm64_asid_make p.generation hardware_asid) }

/-- The pool with everything given back, in the generation after. -/
def clear_pool (p : Pool) : Pool :=
  let generation := wrap32 (p.generation + 1)
  { p with
    generation := if generation = 0 then 1 else generation
    bitmap := fun _ => false
    slot_generation := fun _ => 0
    residency := fun _ _ => (0,0) }

def rollover (p : Pool) : Pool := (List.range p.cpus).foldl reserve_active (clear_pool p)

/-- `allocate_asid_locked`: 0 where running spaces take all slots. -/
def allocate_asid_locked (p : Pool) : Pool × Nat :=
  match find_slot p.bitmap (ARM64_ASID_COUNT - 1) 1 with
  | some asid => claim_slot p asid
  | none =>
    let p := rollover p
    match find_slot p.bitmap (ARM64_ASID_COUNT - 1) 1 with
    | some asid => claim_slot p asid
    | none => (p,0)

def release_asid_locked (p : Pool) (asid : Nat) : Pool :=
  let hardware_asid := arm64_asid_hw asid
  if 0 < hardware_asid ∧ p.slot_generation hardware_asid = asid / 256 then
    { p with
      bitmap := update p.bitmap hardware_asid false
      slot_generation := update p.slot_generation hardware_asid 0
      residency := fun cpu => update (p.residency cpu) hardware_asid (0,0) }
  else p

def allocate_tlb_generation (p : Pool) : Pool × Nat :=
  let generation := p.next_tlb_generation
  let p := { p with next_tlb_generation := wrap32 (p.next_tlb_generation + 1) }
  if generation = 0 then
    let generation := p.next_tlb_generation
    ({ p with next_tlb_generation := wrap32 (p.next_tlb_generation + 1) },if generation = 0 then 1 else generation)
  else (p,generation)

/-- `arm64_user_vm_init`; `paged` is whether it got its table. -/
def arm64_user_vm_init (p : Pool) (paged : Bool) : Pool × Int :=
  let (p,asid) := allocate_asid_locked p
  if asid = 0 then (p,-2)
  else if paged = false then (release_asid_locked p asid,-3)
  else
    let (p,tlb_generation) := allocate_tlb_generation p
    ({ p with
      asid := update p.asid p.spaces asid
      tlb_generation := update p.tlb_generation p.spaces tlb_generation
      spaces := p.spaces + 1 },0)

/-- The table register is switched, with a flush where needed. -/
def switch_ttbr0 (p : Pool) (cpu vm : Nat) : Pool :=
  let hardware_asid := arm64_asid_hw (p.asid vm)
  let resident := p.residency cpu hardware_asid = (table vm,p.tlb_generation vm)
  let p :=
    if resident then { p with tlb_preserve_count := p.tlb_preserve_count + 1 }
    else
      { p with
        residency := update p.residency cpu
          (update (p.residency cpu) hardware_asid (table vm,p.tlb_generation vm))
        tlb_flush_count := p.tlb_flush_count + 1 }
  { p with
    ttbr0 := update p.ttbr0 cpu (table vm,hardware_asid)
    active_vm := update p.active_vm cpu (some vm) }

def arm64_user_vm_activate (p : Pool) (cpu vm : Nat) : Pool × Int :=
  if p.asid vm = 0 then (p,-1)
  else if p.cpus ≤ cpu then (p,-2)
  else if p.asid vm / 256 ≠ p.generation then
    let (p,refreshed_asid) := allocate_asid_locked p
    if refreshed_asid = 0 then (p,-3)
    else (switch_ttbr0 { p with asid := update p.asid vm refreshed_asid } cpu vm,0)
  else (switch_ttbr0 p cpu vm,0)

def arm64_user_vm_deactivate_cpu (p : Pool) (cpu : Nat) : Pool :=
  if p.cpus ≤ cpu then p else { p with active_vm := update p.active_vm cpu none }

/-- `arm64_user_vm_destroy`, which looks at its own CPU's register only. -/
def arm64_user_vm_destroy (p : Pool) (cpu vm : Nat) : Pool × Int :=
  if p.asid vm = 0 then (p,-1)
  else if (p.ttbr0 cpu).1 = table vm then (p,-2)
  else
    let p := release_asid_locked p (p.asid vm)
    ({ p with asid := update p.asid vm 0 },0)

/-! ### Runs -/

inductive Op
  | init (paged : Bool)
  | activate (cpu vm : Nat)
  | deactivate (cpu : Nat)
  | destroy (cpu vm : Nat)
deriving DecidableEq, Repr

def step (p : Pool) : Op → Pool
  | .init paged => (arm64_user_vm_init p paged).1
  | .activate cpu vm => (arm64_user_vm_activate p cpu vm).1
  | .deactivate cpu => arm64_user_vm_deactivate_cpu p cpu
  | .destroy cpu vm => (arm64_user_vm_destroy p cpu vm).1

/-- The space destroyed runs nowhere; the next generation has 24 bits. -/
def Careful (p : Pool) : Op → Prop
  | .destroy _ vm => ∀ cpu, cpu < p.cpus → p.active_vm cpu ≠ some vm
  | .deactivate _ => True
  | _ => p.generation + 1 < 2 ^ 24

instance (p : Pool) : (op : Op) → Decidable (Careful p op)
  | .destroy _ vm => inferInstanceAs (Decidable (∀ cpu, cpu < p.cpus → p.active_vm cpu ≠ some vm))
  | .init _ => inferInstanceAs (Decidable (p.generation + 1 < 2 ^ 24))
  | .activate _ _ => inferInstanceAs (Decidable (p.generation + 1 < 2 ^ 24))
  | .deactivate _ => inferInstanceAs (Decidable True)

/-! ### The invariant -/

/-- Spaces of the generation hold different slots; running ones are of it and in their registers. -/
structure Sound (p : Pool) : Prop where
  generation_pos : 0 < p.generation
  generation_lt : p.generation < 2 ^ 24
  slots : ∀ h, p.slot_generation h = 0 ∨ p.slot_generation h = p.generation
  alive : ∀ vm, p.asid vm ≠ 0 → p.asid vm % 256 ≠ 0 ∧ 0 < p.asid vm / 256 ∧ p.asid vm / 256 ≤ p.generation
  held : ∀ vm, p.asid vm ≠ 0 → p.asid vm / 256 = p.generation → p.bitmap (p.asid vm % 256) = true
  distinct : ∀ vm other, p.asid vm ≠ 0 → p.asid other ≠ 0 → p.asid vm / 256 = p.generation →
    p.asid other / 256 = p.generation → p.asid vm % 256 = p.asid other % 256 → vm = other
  active : ∀ cpu, cpu < p.cpus → ∀ vm, p.active_vm cpu = some vm →
    p.asid vm ≠ 0 ∧ p.asid vm / 256 = p.generation ∧ p.ttbr0 cpu = (table vm,p.asid vm % 256)
  fresh : ∀ vm, p.spaces ≤ vm → p.asid vm = 0

theorem boot_sound (cpus : Nat) : Sound (boot cpus) := by
  constructor <;> simp [boot]

theorem find_slot_some {bitmap : Nat → Bool} {rest asid h : Nat} (found : find_slot bitmap rest asid = some h) :
    asid ≤ h ∧ h < asid + rest ∧ bitmap h = false := by
  induction rest generalizing asid with
  | zero => cases found
  | succ rest ih =>
    simp only [find_slot] at found
    grind

/-- A generation below 24 bits is read back. -/
theorem asid_make_parts {generation : Nat} (small : generation < 2 ^ 24) (h : Nat) :
    arm64_asid_make generation h / 256 = generation ∧ arm64_asid_make generation h % 256 = h % 256 := by
  unfold arm64_asid_make wrap32 arm64_asid_hw ARM64_ASID_COUNT
  omega

/-- An allocated value: marked, and held by no space of the generation. -/
structure Granted (p : Pool) (asid : Nat) : Prop where
  slot : asid % 256 ≠ 0
  generation : asid / 256 = p.generation
  marked : p.bitmap (asid % 256) = true
  own : ∀ vm, p.asid vm ≠ 0 → p.asid vm / 256 = p.generation → p.asid vm % 256 ≠ asid % 256

def SameSpaces (p q : Pool) : Prop :=
  q.cpus = p.cpus ∧ q.active_vm = p.active_vm ∧ q.ttbr0 = p.ttbr0 ∧ q.spaces = p.spaces ∧
    ∀ vm, q.asid vm ≠ 0 ↔ p.asid vm ≠ 0

variable {p : Pool}

theorem Sound.claim_slot (sound : Sound p) {h : Nat} (positive : 0 < h) (small : h < 256) (free : p.bitmap h = false) :
    Sound (claim_slot p h).1 ∧ Granted (claim_slot p h).1 (claim_slot p h).2 ∧ SameSpaces p (claim_slot p h).1 := by
  have parts := asid_make_parts sound.generation_lt h
  have slotIs : h % 256 = h := mod_eq_of_lt small
  refine ⟨?_,?_,rfl,rfl,rfl,rfl,fun _ => Iff.rfl⟩
  · refine { sound with slots := ?_, held := ?_ }
    · intro i
      by_cases own : i = h
      · subst own
        exact .inr (by simp [Asid.claim_slot])
      · simpa [Asid.claim_slot,update_of_ne own] using sound.slots i
    intro vm exists_ current
    have marked := sound.held vm exists_ current
    by_cases own : p.asid vm % 256 = h
    · simp [Asid.claim_slot,own]
    · simpa [Asid.claim_slot,update_of_ne own] using marked
  refine ⟨?_,parts.1,?_,?_⟩
  · show arm64_asid_make p.generation h % 256 ≠ 0
    rw [parts.2,slotIs]
    omega
  · show update p.bitmap h true (arm64_asid_make p.generation h % 256) = true
    rw [parts.2,slotIs,update_self]
  intro vm exists_ current shared
  have marked := sound.held vm exists_ current
  have same : p.asid vm % 256 = h := by
    rw [← slotIs,← parts.2]
    exact shared
  rw [same,free] at marked
  cases marked

/-! ### A new generation -/

/-- The loop over the CPUs after `done`; `p` is the cleared pool. -/
structure Reserved (p : Pool) (done : Nat → Prop) (q : Pool) : Prop where
  generation : q.generation = p.generation
  cpus : q.cpus = p.cpus
  active_vm : q.active_vm = p.active_vm
  ttbr0 : q.ttbr0 = p.ttbr0
  spaces : q.spaces = p.spaces
  slots : ∀ h, q.slot_generation h = 0 ∨ q.slot_generation h = p.generation
  moved : ∀ cpu vm, done cpu → p.active_vm cpu = some vm →
    q.asid vm = arm64_asid_make p.generation (p.asid vm) ∧ q.bitmap (p.asid vm % 256) = true
  kept : ∀ vm, (∀ cpu, done cpu → p.active_vm cpu ≠ some vm) → q.asid vm = p.asid vm

variable {done : Nat → Prop}

/-- A space's slot is the same before and after the loop. -/
theorem Reserved.slot {p q : Pool} (reserved : Reserved p done q) (small : p.generation < 2 ^ 24)
    (vm : Nat) : q.asid vm % 256 = p.asid vm % 256 := by
  by_cases seen : ∃ cpu, done cpu ∧ p.active_vm cpu = some vm
  · obtain ⟨cpu,finished,running⟩ := seen
    rw [(reserved.moved cpu vm finished running).1]
    exact (asid_make_parts small _).2
  · rw [reserved.kept vm (fun cpu finished running => seen ⟨cpu,finished,running⟩)]

theorem Reserved.next {p q : Pool} {cpu : Nat} (reserved : Reserved p done q)
    (small : p.generation < 2 ^ 24) (nonzero : ∀ vm, p.active_vm cpu = some vm → p.asid vm % 256 ≠ 0) :
    Reserved p (fun c => done c ∨ c = cpu) (reserve_active q cpu) := by
  cases running : p.active_vm cpu with
  | none =>
    have here : q.active_vm cpu = none := by rw [reserved.active_vm,running]
    simp only [reserve_active,here]
    refine { reserved with moved := ?_, kept := ?_ }
    · grind [moved]
    · intro vm idle
      exact reserved.kept vm (fun c finished => idle c (.inl finished))
  | some vm =>
    have slot := reserved.slot small vm
    have slotNonzero := nonzero vm running
    have hw : arm64_asid_hw (q.asid vm) = p.asid vm % 256 := slot
    have here : q.active_vm cpu = some vm := by rw [reserved.active_vm,running]
    simp only [reserve_active,here,hw,if_neg slotNonzero]
    have value : arm64_asid_make q.generation (p.asid vm % 256) = arm64_asid_make p.generation (p.asid vm) := by
      rw [reserved.generation]
      unfold arm64_asid_make arm64_asid_hw ARM64_ASID_COUNT
      rw [mod_mod]
    refine { reserved with slots := ?_, moved := ?_, kept := ?_ }
    · grind [generation,slots]
    · grind [moved]
    intro other idle
    have different : other ≠ vm := by
      rintro rfl
      exact idle cpu (.inr rfl) running
    simpa [update_of_ne different] using reserved.kept other (fun c finished => idle c (.inl finished))

theorem Reserved.fold (small : p.generation < 2 ^ 24) (cpus : List Nat)
    (nonzero : ∀ cpu ∈ cpus, ∀ vm, p.active_vm cpu = some vm → p.asid vm % 256 ≠ 0) {q : Pool}
    (reserved : Reserved p done q) : Reserved p (fun c => done c ∨ c ∈ cpus) (cpus.foldl reserve_active q) := by
  induction cpus generalizing q done with
  | nil => simpa using reserved
  | cons cpu rest ih =>
    have after := ih (fun c member => nonzero c (by simp [member])) (reserved.next small (nonzero cpu (by simp)))
    have same : (fun c => (done c ∨ c = cpu) ∨ c ∈ rest) = fun c => done c ∨ c ∈ cpu :: rest := by
      funext c
      simp [or_assoc]
    rw [same] at after
    exact after

/-- A rollover keeps the slots of running spaces only. -/
theorem Sound.rollover (sound : Sound p) (more : p.generation + 1 < 2 ^ 24) :
    Sound (rollover p) ∧ SameSpaces p (rollover p) := by
  have next : wrap32 (p.generation + 1) = p.generation + 1 := wrap32_of_lt (by omega)
  have generation : (clear_pool p).generation = p.generation + 1 := by
    simp [clear_pool,next]
  have nonzero : ∀ cpu ∈ range p.cpus, ∀ vm, (clear_pool p).active_vm cpu = some vm →
      (clear_pool p).asid vm % 256 ≠ 0 := by
    intro cpu member vm running
    exact (sound.alive vm (sound.active cpu (mem_range.mp member) vm running).1).1
  have start : Reserved (clear_pool p) (fun _ => False) (clear_pool p) :=
    ⟨rfl,rfl,rfl,rfl,rfl,fun _ => .inl rfl,by simp,fun _ _ => rfl⟩
  have after := Reserved.fold (by omega) (range p.cpus) nonzero start
  simp only [false_or,mem_range] at after
  change Reserved (clear_pool p) (fun c => c < p.cpus) (Asid.rollover p) at after
  set q := Asid.rollover p with qIs
  have slot := after.slot (by omega)
  -- A space is either running, and then moved to the new generation, or left in an old one.
  have cases : ∀ vm, (∃ cpu, cpu < p.cpus ∧ p.active_vm cpu = some vm ∧
      q.asid vm / 256 = p.generation + 1 ∧ q.bitmap (p.asid vm % 256) = true) ∨ q.asid vm = p.asid vm := by
    intro vm
    by_cases running : ∃ cpu, cpu < p.cpus ∧ p.active_vm cpu = some vm
    · obtain ⟨cpu,inside,active⟩ := running
      obtain ⟨asidIs,marked⟩ := after.moved cpu vm inside active
      refine .inl ⟨cpu,inside,active,?_,marked⟩
      rw [asidIs,generation]
      exact (asid_make_parts more _).1
    · exact .inr (after.kept vm (fun cpu inside active => running ⟨cpu,inside,active⟩))
  have exists_ : ∀ vm, q.asid vm ≠ 0 ↔ p.asid vm ≠ 0 := by
    intro vm
    rcases cases vm with ⟨cpu,inside,active,current,_⟩ | kept
    · have before := (sound.active cpu inside vm active).1
      omega
    · rw [kept]
  refine ⟨?_,after.cpus,after.active_vm,after.ttbr0,after.spaces,exists_⟩
  have generationIs : q.generation = p.generation + 1 := after.generation.trans generation
  have old : ∀ vm, p.asid vm ≠ 0 → q.asid vm / 256 = q.generation →
      ∃ cpu, cpu < p.cpus ∧ p.active_vm cpu = some vm ∧ q.bitmap (p.asid vm % 256) = true := by
    intro vm alive current
    rcases cases vm with ⟨cpu,inside,active,_,marked⟩ | kept
    · exact ⟨cpu,inside,active,marked⟩
    have := (sound.alive vm alive).2.2
    rw [kept] at current
    omega
  constructor
  · omega
  · omega
  · intro h
    rw [after.generation]
    exact after.slots h
  · intro vm alive
    have before := sound.alive vm ((exists_ vm).mp alive)
    refine ⟨by rw [slot vm]; exact before.1,?_⟩
    grind
  · intro vm alive current
    obtain ⟨_,_,_,marked⟩ := old vm ((exists_ vm).mp alive) current
    rw [slot vm]
    exact marked
  · intro vm other alive aliveOther current currentOther shared
    obtain ⟨cpu,inside,active,_⟩ := old vm ((exists_ vm).mp alive) current
    obtain ⟨cpu',inside',active',_⟩ := old other ((exists_ other).mp aliveOther) currentOther
    have first := sound.active cpu inside vm active
    have second := sound.active cpu' inside' other active'
    rw [slot vm,slot other] at shared
    exact sound.distinct vm other first.1 second.1 first.2.1 second.2.1 shared
  · intro cpu inside vm active
    rw [after.cpus] at inside
    rw [after.active_vm] at active
    have before := sound.active cpu inside vm active
    obtain ⟨asidIs,_⟩ := after.moved cpu vm inside active
    refine ⟨(exists_ vm).mpr before.1,?_,?_⟩
    · rw [asidIs,generation,generationIs]
      exact (asid_make_parts more _).1
    rw [after.ttbr0,slot vm]
    exact before.2.2
  intro vm high
  rw [after.spaces] at high
  by_contra alive
  exact (exists_ vm).mp alive (sound.fresh vm high)

/-! ### The calls -/

section
variable {p : Pool}

section
variable (sound : Sound p)
include sound

theorem Sound.allocate (more : p.generation + 1 < 2 ^ 24) :
    Sound (allocate_asid_locked p).1 ∧ SameSpaces p (allocate_asid_locked p).1 ∧
      ((allocate_asid_locked p).2 ≠ 0 → Granted (allocate_asid_locked p).1 (allocate_asid_locked p).2) := by
  unfold allocate_asid_locked
  split
  · rename_i h found
    obtain ⟨low,high,free⟩ := find_slot_some found
    obtain ⟨after,granted,same⟩ := sound.claim_slot low (by unfold ARM64_ASID_COUNT at high; omega) free
    exact ⟨after,same,fun _ => granted⟩
  obtain ⟨rolled,same⟩ := sound.rollover more
  dsimp only
  split
  · rename_i h found
    obtain ⟨low,high,free⟩ := find_slot_some found
    obtain ⟨after,granted,same'⟩ := rolled.claim_slot low (by unfold ARM64_ASID_COUNT at high; omega) free
    refine ⟨after,?_,fun _ => granted⟩
    obtain ⟨a,b,c,d,e⟩ := same
    obtain ⟨a',b',c',d',e'⟩ := same'
    exact ⟨a'.trans a,b'.trans b,c'.trans c,d'.trans d,fun vm => (e' vm).trans (e vm)⟩
  · exact ⟨rolled,same,fun nonzero => absurd rfl nonzero⟩

theorem Sound.assign {asid vm spaces : Nat} (granted : Granted p asid)
    (idle : ∀ cpu, cpu < p.cpus → p.active_vm cpu ≠ some vm) (named : vm < spaces) (more : p.spaces ≤ spaces) :
    Sound { p with asid := update p.asid vm asid, spaces := spaces } := by
  have nonzero : asid ≠ 0 := by
    rintro rfl
    exact granted.slot rfl
  have own : ∀ other, other ≠ vm → update p.asid vm asid other = p.asid other :=
    fun other different => update_of_ne different _ _
  have itself : update p.asid vm asid vm = asid := update_self _ _ _
  have positive := sound.generation_pos
  refine { sound with alive := ?_, held := ?_, distinct := ?_, active := ?_, fresh := ?_ }
  · intro other alive
    by_cases same : other = vm
    · subst same
      simp only [itself] at alive ⊢
      have := granted.generation
      exact ⟨granted.slot,by omega,by omega⟩
    simp only [own other same] at alive ⊢
    exact sound.alive other alive
  · grind [Granted.marked,held]
  · intro first second alive alive' current current' shared
    by_cases same : first = vm
    · by_cases same' : second = vm
      · rw [same,same']
      · grind [Granted.own]
    · grind [distinct,Granted.own]
  · grind [active]
  intro other high
  have different : other ≠ vm := by
    simp only at high
    omega
  simp only [own other different]
  exact sound.fresh other (by simp only at high; omega)

theorem Sound.remove {vm : Nat} (idle : ∀ cpu, cpu < p.cpus → p.active_vm cpu ≠ some vm) :
    Sound { p with asid := update p.asid vm 0 } := by
  have gone : ∀ other, update p.asid vm 0 other ≠ 0 → other ≠ vm := by
    rintro other alive rfl
    exact alive (update_self _ _ _)
  have own : ∀ other, other ≠ vm → update p.asid vm 0 other = p.asid other :=
    fun other different => update_of_ne different _ _
  refine { sound with alive := ?_, held := ?_, distinct := ?_, active := ?_, fresh := ?_ }
  · grind [alive]
  · grind [held]
  · grind [distinct]
  · intro cpu inside other running
    have different : other ≠ vm := by
      rintro rfl
      exact idle cpu inside running
    simp only [own other different]
    exact sound.active cpu inside other running
  intro other high
  by_cases same : other = vm
  · simp [same]
  simp only [own other same]
  exact sound.fresh other high

theorem Sound.release {asid : Nat} (positive : 0 < asid / 256)
    (unheld : asid / 256 = p.generation → ∀ vm, p.asid vm ≠ 0 → p.asid vm / 256 = p.generation →
      p.asid vm % 256 ≠ asid % 256) : Sound (release_asid_locked p asid) := by
  unfold release_asid_locked
  dsimp only
  split
  · rename_i taken
    have current : asid / 256 = p.generation := by
      rcases sound.slots (arm64_asid_hw asid) with zero | here
      · omega
      · omega
    refine { sound with slots := ?_, held := ?_ }
    · grind [slots]
    intro vm alive currentVm
    have different : p.asid vm % 256 ≠ arm64_asid_hw asid := unheld current vm alive currentVm
    simpa [update_of_ne different] using sound.held vm alive currentVm
  · exact sound

variable {cpu vm : Nat}

theorem Sound.switch_ttbr0 (alive : p.asid vm ≠ 0)
    (current : p.asid vm / 256 = p.generation) : Sound (switch_ttbr0 p cpu vm) := by
  have active : ∀ c, c < p.cpus → ∀ other, update p.active_vm cpu (some vm) c = some other →
      p.asid other ≠ 0 ∧ p.asid other / 256 = p.generation ∧
        update p.ttbr0 cpu (table vm,arm64_asid_hw (p.asid vm)) c = (table other,p.asid other % 256) := by
    intro c inside other running
    by_cases here : c = cpu
    · subst here
      rw [update_self] at running ⊢
      cases running
      exact ⟨alive,current,rfl⟩
    rw [update_of_ne here] at running ⊢
    exact sound.active c inside other running
  unfold Asid.switch_ttbr0
  dsimp only
  split <;> exact { sound with active := active }

theorem Sound.deactivate (cpu : Nat) : Sound (arm64_user_vm_deactivate_cpu p cpu) := by
  unfold arm64_user_vm_deactivate_cpu
  split
  · exact sound
  refine { sound with active := ?_ }
  grind [active]

theorem Sound.init (more : p.generation + 1 < 2 ^ 24) (paged : Bool) : Sound (arm64_user_vm_init p paged).1 := by
  obtain ⟨allocated,same,granted⟩ := sound.allocate more
  unfold arm64_user_vm_init
  dsimp only
  generalize allocate_asid_locked p = result at *
  obtain ⟨q,asid⟩ := result
  dsimp only at *
  split
  · exact allocated
  rename_i nonzero
  have value := granted nonzero
  split
  · have positive := allocated.generation_pos
    have := value.generation
    exact allocated.release (by omega) (fun _ => value.own)
  -- The new space has never run, since no space of its number exists.
  have idle : ∀ cpu, cpu < q.cpus → q.active_vm cpu ≠ some q.spaces := by
    intro cpu inside running
    exact (allocated.active cpu inside _ running).1 (allocated.fresh _ le_rfl)
  have assigned := allocated.assign value idle (lt_succ_self _) (le_succ _)
  unfold allocate_tlb_generation
  dsimp only
  split <;> exact { assigned with }

theorem Sound.activate (more : p.generation + 1 < 2 ^ 24) (cpu vm : Nat) :
    Sound (arm64_user_vm_activate p cpu vm).1 := by
  unfold arm64_user_vm_activate
  split
  · exact sound
  rename_i alive
  split
  · exact sound
  split
  · rename_i old
    obtain ⟨allocated,same,granted⟩ := sound.allocate more
    dsimp only
    generalize allocate_asid_locked p = result at *
    obtain ⟨q,asid⟩ := result
    dsimp only at *
    split
    · exact allocated
    rename_i nonzero
    have value := granted nonzero
    obtain ⟨cpus,activeSame,_,spaces,exists_⟩ := same
    -- A running space is of the current generation and takes no new value.
    have idle : ∀ c, c < q.cpus → q.active_vm c ≠ some vm := by
      intro c inside running
      rw [cpus] at inside
      rw [activeSame] at running
      exact old (sound.active c inside vm running).2.1
    have named : vm < q.spaces := by
      rw [spaces]
      by_contra beyond
      exact alive (sound.fresh vm (by omega))
    have assigned := allocated.assign value idle named le_rfl
    refine assigned.switch_ttbr0 ?_ ?_
    · simpa using nonzero
    · simpa using value.generation
  rename_i current
  exact sound.switch_ttbr0 alive (by omega)

theorem Sound.destroy (idle : ∀ c, c < p.cpus → p.active_vm c ≠ some vm) :
    Sound (arm64_user_vm_destroy p cpu vm).1 := by
  unfold arm64_user_vm_destroy
  split
  · exact sound
  rename_i alive
  split
  · exact sound
  have parts := sound.alive vm alive
  have removed := sound.remove idle
  have released := removed.release parts.2.1 (by
    grind [distinct])
  grind [release_asid_locked]

end

end

theorem step_sound (p : Pool) (op : Op) (q : Pool) (sound : Sound p) (stepped : Careful p op ∧ step p op = q) :
    Sound q := by
  obtain ⟨careful,rfl⟩ := stepped
  cases op with
  | init paged => exact sound.init careful paged
  | activate cpu vm => exact sound.activate careful cpu vm
  | deactivate cpu => exact sound.deactivate cpu
  | destroy cpu vm => exact sound.destroy careful

/-- In runs that destroy no running space and stay below 2^24 generations, running
    spaces have different identifiers, none of them 0. -/
theorem running_spaces_have_own_asid {cpus : Nat} {ops : List Op} {p : Pool}
    (run : Run (fun p op q => Careful p op ∧ step p op = q) (boot cpus) ops p) :
    (∀ cpu other vm vm', cpu < p.cpus → other < p.cpus → p.active_vm cpu = some vm → p.active_vm other = some vm' →
      vm ≠ vm' → (p.ttbr0 cpu).2 ≠ (p.ttbr0 other).2) ∧
    (∀ cpu vm, cpu < p.cpus → p.active_vm cpu = some vm → p.ttbr0 cpu = (table vm,arm64_asid_hw (p.asid vm)) ∧
      (p.ttbr0 cpu).2 ≠ 0) ∧
    (∀ vm, p.asid vm ≠ 0 → arm64_asid_hw (p.asid vm) ≠ 0) := by
  have sound : Sound p := run.invariant step_sound (boot_sound cpus)
  refine ⟨?_,?_,fun vm alive => (sound.alive vm alive).1⟩
  · intro cpu other vm vm' inside inside' running running' different shared
    obtain ⟨alive,current,register⟩ := sound.active cpu inside vm running
    obtain ⟨alive',current',register'⟩ := sound.active other inside' vm' running'
    grind [Sound.distinct]
  intro cpu vm inside running
  obtain ⟨alive,_,register⟩ := sound.active cpu inside vm running
  refine ⟨register,?_⟩
  rw [register]
  exact (sound.alive vm alive).1

theorem running_spaces_have_own_asid_sample : ∃ p,
    Run (fun p op q => Careful p op ∧ step p op = q) (boot 4) [.init true,.init true,.activate 0 0,.activate 1 1] p ∧
      p.active_vm 0 = some 0 ∧ p.active_vm 1 = some 1 ∧ (p.ttbr0 0).2 ≠ (p.ttbr0 1).2 := by
  have run : Run (fun p op q => Careful p op ∧ step p op = q) (boot 4)
      [.init true,.init true,.activate 0 0,.activate 1 1] _ :=
    .next ⟨by decide,rfl⟩ (.next ⟨by decide,rfl⟩ (.next ⟨by decide,rfl⟩ (.single ⟨by decide,rfl⟩)))
  refine ⟨_,run,rfl,rfl,?_⟩
  exact (running_spaces_have_own_asid run).1 0 1 0 1 (by decide) (by decide) rfl rfl (by decide)

/-- A space running on CPU 0 is destroyed from CPU 1; the next one gets its identifier. -/
theorem destroyed_space_shares_asid : ∃ p,
    Run (fun p op q => step p op = q) (boot 4)
      [.init true,.activate 0 0,.destroy 1 0,.init true,.activate 1 1] p ∧
      p.active_vm 0 = some 0 ∧ p.active_vm 1 = some 1 ∧ p.ttbr0 0 = (table 0,1) ∧ p.ttbr0 1 = (table 1,1) :=
  ⟨_,.next rfl (.next rfl (.next rfl (.next rfl (.single rfl)))),rfl,rfl,rfl,rfl⟩

/-! ### Generations in identifiers -/

/-- The value is of the current generation. While that lasts, activating a space that
    has the value keeps it, and releasing it frees its slot. -/
def Kept (p : Pool) (asid : Nat) : Prop :=
  asid / 256 = p.generation ∧
    (∀ q cpu vm, q.generation = p.generation → q.asid vm = asid → (arm64_user_vm_activate q cpu vm).1.asid vm = asid) ∧
    ∀ q, q.generation = p.generation → q.slot_generation (arm64_asid_hw asid) = p.slot_generation (arm64_asid_hw asid) →
      (release_asid_locked q asid).bitmap (arm64_asid_hw asid) = false

theorem switch_ttbr0_asid (p : Pool) (cpu vm : Nat) : (switch_ttbr0 p cpu vm).asid = p.asid := by
  unfold switch_ttbr0
  dsimp only
  split <;> rfl

theorem claim_slot_kept {h : Nat} (positive : 0 < h) (small : h < 256) (fits : p.generation < 2 ^ 24) :
    Kept (claim_slot p h).1 (claim_slot p h).2 := by
  obtain ⟨stored,slot⟩ := asid_make_parts fits h
  rw [mod_eq_of_lt small] at slot
  have hardware : arm64_asid_hw (arm64_asid_make p.generation h) = h := slot
  refine ⟨stored,fun q cpu vm same own => ?_,fun q same taken => ?_⟩
  · have current : q.asid vm / 256 = q.generation := by
      rw [own,same]
      exact stored
    unfold arm64_user_vm_activate
    split
    · exact own
    split
    · exact own
    rw [if_neg (not_not.mpr current),switch_ttbr0_asid]
    exact own
  · change q.slot_generation _ = update p.slot_generation h p.generation _ at taken
    dsimp only [claim_slot] at taken ⊢
    rw [hardware,update_self] at taken
    unfold release_asid_locked
    dsimp only
    rw [hardware,stored,if_pos ⟨positive,taken⟩]
    exact update_self _ _ _

/-- The generation that an allocation is made in: the pool's if a slot is free, else the next. -/
def allocation_generation (p : Pool) : Nat :=
  if (find_slot p.bitmap (ARM64_ASID_COUNT - 1) 1).isSome then p.generation else (clear_pool p).generation

theorem rollover_generation (p : Pool) : (rollover p).generation = (clear_pool p).generation := by
  unfold rollover
  generalize clear_pool p = q
  induction range p.cpus generalizing q with
  | nil => rfl
  | cons cpu cpus ih =>
    rw [foldl_cons,ih]
    unfold reserve_active
    split
    · rfl
    dsimp only
    split <;> rfl

theorem allocate_asid_claims {p : Pool} (granted : (allocate_asid_locked p).2 ≠ 0) :
    ∃ q h, q.generation = allocation_generation p ∧ find_slot q.bitmap (ARM64_ASID_COUNT - 1) 1 = some h ∧
      allocate_asid_locked p = claim_slot q h := by
  unfold allocate_asid_locked allocation_generation at *
  cases free : find_slot p.bitmap (ARM64_ASID_COUNT - 1) 1 with
  | some h => exact ⟨p,h,rfl,free,rfl⟩
  | none =>
    simp only [free] at granted
    cases again : find_slot (rollover p).bitmap (ARM64_ASID_COUNT - 1) 1 with
    | some h => exact ⟨rollover p,h,rollover_generation p,again,by simp [again]⟩
    | none => simp [again] at granted

/-- An identifier holds 24 bits of the generation. -/
theorem allocated_asid_kept_iff (p : Pool) (granted : (allocate_asid_locked p).2 ≠ 0) :
    Kept (allocate_asid_locked p).1 (allocate_asid_locked p).2 ↔ allocation_generation p < 2 ^ 24 := by
  obtain ⟨q,h,same,found,claimed⟩ := allocate_asid_claims granted
  obtain ⟨positive,small,_⟩ := find_slot_some found
  rw [claimed,← same]
  refine ⟨fun kept => ?_,@claim_slot_kept q h positive small⟩
  have stored : arm64_asid_make q.generation h / 256 = q.generation := kept.1
  unfold arm64_asid_make wrap32 arm64_asid_hw ARM64_ASID_COUNT at stored
  omega

theorem allocated_asid_kept_first : (allocate_asid_locked (boot 4)).2 = 257 ∧
    Kept (allocate_asid_locked (boot 4)).1 (allocate_asid_locked (boot 4)).2 :=
  ⟨by decide,(allocated_asid_kept_iff (boot 4) (by decide)).mpr (by decide)⟩

/-- Without running spaces a rollover clears the pool. -/
theorem rollovers (cpus n : Nat) (fits : n + 1 < 2 ^ 32) : (rollover^[n] (boot cpus)).generation = n + 1 ∧
    (∀ h, (rollover^[n] (boot cpus)).bitmap h = false) ∧ ∀ cpu, (rollover^[n] (boot cpus)).active_vm cpu = none := by
  induction n with
  | zero => exact ⟨rfl,fun _ => rfl,fun _ => rfl⟩
  | succ n ih =>
    obtain ⟨generation,_,idle⟩ := ih (by omega)
    rw [iterate_succ_apply']
    generalize rollover^[n] (boot cpus) = p at generation idle
    have cleared : rollover p = clear_pool p := by
      unfold rollover
      induction range p.cpus with
      | nil => rfl
      | cons cpu cpus ih =>
        have skipped : reserve_active (clear_pool p) cpu = clear_pool p := by simp [reserve_active,clear_pool,idle]
        rw [foldl_cons,skipped,ih]
    rw [cleared]
    refine ⟨?_,fun _ => rfl,idle⟩
    simp only [clear_pool,generation,wrap32_of_lt fits]
    rw [if_neg (by omega)]

/-- After 2^24 - 1 rollovers the generation of a new identifier is lost. -/
theorem allocated_asid_not_kept : ∃ n, n + 1 = 2 ^ 24 ∧ (allocate_asid_locked (rollover^[n] (boot 4))).2 ≠ 0 ∧
    ¬ Kept (allocate_asid_locked (rollover^[n] (boot 4))).1 (allocate_asid_locked (rollover^[n] (boot 4))).2 := by
  obtain ⟨n,last⟩ : ∃ n, n + 1 = 2 ^ 24 := ⟨2 ^ 24 - 1,by norm_num⟩
  obtain ⟨generation,free,_⟩ := rollovers 4 n (by omega)
  refine ⟨n,last,?_⟩
  generalize rollover^[n] (boot 4) = p at generation free ⊢
  have found : allocate_asid_locked p = claim_slot p 1 := by
    have first : find_slot p.bitmap (ARM64_ASID_COUNT - 1) 1 = some 1 := by simp [ARM64_ASID_COUNT,find_slot,free]
    simp [allocate_asid_locked,first]
  have value : arm64_asid_make p.generation 1 = 1 := by
    unfold arm64_asid_make wrap32 arm64_asid_hw ARM64_ASID_COUNT
    omega
  rw [found]
  change arm64_asid_make p.generation 1 ≠ 0 ∧ ¬ Kept _ (arm64_asid_make p.generation 1)
  rw [value]
  refine ⟨by decide,fun kept => ?_⟩
  have stored : 1 / 256 = p.generation := kept.1
  omega

end ArmOS.Asid

