import ArmOS.Runs
import Mathlib.Tactic

/-!
First uses of a statically initialised mutex, condition variable or read-write
lock. A call reads the handle, allocates a slot under the registry lock when the
handle is still the static initialiser, reads the handle again and acts on the
slot it decodes to. A thread that read the initialiser but comes second to the
allocation is told that the object is busy, and its call fails. The last section
follows the handles of all kinds of objects over any number of uses of a slot.
-/
namespace ArmOS.FirstUse
open Runs Option List Nat
open Function (update update_apply)

inductive Kind
  | mutex | cond | rwlock | barrier | semaphore | key
  deriving DecidableEq

/-- `MUTEX_MAX` to `ARMOS_PTHREAD_MAX_KEYS`. -/
def Kind.limit : Kind → Nat
  | .mutex => 192
  | .cond | .rwlock | .semaphore => 128
  | .barrier | .key => 64

/-- A slot of one of the tables. `word` is the lock: a mutex's word or a
    read-write lock's state, with -1 for its one holder or writer. -/
structure Slot where
  generation : Nat
  used : Bool
  word : Int
  deriving DecidableEq, Inhabited

inductive Errno
  | EINVAL | EBUSY | EAGAIN
  deriving DecidableEq

/-- The generation is shifted past the index byte, and its high byte is lost. -/
def make_handle (index generation : Nat) : Nat := generation * 256 % 2 ^ 32 + (index + 1)

def decode_handle (handle limit : Nat) : Option (Nat × Nat) :=
  let raw_index := handle % 256
  if raw_index = 0 ∨ limit < raw_index then none
  else if handle / 256 = 0 then none
  else some (raw_index - 1,handle / 256)

def next_generation (generation : Nat) : Nat :=
  let next := (generation + 1) % 2 ^ 32
  if next = 0 then 1 else next

/-- The slot that the resolve functions find for a handle. -/
def resolve_slot (kind : Kind) (table : Nat → Slot) (handle : Nat) : Option Nat :=
  match decode_handle handle kind.limit with
  | some (index,generation) => if (table index).used ∧ (table index).generation = generation then some index else none
  | none => none

def first_free (kind : Kind) (table : Nat → Slot) : Option Nat := (List.range kind.limit).find? fun i => !(table i).used

/-- The slot as the allocate functions leave it. -/
def Slot.allocated (slot : Slot) : Slot := ⟨next_generation slot.generation,true,0⟩

/-- What a call does with an object that has a static initialiser: lock it for itself or for reading,
    signal it, or wait on it. -/
inductive Use
  | lock | share | signal | wait
  deriving DecidableEq
def Kind.has : Kind → Use → Bool
  | .mutex,.lock | .cond,.signal | .cond,.wait | .rwlock,.lock | .rwlock,.share => true
  | _,_ => false

/-- Where a thread is in a call on the object. -/
inductive Phase
  | out
  | allocates (use : Use)
  | reloads (use : Use)
  | acts (use : Use) (slot : Nat)
  | holds (use : Use) (slot : Nat)
  | done (slot : Nat)
  | failed (error : Errno)
  deriving DecidableEq

structure System where
  handle : Nat
  table : Nat → Slot
  phase : Nat → Phase

inductive Label
  | call (t : Nat) (use : Use)
  | allocate (t : Nat)
  | reload (t : Nat)
  | finish (t : Nat)
  | release (t : Nat)
  | others (table : Nat → Slot)

def System.move (s : System) (t : Nat) (p : Phase) : System := { s with phase := update s.phase t p }
def System.put (s : System) (slot : Nat) (word : Int) : System :=
  { s with table := update s.table slot { s.table slot with word := word } }

/-- The end of the resolve functions, from the decoding on. -/
def resolve (kind : Kind) (s : System) (t : Nat) (use : Use) : System :=
  match resolve_slot kind s.table s.handle with
  | some index => s.move t (.acts use index)
  | none => s.move t (.failed .EINVAL)

/-- The allocate functions, one section of the registry lock each. -/
def allocate (kind : Kind) (initial : Nat) (s : System) (t : Nat) (use : Use) : System :=
  if s.handle ≠ initial ∧ s.handle ≠ 0 then s.move t (.failed .EBUSY)
  else match first_free kind s.table with
    | none => s.move t (.failed .EAGAIN)
    | some index =>
      let slot := (s.table index).allocated
      { s with table := update s.table index slot, handle := make_handle index slot.generation }.move t (.reloads use)

/-- The slot the object has. -/
def System.own (s : System) (initial : Nat) : Option Nat :=
  if s.handle = initial then none else some (s.handle % 256 - 1)

/-- One step of a thread, or what other objects of the kind do to the table. -/
def step (kind : Kind) (initial : Nat) (s : System) : Label → Option System
  | .call t use =>
    if s.phase t ≠ .out ∨ kind.has use = false then none
    else if s.handle = initial then some (s.move t (.allocates use)) else some (resolve kind s t use)
  | .allocate t =>
    match s.phase t with
    | .allocates use => some (allocate kind initial s t use)
    | _ => none
  | .reload t =>
    match s.phase t with
    | .reloads use => some (resolve kind s t use)
    | _ => none
  | .finish t =>
    match s.phase t with
    | .acts .lock slot => if (s.table slot).word = 0 then some ((s.put slot (-1)).move t (.holds .lock slot)) else none
    | .acts .share slot =>
      if 0 ≤ (s.table slot).word then some ((s.put slot ((s.table slot).word + 1)).move t (.holds .share slot)) else none
    | .acts _ slot => some (s.move t (.done slot))
    | _ => none
  | .release t =>
    match s.phase t with
    | .holds .lock slot => some ((s.put slot 0).move t .out)
    | .holds _ slot => some ((s.put slot ((s.table slot).word - 1)).move t .out)
    | _ => none
  | .others table => if (s.own initial).all fun i => table i = s.table i then some { s with table := table } else none

/-- A thread allocates while the object has no slot yet, and the slot it gets
    has a generation that fits its handle. -/
def orderly (kind : Kind) (initial : Nat) (s : System) : Label → Bool
  | .allocate _ =>
    decide (s.handle = initial) && (first_free kind s.table).any fun i => (s.table i).generation + 1 < 2 ^ 24
  | _ => true
def Step (kind : Kind) (initial : Nat) (s : System) (l : Label) (t : System) : Prop :=
  step kind initial s l = some t
def Careful (kind : Kind) (initial : Nat) (s : System) (l : Label) (t : System) : Prop :=
  Step kind initial s l t ∧ orderly kind initial s l = true

/-- The object as its initialiser left it, in any state of the table. -/
def first (initial : Nat) (table : Nat → Slot) : System := ⟨initial,table,fun _ => .out⟩

/-- The phases of a call that has not failed and acts, if at all, on `slot`. -/
def On (slot : Nat) : Phase → Prop
  | .acts _ i | .holds _ i | .done i => i = slot
  | .failed _ => False
  | _ => True

/-- The threads `inside` hold the lock: readers as the word counts them, or one alone. -/
structure Held (s : System) (slot : Nat) (inside : Finset Nat) : Prop where
  mem : ∀ t, t ∈ inside ↔ ∃ use, s.phase t = .holds use slot
  word : (s.table slot).word = inside.card ∧ (∀ t, s.phase t ≠ .holds .lock slot) ∨
    (s.table slot).word = -1 ∧ ∃ t, inside = {t} ∧ s.phase t = .holds .lock slot

/-- The object's slot is the one its handle decodes to, and every call acts on it. -/
structure Settled (kind : Kind) (s : System) (slot : Nat) : Prop where
  inside : slot < kind.limit
  decoded : decode_handle s.handle kind.limit = some (slot,(s.table slot).generation)
  used : (s.table slot).used = true
  on : ∀ t, On slot (s.phase t)
  held : ∃ inside, Held s slot inside

/-- The object has no slot and no call has come past the allocation, or it has
    one and all calls act on that. -/
def Sound (kind : Kind) (initial : Nat) (s : System) : Prop :=
  (s.handle = initial ∧ ∀ t, s.phase t = .out ∨ ∃ use, s.phase t = .allocates use) ∨ ∃ slot, Settled kind s slot

variable {kind : Kind} {initial slot t : Nat} {s s' : System} {l : Label} {use : Use} {p : Phase}
  {inside : Finset Nat} {word : Int}

theorem Kind.limit_le (kind : Kind) : kind.limit ≤ 192 := by cases kind <;> decide

theorem decode_make_handle {limit generation : Nat} (small : limit ≤ 192) (inside : slot < limit) (nonzero : 0 < generation)
    (fits : generation < 2 ^ 24) : decode_handle (make_handle slot generation) limit = some (slot,generation) := by
  have low : make_handle slot generation % 256 = slot + 1 := by
    unfold make_handle
    omega
  have high : make_handle slot generation / 256 = generation := by
    unfold make_handle
    omega
  simp only [decode_handle,low,high]
  rw [if_neg (by omega),if_neg (by omega),Nat.add_sub_cancel]

theorem Slot.allocated_succ {slot : Slot} (fits : slot.generation + 1 < 2 ^ 32) :
    slot.allocated = ⟨slot.generation + 1,true,0⟩ := by
  simp only [Slot.allocated,next_generation]
  rw [mod_eq_of_lt fits,if_neg (succ_ne_zero _)]

/-- The handle of a slot has the slot's index byte, which the initialiser has not. -/
theorem Settled.index (settled : Settled kind s slot) : s.handle % 256 = slot + 1 := by
  have decoded := settled.decoded
  grind [decode_handle]

theorem Settled.own (reserved : 192 < initial % 256) (settled : Settled kind s slot) :
    s.handle ≠ initial ∧ s.own initial = some slot := by
  have index := settled.index
  have differs : s.handle ≠ initial := by
    have small := kind.limit_le
    have inside := settled.inside
    rintro rfl
    omega
  exact ⟨differs,by rw [System.own,if_neg differs,index,Nat.add_sub_cancel]⟩

@[grind =]
theorem phase_move (u : Nat) : (s.move t p).phase u = if u = t then p else s.phase u := by
  simp [System.move,update_apply]

@[grind =]
theorem phase_put (u : Nat) : (s.put slot word).phase u = s.phase u := rfl

@[grind =]
theorem table_move : (s.move t p).table = s.table := rfl

@[grind =]
theorem word_put : (((s.put slot word).move t p).table slot).word = word := by
  simp [System.move,System.put]

section
variable (held : Held s slot inside)
include held

theorem Held.move (was : ∀ use, s.phase t ≠ .holds use slot)
    (free : ∀ use, p ≠ .holds use slot) : Held (s.move t p) slot inside := by
  obtain ⟨mem,counted⟩ := held
  exact ⟨by grind,by grind⟩

theorem Held.lock (free : (s.table slot).word = 0) : Held ((s.put slot (-1)).move t (.holds .lock slot)) slot {t} := by
  obtain ⟨mem,counted⟩ := held
  have nobody : inside = ∅ := by grind [Finset.card_eq_zero]
  refine ⟨fun u => ?_,.inr ⟨word_put,t,rfl,by simp [System.move]⟩⟩
  have others := mem u
  rw [phase_move,Finset.mem_singleton]
  by_cases same : u = t
  · simp [same]
  · simpa [same,nobody,phase_put] using others

theorem Held.share (was : ∀ use, s.phase t ≠ .holds use slot) (free : 0 ≤ (s.table slot).word) :
    Held ((s.put slot ((s.table slot).word + 1)).move t (.holds .share slot)) slot (insert t inside) := by
  obtain ⟨mem,counted⟩ := held
  exact ⟨by grind,by grind⟩

theorem Held.release (has : s.phase t = .holds use slot)
    (left : use = .lock ∧ word = 0 ∨ use ≠ .lock ∧ word = (s.table slot).word - 1) :
    Held ((s.put slot word).move t .out) slot (inside.erase t) := by
  obtain ⟨mem,counted⟩ := held
  have self := (mem t).mpr ⟨_,has⟩
  refine ⟨by grind,.inl ?_⟩
  rcases counted with ⟨count,unlocked⟩ | ⟨_,u,rfl,locked⟩
  · grind
  · -- the one holder is the thread that leaves
    obtain rfl := Finset.mem_singleton.mp self
    have lone : ∀ v, s.phase v = .holds .lock slot → v = t := fun v holds =>
      Finset.mem_singleton.mp ((mem v).mpr ⟨_,holds⟩)
    grind

end

section
variable (settled : Settled kind s slot)
include settled

/-- A thread goes on with the lock's holders as they come out. -/
theorem Settled.change (on : On slot p)
    (held : Held ((s.put slot word).move t p) slot inside) : Settled kind ((s.put slot word).move t p) slot := by
  refine ⟨settled.inside,?_,?_,fun u => ?_,inside,held⟩
  · simpa [System.move,System.put] using settled.decoded
  · simpa [System.move,System.put] using settled.used
  · grind [settled.on u]

theorem Settled.move (on : On slot p) (was : ∀ use, s.phase t ≠ .holds use slot)
    (free : ∀ use, p ≠ .holds use slot) : Settled kind (s.move t p) slot := by
  obtain ⟨inside,held⟩ := settled.held
  exact ⟨settled.inside,settled.decoded,settled.used,by grind [settled.on],inside,held.move was free⟩
theorem Settled.resolve (was : ∀ use, s.phase t ≠ .holds use slot) : Settled kind (resolve kind s t use) slot := by
  simp only [FirstUse.resolve,resolve_slot,settled.decoded,settled.used,and_self,if_true]
  exact settled.move rfl was nofun

end

theorem on_fresh (fresh : p = .out ∨ ∃ use, p = .allocates use) : On slot p := by
  rcases fresh with rfl | ⟨use,rfl⟩
  · trivial
  · trivial

/-- The first allocation gives the object its slot. -/
theorem allocate_settles (fresh : ∀ t, s.phase t = .out ∨ ∃ use, s.phase t = .allocates use)
    (careful : orderly kind initial s (.allocate t) = true) :
    ∃ slot, Settled kind (allocate kind initial s t use) slot := by
  simp only [orderly,Bool.and_eq_true,decide_eq_true_eq,Option.any_eq_true] at careful
  obtain ⟨unset,index,free,fits⟩ := careful
  have inside : index < kind.limit := mem_range.mp (mem_of_find?_eq_some free)
  have next : (s.table index).allocated = _ := Slot.allocated_succ (by omega)
  have unbusy : ¬ (s.handle ≠ initial ∧ s.handle ≠ 0) := fun busy => busy.1 unset
  simp only [allocate,if_neg unbusy,free,next]
  have free : ∀ u use, s.phase u ≠ .holds use index := by grind
  refine ⟨index,.move ⟨inside,?_,?_,fun u => on_fresh (fresh u),∅,fun u => ?_,.inl ⟨?_,fun u => free u _⟩⟩ trivial
      (free t) nofun⟩
  · simpa using decode_make_handle kind.limit_le inside (succ_pos _) fits
  · simp
  · simp [free u]
  · simp

theorem Settled.step (reserved : 192 < initial % 256) (settled : Settled kind s slot)
    (taken : Careful kind initial s l s') : Settled kind s' slot := by
  obtain ⟨taken,careful⟩ := taken
  obtain ⟨differs,own⟩ := settled.own reserved
  cases l with
  | call t use =>
    simp only [Step,step,if_neg differs,ite_none_left_eq_some,some.injEq] at taken
    exact taken.2 ▸ settled.resolve (by grind)
  | allocate t => simp [orderly,differs] at careful
  | reload t =>
    simp only [Step,step] at taken
    split at taken
    · exact some.inj taken ▸ settled.resolve (by grind)
    · cases taken
  | finish t =>
    have on := settled.on t
    obtain ⟨inside,held⟩ := settled.held
    simp only [Step,step] at taken
    split at taken
    case h_1 slot' acts =>
      obtain rfl : slot' = slot := by simpa [acts,On] using on
      obtain ⟨free,same⟩ := ite_none_right_eq_some.mp taken
      exact some.inj same ▸ settled.change rfl (held.lock free)
    case h_2 slot' acts =>
      obtain rfl : slot' = slot := by simpa [acts,On] using on
      obtain ⟨free,same⟩ := ite_none_right_eq_some.mp taken
      exact some.inj same ▸ settled.change rfl (held.share (by grind) free)
    case h_3 use slot' _ _ acts =>
      obtain rfl : slot' = slot := by simpa [acts,On] using on
      exact some.inj taken ▸ settled.move rfl (by grind) nofun
    · cases taken
  | release t =>
    have on := settled.on t
    obtain ⟨inside,held⟩ := settled.held
    simp only [Step,step] at taken
    split at taken
    case h_1 slot' holds =>
      obtain rfl : slot' = slot := by simpa [holds,On] using on
      exact some.inj taken ▸ settled.change trivial (held.release holds (.inl ⟨rfl,rfl⟩))
    case h_2 use slot' shared holds =>
      obtain rfl : slot' = slot := by simpa [holds,On] using on
      exact some.inj taken ▸ settled.change trivial (held.release holds (.inr ⟨by grind,rfl⟩))
    · cases taken
  | others table =>
    simp only [Step,step,own,all_some,decide_eq_true_eq,ite_none_right_eq_some,
      some.injEq] at taken
    obtain ⟨kept,rfl⟩ := taken
    refine ⟨settled.inside,?_,?_,settled.on,?_⟩
    · simpa [kept] using settled.decoded
    · simpa [kept] using settled.used
    obtain ⟨inside,mem,word⟩ := settled.held
    exact ⟨inside,mem,by simpa [kept] using word⟩

theorem Sound.step (reserved : 192 < initial % 256) (sound : Sound kind initial s)
    (taken : Careful kind initial s l s') : Sound kind initial s' := by
  rcases sound with ⟨unset,fresh⟩ | ⟨slot,settled⟩
  · obtain ⟨taken,careful⟩ := taken
    cases l with
    | call t use =>
      simp only [Step,step,if_pos unset,ite_none_left_eq_some,some.injEq] at taken
      refine .inl ⟨taken.2 ▸ unset,fun u => ?_⟩
      rw [← taken.2]
      by_cases same : u = t
      · exact .inr ⟨use,by simp [System.move,same]⟩
      · simpa [System.move,same] using fresh u
    | allocate t =>
      simp only [Step,step] at taken
      split at taken
      · exact .inr (some.inj taken ▸ allocate_settles fresh careful)
      · cases taken
    | others table =>
      simp only [Step,step,ite_none_right_eq_some,some.injEq] at taken
      exact .inl (taken.2 ▸ ⟨unset,fresh⟩)
    | _ t =>
      rcases fresh t with at_rest | ⟨use,at_rest⟩
      all_goals simp [Step,step,at_rest] at taken
  · exact .inr ⟨slot,settled.step reserved taken⟩

theorem first_uses_share_slot (kind : Kind) (initial : Nat) (reserved : 192 < initial % 256) (table : Nat → Slot)
    (s : System) (reached : Reachable (Careful kind initial) (first initial table) s) :
    ∃ slot, (∀ t, On slot (s.phase t)) ∧
      ∀ t u use, s.phase t = .holds .lock slot → s.phase u = .holds use slot → u = t := by
  have sound := reached.invariant (fun _ _ _ sound taken => Sound.step reserved sound taken)
    (.inl ⟨rfl,fun _ => .inl rfl⟩)
  rcases sound with ⟨_,fresh⟩ | ⟨slot,settled⟩
  · exact ⟨0,fun t => on_fresh (fresh t),by grind⟩
  · obtain ⟨inside,mem,word⟩ := settled.held
    refine ⟨slot,settled.on,fun t u use locked holds => ?_⟩
    have first := (mem t).mpr ⟨_,locked⟩
    have second := (mem u).mpr ⟨_,holds⟩
    rcases word with ⟨_,unlocked⟩ | ⟨_,v,rfl,_⟩
    · exact absurd locked (unlocked t)
    · rw [Finset.mem_singleton.mp second,Finset.mem_singleton.mp first]

def sample : System := first 0xFFFFFFFF fun _ => ⟨0,false,0⟩

/-- Two threads lock a mutex for the first time, one after the other. -/
theorem first_uses_in_turn : ∃ s, Reachable (Careful .mutex 0xFFFFFFFF) sample s ∧
    s.phase 1 = .holds .lock 0 ∧ s.phase 2 = .acts .lock 0 ∧ ∀ t, On 0 (s.phase t) := by
  have found : (([.call 1 .lock,.allocate 1,.reload 1,.call 2 .lock,.finish 1] : List Label).foldlM
      (fun s l => if orderly .mutex 0xFFFFFFFF s l then step .mutex 0xFFFFFFFF s l else none)
      sample).any
      (fun s : System => s.phase 1 = .holds .lock 0 ∧ s.phase 2 = .acts .lock 0) = true := by decide +kernel
  obtain ⟨s,run,holds⟩ := Run.ends_checked found
  have reached : Reachable (Careful .mutex 0xFFFFFFFF) sample s := ⟨_,run⟩
  obtain ⟨one,two⟩ := of_decide_eq_true holds
  obtain ⟨slot,on,_⟩ := first_uses_share_slot .mutex 0xFFFFFFFF (by decide) _ s reached
  obtain rfl : 0 = slot := by simpa [one,On] using on 1
  exact ⟨s,reached,one,two,on⟩

/-- Two threads read the initialiser; the second to allocate gets EBUSY from its
    lock call and holds nothing. -/
theorem second_first_use_fails : ∃ s,
    Reachable (Step .mutex 0xFFFFFFFF) sample s ∧ s.phase 2 = .failed .EBUSY := by
  have found : (([.call 1 .lock,.call 2 .lock,.allocate 1,.allocate 2] : List Label).foldlM (step .mutex 0xFFFFFFFF)
      sample).any (fun s : System => s.phase 2 = .failed .EBUSY) = true := by
    decide +kernel
  obtain ⟨s,run,failed⟩ := Run.ends found
  exact ⟨s,⟨_,run⟩,of_decide_eq_true failed⟩

/-! ### Handles of every kind -/

/-- An object as it was initialised; its handle is made of the slot and the generation. -/
structure Object where
  kind : Kind
  (slot generation : Nat)
  deriving DecidableEq

structure Registry where
  table : Kind × Nat → Slot
  (alive dead : List Object)

/-- The slots of a kind. -/
def Registry.slots (r : Registry) (kind : Kind) (index : Nat) : Slot := r.table (kind,index)
def object_resolve (r : Registry) (o : Object) : Option Nat :=
  resolve_slot o.kind (r.slots o.kind) (make_handle o.slot o.generation)

inductive Change
  | init (kind : Kind) | destroy (o : Object)

/-- A call that succeeds; any handle ever made may be given to the destroy functions. -/
def change (r : Registry) : Change → Option Registry
  | .init kind =>
    (first_free kind (r.slots kind)).map fun index =>
      let slot := (r.table (kind,index)).allocated
      { r with
        table := update r.table (kind,index) slot
        alive := ⟨kind,index,slot.generation⟩ :: r.alive }
  | .destroy o =>
    if o ∈ r.alive ∨ o ∈ r.dead then
      (object_resolve r o).map fun index =>
        ⟨update r.table (o.kind,index) { r.table (o.kind,index) with used := false },r.alive.filter (· ≠ o),o :: r.dead⟩
    else none

/-- The slot taken has a count that fits a handle. -/
def countable (r : Registry) : Change → Bool
  | .init kind => (first_free kind (r.slots kind)).all fun i => (r.table (kind,i)).generation + 1 < 2 ^ 24
  | _ => true
def Changes (r : Registry) (c : Change) (r' : Registry) : Prop := change r c = some r'
def Countable (r : Registry) (c : Change) (r' : Registry) : Prop := Changes r c r' ∧ countable r c = true
def first_registry : Registry := ⟨fun _ => ⟨0,false,0⟩,[],[]⟩

def Object.proper (o : Object) : Prop := o.slot < o.kind.limit ∧ 0 < o.generation ∧ o.generation < 2 ^ 24

structure Kept (r : Registry) : Prop where
  alive : ∀ o ∈ r.alive, o.proper ∧ (r.table (o.kind,o.slot)).used = true ∧
    (r.table (o.kind,o.slot)).generation = o.generation
  dead : ∀ o ∈ r.dead, o.proper ∧ o.generation ≤ (r.table (o.kind,o.slot)).generation ∧
    ((r.table (o.kind,o.slot)).used = true → o.generation < (r.table (o.kind,o.slot)).generation)

variable {r r' : Registry} {c : Change} {o : Object}

theorem Object.proper.resolve (proper : o.proper) : object_resolve r o =
    if (r.table (o.kind,o.slot)).used ∧ (r.table (o.kind,o.slot)).generation = o.generation then some o.slot else none := by
  simp only [object_resolve,resolve_slot,decode_make_handle o.kind.limit_le proper.1 proper.2.1 proper.2.2]
  rfl

theorem Kept.step (kept : Kept r) (taken : Countable r c r') : Kept r' := by
  obtain ⟨taken,counted⟩ := taken
  obtain ⟨alive,dead⟩ := kept
  cases c with
  | init kind =>
    obtain ⟨index,found,rfl⟩ := map_eq_some_iff.mp taken
    simp only [countable,found,all_some,decide_eq_true_eq] at counted
    have inside : index < kind.limit := mem_range.mp (mem_of_find?_eq_some found)
    have free : (r.table (kind,index)).used = false := by
      simpa [Registry.slots] using find?_some found
    simp only [Slot.allocated_succ (counted.trans (by decide))]
    refine ⟨forall_mem_cons.mpr ⟨⟨⟨inside,succ_pos _,counted⟩,by simp⟩,?_⟩,?_⟩
    · grind
    · grind
  | destroy o =>
    obtain ⟨known,taken⟩ := ite_none_right_eq_some.mp taken
    obtain ⟨index,found,rfl⟩ := map_eq_some_iff.mp taken
    have proper : o.proper := known.elim (fun member => (alive o member).1) fun member => (dead o member).1
    rw [proper.resolve,ite_none_right_eq_some] at found
    obtain ⟨⟨used,same⟩,⟨rfl⟩⟩ := found
    refine ⟨?_,forall_mem_cons.mpr ⟨⟨proper,by simp [same]⟩,?_⟩⟩
    · grind [cases Object]
    · grind

/-- If no slot is taken `2 ^ 24` times, a handle resolves to its object's slot until that
    is destroyed, and to nothing from then on. -/
theorem handles_resolve (r : Registry) (reached : Reachable Countable first_registry r) :
    (∀ o ∈ r.alive, object_resolve r o = some o.slot) ∧ ∀ o ∈ r.dead, object_resolve r o = none := by
  have kept : Kept r := reached.invariant (fun _ _ _ kept taken => kept.step taken)
    ⟨List.forall_mem_nil _,List.forall_mem_nil _⟩
  refine ⟨fun o member => ?_,fun o member => ?_⟩
  · obtain ⟨proper,now⟩ := kept.alive o member
    rw [proper.resolve,if_pos now]
  · obtain ⟨proper,_,later⟩ := kept.dead o member
    rw [proper.resolve,if_neg (by grind)]

theorem handles_resolve_key : ∃ r, Reachable Countable first_registry r ∧ r.alive = [⟨.key,0,2⟩] ∧
    object_resolve r ⟨.key,0,1⟩ = none := by
  have run : Run Countable first_registry [.init .key,.destroy ⟨.key,0,1⟩,.init .key] _ :=
    .next ⟨rfl,rfl⟩ (.next ⟨rfl,rfl⟩ (.next ⟨rfl,rfl⟩ (.done _)))
  exact ⟨_,⟨_,run⟩,rfl,(handles_resolve _ ⟨_,run⟩).2 _ List.mem_cons_self⟩

/-- `pthread_mutex_init` takes the first slot. -/
theorem mutex_taken {n : Nat} (fits : n + 1 < 2 ^ 32) (free : r.table (.mutex,0) = ⟨n,false,0⟩) :
    change r (.init .mutex) = some { r with
      table := update r.table (.mutex,0) ⟨n + 1,true,0⟩, alive := ⟨.mutex,0,n + 1⟩ :: r.alive } := by
  have found : first_free .mutex (r.slots .mutex) = some 0 := by
    rw [first_free,show range Kind.mutex.limit = 0 :: _ from range_succ_eq_map,find?_cons_of_pos]
    simp [Registry.slots,free]
  have next : (r.table (.mutex,0)).allocated = ⟨n + 1,true,0⟩ := by rw [free,Slot.allocated_succ fits]
  simp [change,found,next]

/-- That slot is taken and given back `n` times. -/
theorem mutex_reused (n : Nat) (fits : n < 2 ^ 24) :
    ∃ r, Reachable Changes first_registry r ∧ r.table (.mutex,0) = ⟨n,false,0⟩ := by
  induction n with
  | zero => exact ⟨_,.refl _,rfl⟩
  | succ n ih =>
    obtain ⟨r,reached,free⟩ := ih (by omega)
    have proper : Object.proper ⟨.mutex,0,n + 1⟩ := ⟨succ_pos 191,succ_pos n,fits⟩
    have found : ([.init .mutex,.destroy ⟨.mutex,0,n + 1⟩].foldlM change r).any
        (fun r => r.table (.mutex,0) = ⟨n + 1,false,0⟩) = true := by
      rw [foldlM_cons,mutex_taken (by omega) free]
      simp [change,proper.resolve]
    obtain ⟨r,run,back⟩ := Run.ends found
    exact ⟨r,reached.trans ⟨_,run⟩,of_decide_eq_true back⟩

/-- The handle of the `2 ^ 24`th mutex of a slot has no generation left. -/
theorem handle_outgrown : ∃ r, Reachable Changes first_registry r ∧ ⟨.mutex,0,2 ^ 24⟩ ∈ r.alive ∧
    object_resolve r ⟨.mutex,0,2 ^ 24⟩ = none := by
  obtain ⟨r,reached,free⟩ := mutex_reused (2 ^ 24 - 1) (by decide)
  exact ⟨_,reached.trans (.single (mutex_taken (by decide) free)),List.mem_cons_self,rfl⟩

end ArmOS.FirstUse
