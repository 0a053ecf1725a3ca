import ArmOS.Runs
import Mathlib.Tactic

/-!
`pthread_barrier_wait`. A call reads the generation and adds itself to `waiting`.
The last call of a round sets `waiting` to 0, moves the generation on and wakes the
others, which wait for a generation other than the one they read. A call that adds
itself to a round that is being completed, or with a generation that has passed,
belongs to no round.
-/
namespace ArmOS.Barriers
open Runs Function List Option

/-- The loop of a waiting call: before its test, before that of the futex, asleep. -/
inductive Stage
  | tests | enters | sleeps
  deriving DecidableEq

/-- Where a thread is in its call, which has a number. -/
inductive Phase
  | out
  | loaded (call generation : Nat)
  | completes (call : Nat)
  | cleared (call : Nat)
  | wakes (call : Nat)
  | waits (call generation : Nat) (stage : Stage)
  deriving DecidableEq

/-- A call that returned, with `PTHREAD_BARRIER_SERIAL_THREAD` or 0, and the number
    of calls made until then. -/
structure Return where
  call : Nat
  serial : Bool
  made : Nat
  deriving DecidableEq

/-- The call that completed a round, and the others. -/
structure Round where
  serial : Nat
  others : List Nat
def Round.calls (r : Round) : List Nat := r.serial :: r.others

/-- The words of the barrier, the threads, and the history of the calls; `closing`
    says that a call has completed a round and not moved the generation on. -/
structure System where
  (waiting generation : Nat)
  phase : Nat → Phase
  closing : Bool
  made : Nat
  gathering : List Nat
  rounds : List Round
  returned : List Return

inductive Label
  | call (t : Nat)
  | turn (t : Nat)
  | interrupt (t : Nat)
def System.move (s : System) (t : Nat) (p : Phase) : System := { s with phase := update s.phase t p }
def System.leave (s : System) (t call : Nat) (serial : Bool) : System :=
  { s.move t .out with returned := ⟨call,serial,s.made⟩ :: s.returned }

/-- `wake_word` of the generation, for more threads than there are. -/
def wake : Phase → Phase
  | .waits call generation .sleeps => .waits call generation .tests
  | p => p

/-- One atomic step of a thread, or a signal that ends its sleep. -/
def step (count : Nat) (s : System) : Label → Option System
  | .call t =>
    if s.phase t = .out then some { s.move t (.loaded s.made s.generation) with made := s.made + 1 } else none
  | .turn t =>
    match s.phase t with
    | .loaded call generation =>
      let waiting := (s.waiting + 1) % 2 ^ 32
      if waiting = count then some { s.move t (.completes call) with waiting := waiting, closing := true }
      else some { s.move t (.waits call generation .tests) with waiting := waiting, gathering := call :: s.gathering }
    | .completes call => some { s.move t (.cleared call) with waiting := 0 }
    | .cleared call =>
      some { s.move t (.wakes call) with
        generation := (s.generation + 1) % 2 ^ 32
        closing := false
        gathering := []
        rounds := ⟨call,s.gathering⟩ :: s.rounds }
    | .wakes call => some ({ s with phase := fun u => wake (s.phase u) }.leave t call true)
    | .waits call generation .tests =>
      if s.generation = generation then some (s.move t (.waits call generation .enters)) else some (s.leave t call false)
    | .waits call generation .enters =>
      some (s.move t (.waits call generation (if s.generation = generation then .sleeps else .tests)))
    | _ => none
  | .interrupt t =>
    match s.phase t with
    | .waits call generation .sleeps => some (s.move t (.waits call generation .tests))
    | _ => none

/-- A call adds itself with the generation it has read, while no round is being completed. -/
def orderly (s : System) : Label → Bool
  | .turn t =>
    match s.phase t with
    | .loaded _ generation => generation = s.generation ∧ s.closing = false
    | _ => true
  | _ => true

def Step (count : Nat) (s : System) (l : Label) (t : System) : Prop := step count s l = some t
def Careful (count : Nat) (s : System) (l : Label) (t : System) : Prop := Step count s l t ∧ orderly s l = true

/-- A barrier as `barrier_allocate` leaves it. -/
def first : System := ⟨0,0,fun _ => .out,false,0,[],[],[]⟩

/-- The calls come in rounds of `count`. A call returns once all the calls of its
    round have been made, and one of them returns `PTHREAD_BARRIER_SERIAL_THREAD`. -/
def InRounds (count : Nat) (s : System) : Prop :=
  ∃ rounds : List (List Nat), rounds.flatten.Nodup ∧
    (∀ round ∈ rounds, round.length = count ∧
      ∃ serial ∈ round, ∀ e ∈ s.returned, e.call ∈ round → (e.serial = true ↔ e.call = serial)) ∧
    ∀ e ∈ s.returned, ∃ round ∈ rounds, e.call ∈ round ∧ ∀ c ∈ round, c < e.made

/-! ### Rounds -/

/-- The calls that have added themselves, but for one that is completing a round. -/
def System.placed (s : System) : List Nat := s.gathering ++ (s.rounds.map Round.calls).flatten

/-- What a thread's phase says about its call. -/
def At (s : System) : Phase → Prop
  | .out => True
  | .loaded c _ => c < s.made ∧ c ∉ s.placed
  | .completes c => c < s.made ∧ c ∉ s.placed ∧ s.closing = true
  | .cleared c => c < s.made ∧ c ∉ s.placed ∧ s.closing = true ∧ s.waiting = 0
  | .wakes c => ∃ r ∈ s.rounds, c = r.serial
  | .waits c g _ => (c ∈ s.gathering ∧ g = s.generation) ∨ ∃ r ∈ s.rounds, c ∈ r.others

/-- The call of a thread that has not been placed yet. -/
def Phase.pending : Phase → Option Nat
  | .loaded c _ | .completes c | .cleared c => some c
  | _ => none
def Phase.closes : Phase → Bool
  | .completes _ | .cleared _ => true
  | _ => false

/-- The words of the barrier, and what has been placed and returned. -/
structure Shared (count : Nat) (s : System) : Prop where
  sizes : ∀ r ∈ s.rounds, r.others.length + 1 = count
  nodup : s.placed.Nodup
  known : ∀ c ∈ s.placed, c < s.made
  gathers : s.closing = false → s.waiting = s.gathering.length ∧ s.gathering.length < count
  full : s.closing = true → s.gathering.length + 1 = count
  returned : ∀ e ∈ s.returned, ∃ r ∈ s.rounds, (if e.serial then e.call = r.serial else e.call ∈ r.others) ∧
    ∀ c ∈ r.calls, c < e.made

/-- One thread at most completes a round, and no two have the same call. -/
structure Threads (s : System) : Prop where
  alone : ∀ t u, (s.phase t).closes = true → (s.phase u).closes = true → t = u
  own : ∀ t u c, (s.phase t).pending = some c → (s.phase u).pending = some c → t = u
  at_phase : ∀ t, At s (s.phase t)
structure Sound (count : Nat) (s : System) : Prop extends Shared count s, Threads s

variable {count t c : Nat} {s s' : System} {p : Phase}

/-- One thread goes on, and what the others are in still holds. -/
theorem Threads.move (threads : Threads s) (phase : s'.phase = update s.phase t p) (here : At s' p)
    (alone : p.closes = true → ∀ u, (s.phase u).closes = true → u = t)
    (own : ∀ c, p.pending = some c → ∀ u, (s.phase u).pending = some c → u = t)
    (others : ∀ u, u ≠ t → At s' (s.phase u)) : Threads s' := by
  rw [funext_iff] at phase
  refine ⟨fun a b => ?_,fun a b c => ?_,fun u => ?_⟩
  · grind [Threads.alone,update_apply]
  · grind [Threads.own,update_apply]
  · grind [update_apply]

open Phase (pending closes)

open Barriers.System (move placed)

theorem Sound.begins (sound : Sound count s) (taken : step count s (.call t) = some s') : Sound count s' := by
  obtain ⟨shared,threads⟩ := sound
  obtain ⟨_,rfl⟩ := ite_none_right_eq_some.mp taken |>.imp_right some.inj
  have younger : ∀ u c, (s.phase u).pending = some c → c < s.made := by
    intro u c pending
    have at_u := threads.at_phase u
    cases phase : s.phase u <;> grind [At,pending]
  refine ⟨?_,threads.move rfl ⟨Nat.lt_succ_self _,fun old => Nat.lt_irrefl _ (shared.known _ old)⟩ (by simp [closes])
    ?_ fun u _ => ?_⟩
  · exact { shared with known := fun c old => Nat.lt_succ_of_lt (shared.known c old) }
  · grind [pending]
  have at_u := threads.at_phase u
  cases phase : s.phase u <;> grind [At,move,placed]

section
variable (sound : Sound count s)
include sound

namespace Sound

theorem at_of (phase : s.phase t = p) : At s p := phase ▸ sound.at_phase t

/-- A thread goes on in a call that is placed. -/
theorem pass (here : At s p) (placed : p.pending = none) (waits : p.closes = false) : Sound count (s.move t p) :=
  ⟨{ sound.toShared with },sound.toThreads.move rfl here (by simp [waits]) (by simp [placed]) fun u _ => sound.at_phase u⟩

/-- A call of a completed round returns. -/
theorem leave {serial : Bool} {r : Round} (member : r ∈ s.rounds)
    (of_round : if serial then c = r.serial else c ∈ r.others) : Sound count (s.leave t c serial) := by
  have left := @pass count t s .out sound trivial rfl rfl
  refine ⟨{ left.toShared with returned := fun e listed => ?_ },{ left.toThreads with }⟩
  rcases mem_cons.mp listed with rfl | old
  · refine ⟨r,member,of_round,fun c inside => sound.known c ?_⟩
    exact mem_append_right _ (mem_flatten.mpr ⟨_,mem_map_of_mem member,inside⟩)
  · exact sound.returned e old

theorem wake : Sound count { s with phase := fun u => wake (s.phase u) } := by
  have closes : ∀ q, (Barriers.wake q).closes = q.closes := by
    intro q
    unfold Barriers.wake
    split <;> rfl
  have pending : ∀ q, (Barriers.wake q).pending = q.pending := by
    intro q
    unfold Barriers.wake
    split <;> rfl
  refine ⟨{ sound.toShared with },fun a b => ?_,fun a b c => ?_,fun u => ?_⟩
  · simpa only [closes] using sound.alone a b
  · simpa only [pending] using sound.own a b c
  · have at_u := sound.at_phase u
    change At s (Barriers.wake (s.phase u))
    unfold Barriers.wake
    split
    · rename_i asleep
      rwa [asleep] at at_u
    · exact at_u

/-- A call joins the round that is gathering. -/
theorem join (loaded : s.phase t = .loaded c s.generation) (gathers : s.closing = false)
    (more : s.waiting + 1 ≠ count) :
    Sound count { s.move t (.waits c s.generation .tests) with waiting := s.waiting + 1, gathering := c :: s.gathering } := by
  obtain ⟨known,new⟩ := sound.at_of loaded
  obtain ⟨waiting,room⟩ := sound.gathers gathers
  refine ⟨{ sound.toShared with nodup := ?_, known := ?_, gathers := fun _ => ?_, full := fun closing => ?_ },
    sound.toThreads.move rfl (.inl ⟨mem_cons_self,rfl⟩) (by simp [closes]) (by simp [pending])
    fun u other => ?_⟩
  · exact nodup_cons.mpr ⟨new,sound.nodup⟩
  · exact forall_mem_cons.mpr ⟨known,sound.known⟩
  · simp only [length_cons]
    omega
  · exact absurd (gathers.symm.trans closing) nofun
  · have at_u := sound.at_phase u
    have apart := sound.own u t c
    cases phase : s.phase u <;> grind [At,move,placed,pending]

/-- The last call of a round takes over. -/
theorem complete {generation : Nat} (loaded : s.phase t = .loaded c generation) (gathers : s.closing = false)
    (last : s.waiting + 1 = count) :
    Sound count { s.move t (.completes c) with waiting := s.waiting + 1, closing := true } := by
  obtain ⟨known,new⟩ := sound.at_of loaded
  obtain ⟨waiting,room⟩ := sound.gathers gathers
  have unclosed : ∀ u, (s.phase u).closes = false := by
    intro u
    have at_u := sound.at_phase u
    cases phase : s.phase u <;> grind [At,closes]
  refine ⟨{ sound.toShared with gathers := nofun, full := fun _ => by rw [← last,waiting]; rfl },
    sound.toThreads.move rfl ⟨known,new,rfl⟩ (by simp [unclosed]) ?_ fun u _ => ?_⟩
  · have own := sound.own
    grind [pending]
  · have at_u := sound.at_phase u
    have open_u := unclosed u
    cases phase : s.phase u <;> grind [At,move,placed,closes]

theorem clear (completes : s.phase t = .completes c) : Sound count { s.move t (.cleared c) with waiting := 0 } := by
  obtain ⟨known,new,closing⟩ := sound.at_of completes
  refine ⟨{ sound.toShared with gathers := fun gathers => absurd (gathers.symm.trans closing) nofun },
    sound.toThreads.move rfl ⟨known,new,closing,rfl⟩ ?_ ?_ fun u _ => ?_⟩
  · have alone := sound.alone
    grind [closes]
  · have own := sound.own
    grind [pending]
  have at_u := sound.at_phase u
  cases phase : s.phase u <;> grind [At,move,placed]

/-- The generation moves on: what was gathered is a round. -/
theorem advance (cleared : s.phase t = .cleared c) :
    Sound count { s.move t (.wakes c) with
      generation := (s.generation + 1) % 2 ^ 32
      closing := false
      gathering := []
      rounds := ⟨c,s.gathering⟩ :: s.rounds } := by
  obtain ⟨known,new,closing,waiting⟩ := sound.at_of cleared
  have full := sound.full closing
  refine ⟨⟨forall_mem_cons.mpr ⟨full,sound.sizes⟩,nodup_cons.mpr ⟨new,sound.nodup⟩,
    forall_mem_cons.mpr ⟨known,sound.known⟩,fun _ => ⟨waiting,full ▸ Nat.succ_pos _⟩,nofun,fun e listed => ?_⟩,
    sound.toThreads.move rfl ⟨_,mem_cons_self,rfl⟩ (by simp [closes]) (by simp [pending])
    fun u other => ?_⟩
  · obtain ⟨r,member,rest⟩ := sound.returned e listed
    exact ⟨r,mem_cons_of_mem _ member,rest⟩
  · have at_u := sound.at_phase u
    have apart := sound.own u t c
    have alone := sound.alone u t
    cases phase : s.phase u with
    | waits c' g stage =>
      rw [phase] at at_u
      rcases at_u with ⟨inside,_⟩ | ⟨r,member,inside⟩
      · exact .inr ⟨_,mem_cons_self,inside⟩
      · exact .inr ⟨r,mem_cons_of_mem _ member,inside⟩
    | _ => grind [At,move,placed,Round.calls,pending,closes]

theorem turn (small : count < 2 ^ 32) (taken : step count s (.turn t) = some s')
    (careful : orderly s (.turn t) = true) : Sound count s' := by
  cases phase : s.phase t with
  | out => simp [step,phase] at taken
  | loaded c generation =>
    simp only [orderly,phase,decide_eq_true_eq] at careful
    obtain ⟨rfl,gathers⟩ := careful
    obtain ⟨waiting,room⟩ := sound.gathers gathers
    have fits : (s.waiting + 1) % 2 ^ 32 = s.waiting + 1 := Nat.mod_eq_of_lt (by omega)
    simp only [step,phase,fits] at taken
    split at taken
    · exact some.inj taken ▸ sound.complete phase gathers (by assumption)
    · exact some.inj taken ▸ sound.join phase gathers (by assumption)
  | completes c =>
    simp only [step,phase,some.injEq] at taken
    exact taken ▸ sound.clear phase
  | cleared c =>
    simp only [step,phase,some.injEq] at taken
    exact taken ▸ sound.advance phase
  | wakes c =>
    simp only [step,phase,some.injEq] at taken
    obtain ⟨r,member,same⟩ := sound.at_of phase
    exact taken ▸ sound.wake.leave member same
  | waits c generation stage =>
    have here := sound.at_of phase
    cases stage with
    | tests =>
      simp only [step,phase] at taken
      split at taken
      · exact some.inj taken ▸ sound.pass here rfl rfl
      rename_i passed
      -- a call that is still gathered has the present generation
      obtain ⟨r,member,inside⟩ := here.resolve_left fun gathered => passed gathered.2.symm
      exact some.inj taken ▸ sound.leave member inside
    | enters =>
      simp only [step,phase,some.injEq] at taken
      exact taken ▸ sound.pass here rfl rfl
    | sleeps => simp [step,phase] at taken

theorem interrupted (taken : step count s (.interrupt t) = some s') : Sound count s' := by
  simp only [step] at taken
  split at taken
  · rename_i asleep
    have here := sound.at_of asleep
    exact some.inj taken ▸ sound.pass here rfl rfl
  · cases taken

theorem in_rounds : InRounds count s := by
  have nodup : (s.rounds.map Round.calls).flatten.Nodup := (nodup_append.mp sound.nodup).2.1
  obtain ⟨each,apart⟩ := nodup_flatten.mp nodup
  rw [pairwise_map] at apart
  -- a call is in one round only
  have one : ∀ r ∈ s.rounds, ∀ r' ∈ s.rounds, ∀ c, c ∈ r.calls → c ∈ r'.calls → r = r' := by
    intro r member r' member' c inside inside'
    have symm : Std.Symm fun a b : Round => a.calls.Disjoint b.calls := ⟨fun _ _ apart _ one two => apart two one⟩
    by_contra other
    exact apart.forall member member' other inside inside'
  refine ⟨s.rounds.map Round.calls,nodup,fun round listed => ?_,fun e returned => ?_⟩
  · obtain ⟨r,member,rfl⟩ := mem_map.mp listed
    refine ⟨sound.sizes r member,r.serial,mem_cons_self,fun e returned inside => ?_⟩
    obtain ⟨r',member',role,_⟩ := sound.returned e returned
    have same := one r member r' member' e.call inside
    have distinct := each _ listed
    grind [Round.calls]
  · obtain ⟨r,member,role,before⟩ := sound.returned e returned
    refine ⟨r.calls,mem_map_of_mem member,?_,before⟩
    grind [Round.calls]

end Sound

end

theorem Sound.step {l : Label} (small : count < 2 ^ 32) (sound : Sound count s) (taken : Careful count s l s') :
    Sound count s' := by
  obtain ⟨taken,careful⟩ := taken
  cases l with
  | call t => exact sound.begins taken
  | turn t => exact sound.turn small taken careful
  | interrupt t => exact sound.interrupted taken

theorem calls_come_in_rounds (count : Nat) (positive : 0 < count) (small : count < 2 ^ 32) (s : System)
    (reached : Reachable (Careful count) first s) : InRounds count s := by
  have start : Sound count first :=
    ⟨⟨nofun,.nil,nofun,fun _ => ⟨rfl,positive⟩,nofun,nofun⟩,nofun,nofun,fun _ => trivial⟩
  exact (reached.invariant (fun _ _ _ sound taken => Sound.step small sound taken) start).in_rounds

/-- Two threads pass a barrier of two. -/
theorem calls_come_in_rounds_of_two : ∃ s, Reachable (Careful 2) first s ∧
    s.returned = [⟨0,false,2⟩,⟨1,true,2⟩] ∧ InRounds 2 s := by
  have found : (([.call 1,.turn 1,.turn 1,.call 2,.turn 1,.turn 2,.turn 2,.turn 2,.turn 2,.turn 1] : List Label).foldlM
      (fun s l => if orderly s l then step 2 s l else none) first).any
      (fun s : System => s.returned = [⟨0,false,2⟩,⟨1,true,2⟩]) = true := by decide +kernel
  obtain ⟨s,run,returned⟩ := Run.ends_checked found
  have reached : Reachable (Careful 2) first s := ⟨_,run⟩
  exact ⟨s,reached,of_decide_eq_true returned,calls_come_in_rounds 2 (by decide) (by decide) s reached⟩

/-- A second call adds itself to a barrier of one before the first has cleared it:
    it waits for the next generation and returns 0. -/
theorem call_in_no_round : ∃ s, Reachable (Step 1) first s ∧ s.returned = [⟨1,false,2⟩] ∧ ¬ InRounds 1 s := by
  have found : (([.call 1,.turn 1,.call 2,.turn 2,.turn 1,.turn 1,.turn 2] : List Label).foldlM (step 1) first).any
      (fun s : System => s.returned = [⟨1,false,2⟩]) = true := by decide +kernel
  obtain ⟨s,run,ends⟩ := Run.ends found
  have returned := of_decide_eq_true ends
  refine ⟨s,⟨_,run⟩,returned,fun ⟨rounds,_,each,all⟩ => ?_⟩
  obtain ⟨round,listed,inside,_⟩ := all ⟨1,false,2⟩ (by simp [returned])
  obtain ⟨one,serial,member,only⟩ := each round listed
  obtain ⟨c,rfl⟩ := length_eq_one_iff.mp one
  have call_is := mem_singleton.mp inside
  exact nomatch (only ⟨1,false,2⟩ (by simp [returned]) inside).mpr (call_is.trans (mem_singleton.mp member).symm)

end ArmOS.Barriers

