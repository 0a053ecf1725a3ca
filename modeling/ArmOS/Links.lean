import Mathlib.Tactic

/-!
Lists that are kept by links inside their nodes: a head names the first node
and each node the next one. A list linked in both directions is a chain of the
forward links and a chain of the backward links through the reversed list.
-/
namespace ArmOS.Links
open Function List Option

universe u
variable {Node : Type u}

/-- The links from `head` pass exactly these nodes. -/
def Chain (next : Node → Option Node) : Option Node → List Node → Prop
  | head, [] => head = none
  | head, a :: rest => head = some a ∧ Chain next (next a) rest

variable {next other : Node → Option Node} {head : Option Node} {a b : Node} {nodes before after : List Node}

@[simp] theorem chain_nil : Chain next head [] ↔ head = none := Iff.rfl
@[simp] theorem chain_cons : Chain next head (a :: nodes) ↔ head = some a ∧ Chain next (next a) nodes := Iff.rfl
theorem Chain.frame (chain : Chain next head nodes) (same : ∀ c ∈ nodes, other c = next c) : Chain other head nodes := by
  induction nodes generalizing head with
  | nil => exact chain
  | cons a rest ih => simp_all

theorem Chain.unique {others : List Node} (chain : Chain next head nodes) (chain' : Chain next head others) :
    nodes = others := by
  induction nodes generalizing head others with
  | nil =>
    cases others with
    | nil => rfl
    | cons b rest => exact absurd (chain.symm.trans chain'.1) nofun
  | cons a rest ih =>
    cases others with
    | nil => exact absurd (chain.1.symm.trans chain') nofun
    | cons b others =>
      obtain rfl : a = b := some.inj (chain.1.symm.trans chain'.1)
      rw [ih chain.2 chain'.2]

/-- What follows a node of the chain is the chain from its link. -/
theorem Chain.from_link (chain : Chain next head (before ++ a :: after)) : Chain next (next a) after := by
  induction before generalizing head with
  | nil => exact chain.2
  | cons c rest ih => exact ih chain.2

theorem Chain.link_eq (chain : Chain next head (before ++ a :: after)) : next a = after.head? := by
  have rest := chain.from_link
  cases after with
  | nil => exact rest
  | cons b after => exact rest.1

section
variable (chain : Chain next head nodes)
include chain

theorem Chain.head_eq : head = nodes.head? := by
  cases nodes with
  | nil => exact chain
  | cons a rest => exact chain.1

theorem Chain.nodup : nodes.Nodup := by
  induction nodes generalizing head with
  | nil => exact nodup_nil
  | cons a rest ih =>
    refine nodup_cons.mpr ⟨?_,ih chain.2⟩
    intro again
    -- from the second visit of `a` on the chain would have to be as long as from the first
    obtain ⟨before,after,rfl⟩ := append_of_mem again
    have same := chain.2.unique chain.2.from_link
    have := congrArg List.length same
    simp only [length_append,length_cons] at this
    omega

/-- The link of a node of the chain leads to a node of the chain. -/
theorem Chain.linked (member : a ∈ nodes) (link : next a = some b) : b ∈ nodes := by
  obtain ⟨before,after,rfl⟩ := append_of_mem member
  have tail := chain.from_link
  rw [link] at tail
  cases after with
  | nil => exact absurd tail nofun
  | cons c rest =>
    rw [some.inj tail.1]
    simp

end

section updates

variable [DecidableEq Node]

theorem Chain.update (chain : Chain next head nodes) (outside : a ∉ nodes) (link : Option Node) :
    Chain (update next a link) head nodes :=
  chain.frame fun _ member => update_of_ne (ne_of_mem_of_not_mem member outside) _ _
theorem Chain.push (chain : Chain next head nodes) (outside : a ∉ nodes) :
    Chain (Function.update next a head) (some a) (a :: nodes) :=
  ⟨rfl,by rw [update_self]; exact chain.update outside head⟩

theorem Chain.unlink (chain : Chain next head (before ++ a :: b :: after)) :
    Chain (Function.update next a (next b)) head (before ++ a :: after) := by
  induction before generalizing head with
  | nil =>
    have apart := (nodup_cons.mp chain.nodup).1
    obtain ⟨first,_,rest⟩ := chain
    refine ⟨first,?_⟩
    rw [update_self]
    exact rest.update (fun again => apart (mem_cons_of_mem _ again)) _
  | cons c before ih =>
    have apart : c ≠ a := fun same => (nodup_cons.mp chain.nodup).1 (by simp [same])
    refine ⟨chain.1,?_⟩
    rw [update_of_ne apart]
    exact ih chain.2

theorem Chain.push_last (chain : Chain next head (before ++ [a])) (outside : b ∉ before ++ [a]) :
    Chain (Function.update (Function.update next b none) a (some b)) head (before ++ [a,b]) := by
  induction before generalizing head with
  | nil =>
    have apart : b ≠ a := fun same => outside (by simp [same])
    simp [chain.1,apart]
  | cons c before ih =>
    have apart : c ≠ a := fun same => (nodup_cons.mp chain.nodup).1 (by simp [same])
    have apart' : c ≠ b := fun same => outside (by simp [same])
    simp_all

def relink (next : Node → Option Node) (place link : Option Node) : Node → Option Node :=
  match place with
  | none => next
  | some z => update next z link

/-- A node taken out: its predecessor or the head takes its link. -/
theorem Chain.remove (chain : Chain next head (before ++ a :: after)) :
    Chain (relink next before.getLast? (next a)) (if before.getLast?.isSome then head else next a) (before ++ after) := by
  rcases eq_nil_or_concat before with rfl | ⟨front,z,rfl⟩
  · exact chain.2
  rw [concat_eq_append,append_assoc] at *
  simpa [relink] using chain.unlink

/-- The search for the node before `target`, bounded. -/
def find_before (next : Node → Option Node) (target : Node) : Nat → Option Node → Option Node
  | 0, _ => none
  | _+1, none => none
  | n+1, some a => if next a = some target then some a else find_before next target n (next a)

theorem find_before_absent (chain : Chain next head nodes) (outside : b ∉ nodes) (n : Nat) :
    find_before next b n head = none := by
  induction nodes generalizing head n with
  | nil =>
    obtain rfl : head = none := chain
    cases n <;> rfl
  | cons a rest ih =>
    cases n with
    | zero => rfl
    | succ n =>
      have apart : next a ≠ some b := fun link => outside (chain.linked mem_cons_self link)
      rw [chain.1,find_before,if_neg apart]
      exact ih chain.2 (fun inside => outside (mem_cons_of_mem _ inside)) n

theorem find_before_present (chain : Chain next head (before ++ a :: b :: after)) {n : Nat} (long : before.length < n) :
    find_before next b n head = some a := by
  induction before generalizing head n with
  | nil =>
    obtain ⟨n,rfl⟩ := Nat.exists_eq_succ_of_ne_zero long.ne'
    rw [chain.1,find_before,if_pos chain.2.1]
  | cons c before ih =>
    obtain ⟨n,rfl⟩ := Nat.exists_eq_succ_of_ne_zero (Nat.ne_of_gt (Nat.lt_of_le_of_lt (Nat.zero_le _) long))
    rw [chain.1,find_before,if_neg,ih chain.2 (by simpa using long)]
    intro link
    -- `b` would be passed twice
    have tail := chain.2
    rw [link] at tail
    cases before with
    | nil =>
      have twice := chain.nodup
      have same : b = a := some.inj tail.1
      simp [same] at twice
    | cons d before =>
      have twice := chain.nodup
      have same : b = d := some.inj tail.1
      simp [same] at twice

end updates

/-- The first node that the test accepts, bounded. -/
def find_first (next : Node → Option Node) (test : Node → Bool) : Nat → Option Node → Option Node
  | 0, _ => none
  | _+1, none => none
  | n+1, some a => if test a then some a else find_first next test n (next a)

/-- The nodes that the links pass, bounded. -/
def follow (next : Node → Option Node) : Nat → Option Node → List Node
  | 0, _ => []
  | _+1, none => []
  | n+1, some a => a :: follow next n (next a)

theorem follow_mem {n : Nat} (chain : Chain next head nodes) (member : a ∈ follow next n head) : a ∈ nodes := by
  induction nodes generalizing head n with
  | nil =>
    obtain rfl : head = none := chain
    cases n <;> cases member
  | cons c rest ih =>
    cases n with
    | zero => cases member
    | succ n =>
      rw [chain.1,follow] at member
      rcases mem_cons.mp member with rfl | later
      · exact mem_cons_self
      · exact mem_cons_of_mem _ (ih chain.2 later)

/-! ### Links in both directions -/

/-- A list linked forwards from its head, backwards from its tail. -/
structure Doubly (next prev : Node → Option Node) (head tail : Option Node) (nodes : List Node) : Prop where
  forwards : Chain next head nodes
  backwards : Chain prev tail nodes.reverse

variable {prev : Node → Option Node} {tail : Option Node}

theorem Doubly.empty : Doubly next prev none none [] := ⟨rfl,rfl⟩
theorem Doubly.frame {next' prev' : Node → Option Node} (list : Doubly next prev head tail nodes)
    (same : ∀ c ∈ nodes, next' c = next c ∧ prev' c = prev c) : Doubly next' prev' head tail nodes :=
  ⟨list.forwards.frame fun c member => (same c member).1,
    list.backwards.frame fun c member => (same c (mem_reverse.mp member)).2⟩
theorem Doubly.tail_eq (list : Doubly next prev head tail nodes) : tail = nodes.getLast? := by
  rw [list.backwards.head_eq,head?_reverse]
theorem Doubly.next_eq (list : Doubly next prev head tail (before ++ a :: after)) : next a = after.head? :=
  list.forwards.link_eq
theorem Doubly.prev_eq (list : Doubly next prev head tail (before ++ a :: after)) : prev a = before.getLast? := by
  have backwards : Chain prev tail (after.reverse ++ a :: before.reverse) := by simpa using list.backwards
  rw [backwards.link_eq,head?_reverse]

variable [DecidableEq Node]

theorem Doubly.append (list : Doubly next prev head tail nodes) (outside : a ∉ nodes) :
    Doubly (relink (update next a none) tail (some a)) (update prev a tail)
      (if tail.isSome then head else some a) (some a) (nodes ++ [a]) := by
  constructor
  · rcases eq_nil_or_concat nodes with rfl | ⟨front,z,rfl⟩
    · obtain rfl : tail = none := list.backwards
      simp [relink]
    obtain rfl : tail = some z := by simpa using list.tail_eq
    rw [concat_eq_append] at *
    simpa [relink] using list.forwards.push_last outside
  rw [reverse_append]
  exact list.backwards.push (by simpa using outside)

theorem Doubly.remove (list : Doubly next prev head tail (before ++ a :: after)) :
    Doubly (relink next (prev a) (next a)) (relink prev (next a) (prev a)) (if (prev a).isSome then head else next a)
      (if (next a).isSome then tail else prev a) (before ++ after) := by
  have backwards : Chain prev tail (after.reverse ++ a :: before.reverse) := by simpa using list.backwards
  constructor
  · have kept := list.forwards.remove
    rwa [← list.prev_eq] at kept
  have kept := backwards.remove
  rw [getLast?_reverse,← list.next_eq] at kept
  rwa [reverse_append]

end ArmOS.Links

