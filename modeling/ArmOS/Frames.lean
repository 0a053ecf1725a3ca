import ArmOS.Buddy

/-!
Page frames as the virtual memory code sees them, with their references. Which frame
comes out, and whether there is one, is drawn from a list `fate`, so that a result
for every list covers all other users of memory.
-/
namespace ArmOS.Frames
open Function
open Physical (PAGE_SIZE)
open Buddy (Content)

/-- The frames by address; `device` are not the allocator's. -/
structure Pool where
  refcount : Nat → Nat
  content : Nat → Content
  device : Nat → Bool
  fate : List Nat

/-- The next outcome; a list that is used up gives failures. -/
def draw (p : Pool) : Nat := p.fate.headD 0
def drawn (p : Pool) : Pool := { p with fate := p.fate.tail }
def kmalloc (p : Pool) : Bool := draw p ≠ 0

/-- An address that `buddy_alloc(1)` can return. -/
def Free (p : Pool) (page : Nat) : Prop :=
  page ≠ 0 ∧ page % PAGE_SIZE = 0 ∧ p.device page = false ∧ p.refcount page = 0
instance (p : Pool) (page : Nat) : Decidable (Free p page) := inferInstanceAs (Decidable (_ ∧ _))
def take (p : Pool) (page : Nat) : Pool :=
  { p with refcount := update p.refcount page 1, content := update p.content page (fun _ => 0) }

/-- `allocate_page`; `none` is `NULL`. -/
def allocate_page (p : Pool) : Pool × Option Nat :=
  if Free p (draw p) then (take (drawn p) (draw p),some (draw p)) else (drawn p,none)

/-- `free_page`: the last reference frees the frame. -/
def free_page (p : Pool) (page : Nat) : Pool :=
  { p with refcount := update p.refcount page (p.refcount page - 1) }
def page_ref_count (p : Pool) (page : Nat) : Nat := p.refcount page

/-- `page_ref_inc`; `none` is a negative result. -/
def page_ref_inc (p : Pool) (page : Nat) : Option Pool :=
  if p.refcount page = 0 ∨ p.refcount page = 0xFFFF then none
  else some { p with refcount := update p.refcount page (p.refcount page + 1) }
def store (p : Pool) (page offset byte : Nat) : Pool :=
  { p with content := update p.content page (update (p.content page) offset byte) }

end ArmOS.Frames

