import Mathlib.Tactic

/-!
Ring buffers. A ring is whole when read position, write position and fill count
agree; it is then a queue, to which `push` adds at the end and from which `pop`
takes the first element.
-/
namespace ArmOS.Rings
open Function List Nat

universe u

structure RingBuffer (α : Type u) where
  data : Nat → α
  (read_pos write_pos count : Nat)

variable {α : Type u} (size : Nat)

def RingBuffer.empty (filler : α) : RingBuffer α := ⟨fun _ => filler,0,0,0⟩
def RingBuffer.push (r : RingBuffer α) (x : α) : RingBuffer α :=
  { r with data := update r.data r.write_pos x, write_pos := (r.write_pos + 1) % size, count := r.count + 1 }
def RingBuffer.pop (r : RingBuffer α) : RingBuffer α := { r with read_pos := (r.read_pos + 1) % size, count := r.count - 1 }

/-- Adds elements while there is room; gives the rest. -/
def RingBuffer.fill (r : RingBuffer α) : List α → RingBuffer α × List α
  | [] => (r,[])
  | x :: xs => if r.count < size then RingBuffer.fill (r.push size x) xs else (r,x :: xs)

/-- Takes up to so many elements. -/
def RingBuffer.drain (r : RingBuffer α) : Nat → List α × RingBuffer α
  | 0 => ([],r)
  | n+1 =>
    if 0 < r.count then
      let taken := RingBuffer.drain (r.pop size) n
      (r.data r.read_pos :: taken.1,taken.2)
    else ([],r)

def RingBuffer.contents (r : RingBuffer α) : List α := (List.range r.count).map fun i => r.data ((r.read_pos + i) % size)

/-- The count is the distance of the positions. -/
structure RingBuffer.Whole (r : RingBuffer α) : Prop where
  inside : r.read_pos < size
  within : r.count ≤ size
  distance : r.write_pos = (r.read_pos + r.count) % size

variable {size} {r : RingBuffer α}

namespace RingBuffer

theorem whole_empty (positive : 0 < size) (filler : α) : (empty filler).Whole size :=
  ⟨positive,zero_le _,by simp [empty]⟩

/-! ### One element -/

theorem Whole.push (whole : r.Whole size) (room : r.count < size) (x : α) : (r.push size x).Whole size where
  inside := whole.inside
  within := room
  distance := by
    show (r.write_pos + 1) % size = (r.read_pos + (r.count + 1)) % size
    rw [whole.distance,mod_add_mod]
    rfl

theorem Whole.pop (whole : r.Whole size) (some_left : 0 < r.count) : (r.pop size).Whole size where
  inside := mod_lt _ (by have := whole.within; omega)
  within := by
    have := whole.within
    simp only [RingBuffer.pop]
    omega
  distance := by
    show r.write_pos = ((r.read_pos + 1) % size + (r.count - 1)) % size
    rw [mod_add_mod,whole.distance]
    congr 1
    omega

theorem contents_push (whole : r.Whole size) (room : r.count < size) (x : α) :
    (r.push size x).contents size = r.contents size ++ [x] := by
  simp only [contents,push,range_succ,map_append,map_cons,map_nil]
  congr 1
  · apply map_congr_left
    intro i used
    rw [update_of_ne]
    rw [whole.distance]
    have before := mem_range.mp used
    intro same
    have divides := (modEq_iff_dvd' (by omega)).mp same
    have := eq_zero_of_dvd_of_lt divides (by omega)
    omega
  · rw [whole.distance,update_self]

theorem contents_pop (some_left : 0 < r.count) :
    r.contents size = r.data (r.read_pos % size) :: (r.pop size).contents size := by
  obtain ⟨n,count⟩ : ∃ n, r.count = n + 1 := ⟨r.count - 1,by omega⟩
  simp only [contents,pop,count,range_succ_eq_map,map_cons,map_map,Nat.add_sub_cancel]
  congr 1
  apply map_congr_left
  intro i _
  simp only [comp_apply,Nat.succ_eq_add_one,Nat.mod_add_mod]
  congr 2
  omega

/-! ### Several elements -/

/-- Filling takes what there is room for, in order. -/
theorem fill_spec (whole : r.Whole size) (xs : List α) :
    (r.fill size xs).1.Whole size ∧ (r.fill size xs).2 = xs.drop (size - r.count) ∧
      (r.fill size xs).1.contents size = r.contents size ++ xs.take (size - r.count) := by
  -- by induction on the elements, for every ring
  induction xs generalizing r with
  | nil => simpa [fill] using whole
  | cons x xs ih =>
    by_cases room : r.count < size
    · obtain ⟨kept,left,after⟩ := ih (whole.push room x)
      have one_less : size - r.count = (size - (r.push size x).count) + 1 := by
        simp only [push]
        omega
      simp only [fill,if_pos room]
      refine ⟨kept,?_,?_⟩
      · rw [left,one_less,drop_succ_cons]
      rw [after,contents_push whole room,one_less,take_succ_cons,append_assoc]
      rfl
    have full : size - r.count = 0 := by omega
    simp only [fill,if_neg room,full]
    simpa using whole

/-- Draining takes the first elements. -/
theorem drain_spec (whole : r.Whole size) (n : Nat) :
    (r.drain size n).2.Whole size ∧ (r.drain size n).1 ++ (r.drain size n).2.contents size = r.contents size ∧
      (r.drain size n).1.length = min n r.count := by
  induction n generalizing r with
  | zero => simpa [drain] using whole
  | succ n ih =>
    by_cases some_left : 0 < r.count
    · obtain ⟨kept,split,length⟩ := ih (whole.pop some_left)
      simp only [drain,if_pos some_left]
      refine ⟨kept,?_,?_⟩
      · rw [cons_append,split,contents_pop some_left,mod_eq_of_lt whole.inside]
      rw [length_cons,length]
      simp only [pop]
      omega
    have none_left : r.count = 0 := by omega
    simp only [drain,if_neg some_left]
    simpa [none_left] using whole

end RingBuffer

end ArmOS.Rings

