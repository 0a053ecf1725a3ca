import ArmOS.FileMap

/-!
The block map of a file as a function from a `Place`, where a pointer stands, to the
block it points to, 0 for none. Filling a hole changes it at one place, and
truncating sets it to 0 at some.
-/
namespace ArmOS.BlockMap
open Bytes Disk Volumes FileMap Function List
open Words (wrap32)

/-- The places of pointers: in the inode and in its tables. -/
inductive Place where
  | direct (i : Nat)
  | single
  | single_data (i : Nat)
  | double
  | table (i : Nat)
  | double_data (i j : Nat)
deriving DecidableEq

section
variable (fs : Fs)

def Place.Valid : Place → Prop
  | direct i => i < 12
  | single => True
  | single_data i => i < ptrs_per_block fs
  | double => True
  | table i => i < ptrs_per_block fs
  | double_data i j => i < ptrs_per_block fs ∧ j < ptrs_per_block fs

/-- The pointer in slot `i` of a table, 0 without a table. -/
def behind (read : Nat → Buffer) (table i : Nat) : Nat := if table = 0 then 0 else pointer (read table) i

def at_place (read : Nat → Buffer) (i_block : Nat → Nat) : Place → Nat
  | .direct i => i_block i
  | .single => i_block 12
  | .single_data i => behind read (i_block 12) i
  | .double => i_block 13
  | .table i => behind read (i_block 13) i
  | .double_data i j => behind read (behind read (i_block 13) i) j

def data_place (idx : Nat) : Place :=
  if idx < 12 then .direct idx
  else if idx - 12 < ptrs_per_block fs then .single_data (idx - 12)
  else .double_data ((idx - 12 - ptrs_per_block fs) / ptrs_per_block fs)
    ((idx - 12 - ptrs_per_block fs) % ptrs_per_block fs)

def max_blocks : Nat := 12 + ptrs_per_block fs + wrap32 (ptrs_per_block fs * ptrs_per_block fs)

/-- All places, each table after what is behind it. -/
def places : List Place :=
  (List.range 12).map .direct ++ ((List.range (ptrs_per_block fs)).map .single_data ++ [.single]) ++
    ((List.range (ptrs_per_block fs)).flatMap (fun i =>
      (List.range (ptrs_per_block fs)).map (.double_data i) ++ [.table i]) ++ [.double])
def blocks_of (read : Nat → Buffer) (di : Inode) : List Nat :=
  ((places fs).map (at_place read di.i_block)).filter (· ≠ 0)

end

variable {fs : Fs} {p q : Place} {i b : Nat}

theorem mem_places : p ∈ places fs ↔ p.Valid fs := by
  cases p <;> simp [places,Place.Valid]

theorem nodup_places : (places fs).Nodup := by
  have first : ((range 12).map Place.direct).Nodup :=
    nodup_range.map fun _ _ same => Place.direct.inj same
  have second : ((range (ptrs_per_block fs)).map Place.single_data).Nodup :=
    nodup_range.map fun _ _ same => Place.single_data.inj same
  have tables : ((range (ptrs_per_block fs)).flatMap (fun i =>
      (range (ptrs_per_block fs)).map (Place.double_data i) ++ [.table i])).Nodup := by
    rw [nodup_flatMap]
    constructor
    · grind
    refine nodup_range.pairwise_of_forall_ne ?_
    intro i _ j _ apart
    rw [Function.onFun,disjoint_left]
    grind
  simp only [places,nodup_append',first,second,tables,nodup_singleton,true_and,disjoint_left]
  refine ⟨⟨?_,?_⟩,?_,?_⟩
  all_goals
    intro p
    cases p <;> simp +contextual

theorem data_place_valid {idx : Nat} (below : idx < max_blocks fs) : (data_place fs idx).Valid fs := by
  simp only [max_blocks] at below
  simp only [data_place]
  split
  · assumption
  split
  · assumption
  have rest : idx - 12 - ptrs_per_block fs < ptrs_per_block fs * ptrs_per_block fs :=
    lt_of_lt_of_le (by omega : _ < wrap32 (ptrs_per_block fs * ptrs_per_block fs)) (Nat.mod_le _ _)
  have pos : 0 < ptrs_per_block fs := by
    by_contra zero
    rw [Nat.eq_zero_of_not_pos zero] at rest
    omega
  exact ⟨Nat.div_lt_of_lt_mul rest,Nat.mod_lt _ pos⟩

theorem data_place_injective {j : Nat} (same : data_place fs i = data_place fs j) : i = j := by
  simp only [data_place] at same
  split_ifs at same <;> simp only [Place.direct.injEq,Place.single_data.injEq,Place.double_data.injEq] at same
  · exact same
  · omega
  · grind [Nat.div_add_mod]

/-! ### Looking a block up -/

/-- The cursor holds what is on the device. -/
def Current (d : Store) (cur : Cursor) : Prop :=
  (cur.table_no ≠ 0 → cur.table = d.read cur.table_no) ∧ (cur.dbl_no ≠ 0 → cur.dbl = d.read cur.dbl_no)
theorem current_init (d : Store) : Current d map_cursor_init := ⟨fun h => absurd rfl h,fun h => absurd rfl h⟩

variable {d : Store}

theorem map_cursor_load_read {block loaded : Nat} {buf : Buffer} (nonzero : block ≠ 0)
    (current : loaded ≠ 0 → buf = d.read loaded) : map_cursor_load d block loaded buf = (block,d.read block) := by
  rw [map_cursor_load]
  split
  · rename_i same
    subst same
    rw [current nonzero]
  · rfl

def block_at (fs : Fs) (read : Nat → Buffer) (di : Inode) (idx : Nat) : Nat :=
  if idx < max_blocks fs then at_place read di.i_block (data_place fs idx) else 0

theorem map_block_cursor_spec {cur : Cursor} (current : Current d cur) (di : Inode) (idx : Nat) :
    (map_block_cursor fs d di idx cur).1 = block_at fs d.read di idx ∧
      Current d (map_block_cursor fs d di idx cur).2 := by
  simp only [map_block_cursor,block_at,data_place,max_blocks]
  by_cases direct : idx < 12
  · grind [at_place]
  by_cases single : idx - 12 < ptrs_per_block fs
  · have below : idx < 12 + ptrs_per_block fs + wrap32 (ptrs_per_block fs * ptrs_per_block fs) := by omega
    by_cases zero : di.i_block 12 = 0
    · simp [direct,single,zero,below,at_place,behind,current]
    have loaded := map_cursor_load_read zero current.1
    simp [direct,single,zero,below,at_place,behind,loaded]
    exact ⟨fun _ => rfl,current.2⟩
  by_cases beyond : wrap32 (ptrs_per_block fs * ptrs_per_block fs) ≤ idx - 12 - ptrs_per_block fs
  · grind
  have below : idx < 12 + ptrs_per_block fs + wrap32 (ptrs_per_block fs * ptrs_per_block fs) := by omega
  by_cases zero : di.i_block 13 = 0
  · simp [direct,single,beyond,below,zero,at_place,behind,current]
  have loaded := map_cursor_load_read zero current.2
  by_cases empty : pointer (d.read (di.i_block 13)) ((idx - 12 - ptrs_per_block fs) / ptrs_per_block fs) = 0
  · simp [direct,single,beyond,below,zero,at_place,behind,loaded,empty]
    exact ⟨current.1,fun _ => rfl⟩
  have second := map_cursor_load_read empty current.1
  simp [direct,single,beyond,below,zero,at_place,behind,loaded,empty,second]
  exact ⟨fun _ => rfl,fun _ => rfl⟩

theorem map_block_eq (d : Store) (di : Inode) (idx : Nat) : map_block fs d di idx = block_at fs d.read di idx :=
  (map_block_cursor_spec (current_init d) di idx).1

/-! ### Functions on places -/

section
variable {Key : Type} [DecidableEq Key]

/-- The values of a function along a list that are not 0. -/
def nonzero (f : Key → Nat) (keys : List Key) : List Nat := (keys.map f).filter (· ≠ 0)

variable {keys : List Key} {f : Key → Nat}

omit [DecidableEq Key] in
theorem mem_nonzero {n : Nat} : n ∈ nonzero f keys ↔ n ≠ 0 ∧ ∃ k ∈ keys, f k = n := by
  simp only [nonzero,mem_filter,mem_map,decide_eq_true_eq]
  tauto

omit [DecidableEq Key] in
theorem nonzero_congr {f g : Key → Nat} (same : ∀ k ∈ keys, f k = g k) : nonzero f keys = nonzero g keys := by
  rw [nonzero,map_congr_left same,nonzero]

omit [DecidableEq Key] in
theorem nonzero_append (f : Key → Nat) (first second : List Key) :
    nonzero f (first ++ second) = nonzero f first ++ nonzero f second := by
  simp [nonzero]

omit [DecidableEq Key] in
theorem nonzero_cons (f : Key → Nat) (k : Key) (keys : List Key) :
    nonzero f (k :: keys) = (if f k = 0 then [] else [f k]) ++ nonzero f keys := by
  by_cases zero : f k = 0 <;> simp [nonzero,zero]

theorem nonzero_update {k : Key} {n : Nat} (nodup : keys.Nodup) (member : k ∈ keys)
    (hole : f k = 0) (value : n ≠ 0) : (nonzero (update f k n) keys).Perm (n :: nonzero f keys) := by
  obtain ⟨before,after,rfl⟩ := append_of_mem member
  obtain ⟨_,later,apart⟩ := nodup_append'.mp nodup
  have first : nonzero (update f k n) before = nonzero f before := by
    refine nonzero_congr fun other inside => update_of_ne ?_ _ _
    rintro rfl
    exact apart inside mem_cons_self
  have rest : nonzero (update f k n) after = nonzero f after := by
    refine nonzero_congr fun other inside => update_of_ne ?_ _ _
    rintro rfl
    exact (nodup_cons.mp later).1 inside
  rw [nonzero_append,nonzero_cons,nonzero_append,nonzero_cons,first,rest,update_self,if_neg value,
    if_pos hole]
  simp

omit [DecidableEq Key] in
theorem nonzero_injective (nodup : (nonzero f keys).Nodup) {j k : Key}
    (first : j ∈ keys) (second : k ∈ keys) (value : f j ≠ 0) (same : f j = f k) : j = k := by
  induction keys with
  | nil => cases first
  | cons key rest ih =>
    rw [nonzero_cons,nodup_append'] at nodup
    obtain ⟨_,later,apart⟩ := nodup
    rcases mem_cons.mp first with rfl | earlier
    · rcases mem_cons.mp second with rfl | second
      · rfl
      rw [if_neg value] at apart
      exact (apart mem_cons_self (mem_nonzero.mpr ⟨value,k,second,same.symm⟩)).elim
    rcases mem_cons.mp second with rfl | second
    · rw [same] at value
      rw [if_neg value] at apart
      exact (apart mem_cons_self (mem_nonzero.mpr ⟨value,j,earlier,same⟩)).elim
    · exact ih later earlier second

end

theorem blocks_of_eq (read : Nat → Buffer) (di : Inode) :
    blocks_of fs read di = nonzero (at_place read di.i_block) (places fs) := rfl

/-! ### Editing the block map -/

def Place.IsTable : Place → Prop
  | single => True
  | double => True
  | table _ => True
  | _ => False

theorem data_place_not_table (idx : Nat) : ¬ (data_place fs idx).IsTable := by
  simp only [data_place]
  split
  · exact id
  · split <;> exact id

@[simp] theorem behind_none (read : Nat → Buffer) (i : Nat) : behind read 0 i = 0 := if_pos rfl

theorem behind_congr {read read' : Nat → Buffer} {table : Nat} (same : table ≠ 0 → read' table = read table) (i : Nat) :
    behind read' table i = behind read table i := by
  by_cases zero : table = 0
  · simp [zero]
  · simp [behind,zero,same zero]

theorem at_place_congr {read read' : Nat → Buffer} {i_block : Nat → Nat}
    (same : ∀ q : Place, q.Valid fs → q.IsTable → at_place read i_block q ≠ 0 →
      read' (at_place read i_block q) = read (at_place read i_block q)) (valid : p.Valid fs) :
    at_place read' i_block p = at_place read i_block p := by
  have slot : ∀ q : Place, q.Valid fs → q.IsTable → ∀ i,
      behind read' (at_place read i_block q) i = behind read (at_place read i_block q) i :=
    fun q inside table i => behind_congr (same q inside table) i
  cases p with
  | direct i | single | double => rfl
  | single_data i => exact slot .single trivial trivial i
  | table i => exact slot .double trivial trivial i
  | double_data i j =>
    have outer : behind read' (i_block 13) i = behind read (i_block 13) i := slot .double trivial trivial i
    have inner := slot (.table i) valid.1 trivial j
    simp only [at_place] at inner ⊢
    rw [outer,inner]

theorem pointer_zeroes (i : Nat) : pointer zeroes i = 0 := load_zeroes 4 (4 * i)
theorem behind_cleared {read : Nat → Buffer} {table : Nat} (cleared : read table = zeroes) (i : Nat) :
    behind read table i = 0 := by
  simp [behind,cleared,pointer_zeroes]

theorem pointer_set {table : Buffer} (small : b < 2 ^ 32) (j : Nat) :
    pointer (set_pointer table i b) j = if j = i then b else pointer table j := by
  by_cases same : j = i
  · subst same
    rw [if_pos rfl,pointer,set_pointer,load_store,Nat.mod_eq_of_lt]
    exact small
  rw [if_neg same,pointer,set_pointer,pointer]
  exact load_store_apart (by omega)

variable {read read' : Nat → Buffer} {i_block : Nat → Nat}

theorem at_place_direct (low : i < 12) (valid : q.Valid fs) :
    at_place read (update i_block i b) q = update (at_place read i_block) (.direct i) b q := by
  have single : update i_block i b 12 = i_block 12 := update_of_ne (by omega) _ _
  have double : update i_block i b 13 = i_block 13 := update_of_ne (by omega) _ _
  cases q with
  | direct k =>
    by_cases same : k = i
    · subst same
      simp [at_place]
    · simp [at_place,same]
  | _ => simp [at_place,single,double]

theorem at_place_single (hole : i_block 12 = 0) (cleared : read b = zeroes) (valid : q.Valid fs) :
    at_place read (update i_block 12 b) q = update (at_place read i_block) .single b q := by
  cases q with
  | direct k =>
    have other : k ≠ 12 := valid.ne
    simp [at_place,other]
  | single_data k => simp [at_place,hole,behind_cleared cleared]
  | single | double | table k | double_data k l => simp [at_place]

theorem at_place_double (hole : i_block 13 = 0) (cleared : read b = zeroes) (valid : q.Valid fs) :
    at_place read (update i_block 13 b) q = update (at_place read i_block) .double b q := by
  cases q with
  | direct k =>
    have other : k ≠ 13 := ne_of_lt (lt_trans valid (by decide))
    simp [at_place,other]
  | single | single_data k | double => simp [at_place]
  | table k | double_data k l => simp [at_place,hole,behind_cleared cleared]

/-- The place behind slot `i` of the table at a place. -/
def Place.child : Place → Nat → Place
  | single, i => single_data i
  | double, i => table i
  | table k, i => double_data k i
  | p, _ => p

theorem at_place_child (table : p.IsTable) (i : Nat) :
    at_place read i_block (p.child i) = behind read (at_place read i_block p) i := by
  cases p with
  | single | double | table k => rfl
  | _ => cases table

open Place (child)

/-- A pointer written into a table, to a block of zeroes. -/
theorem at_place_slot (inside : p.Valid fs) (table : p.IsTable)
    (present : at_place read i_block p ≠ 0) (hole : at_place read i_block (p.child i) = 0) (small : b < 2 ^ 32)
    (written : read' (at_place read i_block p) = set_pointer (read (at_place read i_block p)) i b)
    (others : ∀ q : Place, q.Valid fs → q.IsTable → q ≠ p → at_place read i_block q ≠ 0 →
      read' (at_place read i_block q) = read (at_place read i_block q))
    (cleared : p = .double → read' b = zeroes) (valid : q.Valid fs) :
    at_place read' i_block q = update (at_place read i_block) (p.child i) b q := by
  -- the pointers in the table of `p` itself
  have slot : ∀ j, behind read' (at_place read i_block p) j =
      if j = i then b else behind read (at_place read i_block p) j := by
    intro j
    simp only [behind,if_neg present,written,pointer_set small]
  have other : ∀ q : Place, q.Valid fs → q.IsTable → q ≠ p → ∀ j,
      behind read' (at_place read i_block q) j = behind read (at_place read i_block q) j :=
    fun q inside table apart j => behind_congr (others q inside table apart) j
  cases p with
  | single =>
    have double := other .double trivial trivial (by simp)
    cases q with
    | single_data j => grind [at_place,child]
    | table j => simpa [at_place,child] using double j
    | double_data j k =>
      have inner := other (.table j) valid.1 trivial (by simp) k
      grind [at_place,child]
    | _ => simp [at_place,child]
  | double =>
    have single := other .single trivial trivial (by simp)
    cases q with
    | single_data j => simpa [at_place,child] using single j
    | table j => grind [at_place,child]
    | double_data j k =>
      have outer := slot j
      simp only [at_place] at outer
      by_cases same : j = i
      · subst same
        have empty : behind read (i_block 13) j = 0 := hole
        rw [if_pos rfl] at outer
        simp [at_place,child,outer,empty,behind_cleared (cleared rfl)]
      have inner := other (.table j) valid.1 trivial (by simp) k
      simp only [at_place] at inner
      simp [at_place,child,outer,same,inner]
    | _ => simp [at_place,child]
  | table n =>
    have single := other .single trivial trivial (by simp)
    have double := other .double trivial trivial (by simp)
    cases q with
    | single_data j => simpa [at_place,child] using single j
    | table j => simpa [at_place,child] using double j
    | double_data j k =>
      have outer := double j
      simp only [at_place] at outer
      by_cases same : j = n
      · grind [at_place,child]
      have inner := other (.table j) valid.1 trivial (by simpa using same) k
      simp only [at_place] at inner
      simp [at_place,child,outer,same,inner]
    | _ => simp [at_place,child]
  | _ => cases table

end ArmOS.BlockMap

