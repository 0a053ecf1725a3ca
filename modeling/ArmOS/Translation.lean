import ArmOS.PageTables

/-!
What the tables of a user address space mean. `Sound` ties the entries to the
inventory and the mappings; every step is one of six edits that keep it, and the
walk finds what the list of mappings says.
-/
namespace ArmOS.Translation
open Words Vma Frames PageTables Keyed List Option Prod
open Physical (PAGE_SIZE)
open Vm (Mapping arm64_user_vm_flags_valid page_of)

/-! ### Addresses and entries -/

/-- The page that an entry of a table of the third level maps. -/
def page_at (at_place : Nat × Nat) (index : Nat) : Nat :=
  at_place.1 * 2 ^ 30 + at_place.2 * 2 ^ 21 + index * 2 ^ 12

variable {va table i : Nat} {l2 : L2Table} {l3 : L3Table} {rest : List L3Table}

theorem page_of_parts (low : va < 2 ^ 39) : page_of va = page_at (place va) (l3_index va) := by
  simp only [page_of,align_down,PAGE_SIZE,page_at,place,l1_index,l2_index,l3_index]
  omega
theorem page_of_aligned (aligned : va % PAGE_SIZE = 0) : page_of va = va := by
  simp only [page_of,align_down,PAGE_SIZE] at *
  omega
theorem place_page_of (va : Nat) : place (page_of va) = place va := by
  simp only [page_of,align_down,PAGE_SIZE,place,l1_index,l2_index,mk.injEq]
  omega

theorem place_page_at {at_place : Nat × Nat} {index : Nat} (first : at_place.1 < 512) (second : at_place.2 < 512)
    (third : index < 512) : place (page_at at_place index) = at_place ∧ l3_index (page_at at_place index) = index := by
  obtain ⟨i,j⟩ := at_place
  simp only [place,page_at,l1_index,l2_index,l3_index,mk.injEq] at *
  omega

theorem index_lt (va : Nat) : l1_index va < 512 ∧ l2_index va < 512 ∧ l3_index va < 512 := by
  simp only [l1_index,l2_index,l3_index]
  omega
theorem table_mask_of_aligned {x : Nat} (aligned : x % PAGE_SIZE = 0) (low : x < 2 ^ 48) : table_mask x = x := by
  simp only [table_mask,align_down,PAGE_SIZE] at *
  omega
theorem table_mask_of_valid (valid : table_address_valid table = true) : table_mask table = table := by
  simp only [table_address_valid,Bool.and_eq_true,decide_eq_true_eq] at valid
  exact valid.2
theorem valid_aligned (valid : table_address_valid table = true) : table % PAGE_SIZE = 0 := by
  simp only [table_address_valid,Bool.and_eq_true,decide_eq_true_eq] at valid
  exact valid.1

@[simp] theorem set_entry_apply (memory : Memory) (table index : Nat) (entry : Descriptor) (t i : Nat) :
    set_entry memory table index entry t i = if t = table ∧ i = index then entry else memory t i := by
  by_cases same : t = table
  · subst same
    by_cases here : i = index <;> simp [set_entry,here]
  · simp [set_entry,same]

open Descriptor (zero)

@[simp] theorem clear_table_apply (memory : Memory) (table t i : Nat) :
    clear_table memory table t i = if t = table then zero else memory t i := by
  by_cases same : t = table <;> simp [clear_table,same]

/-! ### The invariant -/

/-- The tables of the kernel that a user root leads to. -/
def kernel_tables : Platform → List Nat
  | .qemu_virt => []
  | .raspberrypi low => [low]
def listed (vm : UserVm) : List Nat := vm.l2_tables.map L2Table.table ++ vm.l3_tables.map L3Table.table
def tables (platform : Platform) (vm : UserVm) : List Nat := kernel_tables platform ++ vm.l1 :: listed vm

/-- The page is not one that `allocate_page` can return. -/
def Held (pool : Pool) (page : Nat) : Prop := pool.device page = true ∨ pool.refcount page ≠ 0

/-- A mapping as the calls record it, with a table for its entry. -/
structure Recorded (vm : UserVm) (x : Mapping) : Prop where
  aligned : x.virtual_address % PAGE_SIZE = 0
  low : x.virtual_address < 2 ^ 39
  frame_aligned : x.physical_address % PAGE_SIZE = 0
  frame_low : x.physical_address < 2 ^ 48
  flags : arm64_user_vm_flags_valid x.flags = true
  table : ∃ t ∈ vm.l3_tables, t.place = place x.virtual_address

/-- Only the tables of the third level matter to a mapping. -/
theorem Recorded.keep {vm vm' : UserVm} {x : Mapping} (recorded : Recorded vm x) (same : vm'.l3_tables = vm.l3_tables) :
    Recorded vm' x := { recorded with table := same ▸ recorded.table }

structure Shape (platform : Platform) (vm : UserVm) : Prop where
  asid : arm64_asid_hw vm.asid ≠ 0
  l2_keys : Distinct L2Table.l1_index vm.l2_tables
  l3_keys : Distinct L3Table.place vm.l3_tables
  pages : Distinct Mapping.virtual_address vm.mappings
  nodup : (tables platform vm).Nodup
  valid : ∀ t ∈ tables platform vm, table_address_valid t = true
  nonzero : ∀ t ∈ vm.l1 :: listed vm, t ≠ 0
  l2_index : ∀ t ∈ vm.l2_tables, t.l1_index < 512 ∧ t.l1_index ≠ platform.kernel_index
  l3_index : ∀ t ∈ vm.l3_tables, t.l2_index < 512 ∧ ∃ l2 ∈ vm.l2_tables, l2.l1_index = t.l1_index
  room : vm.l2_tables.length ≤ vm.l2_table_capacity ∧ vm.l3_tables.length ≤ vm.l3_table_capacity ∧
    vm.mappings.length ≤ vm.mapping_capacity
  recorded : ∀ x ∈ vm.mappings, Recorded vm x

/-- The entry for a table, or what is there without one. -/
def table_entry (otherwise : Descriptor) (table : Option Nat) : Descriptor := table.elim otherwise table_descriptor
def page_entry (mapping : Option Mapping) : Descriptor :=
  mapping.elim Descriptor.zero fun x => user_page_descriptor x.physical_address x.flags

/-- The entries of the tables are what the lists say. -/
structure Filled (platform : Platform) (memory : Memory) (vm : UserVm) : Prop where
  root : ∀ i < 512, memory vm.l1 i =
    table_entry (platform.root_entry i) ((find L2Table.l1_index vm.l2_tables i).map L2Table.table)
  middle : ∀ l2 ∈ vm.l2_tables, ∀ j < 512, memory l2.table j =
    table_entry Descriptor.zero ((find L3Table.place vm.l3_tables (l2.l1_index,j)).map L3Table.table)
  leaves : ∀ l3 ∈ vm.l3_tables, ∀ k < 512, memory l3.table k =
    page_entry (find Mapping.virtual_address vm.mappings (page_at l3.place k))
  kernel : ∀ low ∈ kernel_tables platform, ∀ j, (memory low j).valid = true →
    (memory low j).table_page = false ∧ (memory low j).ap_el0 = false

structure Sound (platform : Platform) (m : Machine) : Prop where
  shape : Shape platform m.vm
  filled : Filled platform m.memory m.vm
  held : ∀ t ∈ tables platform m.vm, Held m.pool t
  addressable : ∀ page, 2 ^ 48 ≤ page → m.pool.device page = true

/-- Every table of the inventory has an entry in use. -/
structure Live (vm : UserVm) : Prop where
  l3 : ∀ t ∈ vm.l3_tables, ∃ x ∈ vm.mappings, place x.virtual_address = t.place
  l2 : ∀ t ∈ vm.l2_tables, ∃ l3 ∈ vm.l3_tables, l3.l1_index = t.l1_index

variable {platform : Platform} {vm : UserVm} {memory : Memory} {m : Machine}

/-! ### Tables are apart -/

theorem mem_tables {t : Nat} : t ∈ tables platform vm ↔
    t ∈ kernel_tables platform ∨ t = vm.l1 ∨ (∃ l2 ∈ vm.l2_tables, l2.table = t) ∨ ∃ l3 ∈ vm.l3_tables, l3.table = t := by
  simp [tables,listed]

section
variable (shape : Shape platform vm)
include shape

theorem Shape.apart :
    (∀ l2 ∈ vm.l2_tables, l2.table ≠ vm.l1) ∧ (∀ l3 ∈ vm.l3_tables, l3.table ≠ vm.l1) ∧
    (∀ l2 ∈ vm.l2_tables, ∀ l3 ∈ vm.l3_tables, l2.table ≠ l3.table) ∧
    (∀ low ∈ kernel_tables platform, low ≠ vm.l1 ∧ (∀ l2 ∈ vm.l2_tables, low ≠ l2.table) ∧
      ∀ l3 ∈ vm.l3_tables, low ≠ l3.table) ∧
    Distinct L2Table.table vm.l2_tables ∧ Distinct L3Table.table vm.l3_tables := by
  have nodup := shape.nodup
  rw [tables,nodup_append,nodup_cons,listed,nodup_append] at nodup
  obtain ⟨_,⟨root,l2_nodup,l3_nodup,levels⟩,kernel⟩ := nodup
  refine ⟨?_,?_,?_,?_,l2_nodup,l3_nodup⟩
  · intro l2 member same
    exact root (mem_append_left _ (same ▸ mem_map_of_mem member))
  · intro l3 member same
    exact root (mem_append_right _ (same ▸ mem_map_of_mem member))
  · intro l2 first l3 second
    exact levels _ (mem_map_of_mem first) _ (mem_map_of_mem second)
  · grind

theorem Shape.l2_valid (member : l2 ∈ vm.l2_tables) : table_address_valid l2.table = true :=
  shape.valid _ (mem_tables.mpr (.inr (.inr (.inl ⟨l2,member,rfl⟩))))
theorem Shape.l3_valid (member : l3 ∈ vm.l3_tables) : table_address_valid l3.table = true :=
  shape.valid _ (mem_tables.mpr (.inr (.inr (.inr ⟨l3,member,rfl⟩))))
theorem Shape.root_valid : table_address_valid vm.l1 = true :=
  shape.valid _ (mem_tables.mpr (.inr (.inl rfl)))

end

theorem Filled.outside {memory' : Memory} (filled : Filled platform memory vm)
    (same : ∀ t ∈ tables platform vm, memory' t = memory t) : Filled platform memory' vm where
  root i low := by
    rw [same _ (mem_tables.mpr (.inr (.inl rfl)))]
    exact filled.root i low
  middle l2 member j low := by
    rw [same _ (mem_tables.mpr (.inr (.inr (.inl ⟨l2,member,rfl⟩))))]
    exact filled.middle l2 member j low
  leaves l3 member k low := by
    rw [same _ (mem_tables.mpr (.inr (.inr (.inr ⟨l3,member,rfl⟩))))]
    exact filled.leaves l3 member k low
  kernel low member j := by
    rw [same _ (mem_tables.mpr (.inl member))]
    exact filled.kernel low member j

/-! ### The walk -/

theorem kernel_entry_valid (platform : Platform) : platform.kernel_entry.valid = true := by
  cases platform <;> rfl

section
variable (shape : Shape platform vm)
include shape

/-- The entry of the kernel gives user mode nothing. -/
theorem walk_kernel (filled : Filled platform memory vm)
    (entry : memory vm.l1 (l1_index va) = platform.kernel_entry) : walk memory vm.l1 va = none := by
  cases platform with
  | qemu_virt => simp [walk,entry,Platform.kernel_entry,leaf]
  | raspberrypi low =>
    have inside : low ∈ kernel_tables (.raspberrypi low) := mem_singleton.mpr rfl
    have masked := table_mask_of_valid (shape.valid low (mem_tables.mpr (.inl inside)))
    have blocks := filled.kernel low inside (l2_index va)
    grind [Platform.kernel_entry,table_descriptor,leaf,walk]

/-- What a mapping gives at an address of its page. -/
def translate (va : Nat) (x : Nat × Flags) : Translation := ⟨x.1 + va % PAGE_SIZE,x.2.write,x.2.exec⟩

/-- An address's mapping, as its frame and flags. -/
def mapped_at (vm : UserVm) (page : Nat) : Option (Nat × Flags) :=
  (find Mapping.virtual_address vm.mappings page).map fun x => (x.physical_address,x.flags)

theorem Shape.no_page (absent : arm64_user_vm_find_l3 vm va = none) :
    find Mapping.virtual_address vm.mappings (page_of va) = none := by
  rw [find_none]
  intro x member same
  obtain ⟨t,listed,at_place⟩ := (shape.recorded x member).table
  rw [same,place_page_of] at at_place
  exact find_none.mp absent t listed at_place

theorem Shape.no_table (absent : arm64_user_vm_find_l2 vm va = none) :
    arm64_user_vm_find_l3 vm va = none := by
  rw [arm64_user_vm_find_l3,find_none]
  intro t member same
  obtain ⟨l2,listed,parent⟩ := (shape.l3_index t member).2
  have first : t.l1_index = l1_index va := congrArg fst same
  exact find_none.mp absent l2 listed (parent.trans first)

theorem walk_mapped (filled : Filled platform memory vm) (low : va < 2 ^ 39) :
    walk memory vm.l1 va = (mapped_at vm (page_of va)).map (translate va) := by
  obtain ⟨first,second,third⟩ := index_lt va
  have root := filled.root (l1_index va) first
  rcases l2_found : arm64_user_vm_find_l2 vm va with _ | l2
  · have absent := shape.no_page (shape.no_table l2_found)
    rw [arm64_user_vm_find_l2] at l2_found
    simp only [l2_found,map_none,table_entry,elim_none,Platform.root_entry] at root
    simp only [mapped_at,absent,map_none]
    by_cases kernel : l1_index va = platform.kernel_index
    · rw [if_pos kernel] at root
      exact walk_kernel shape filled root
    rw [if_neg kernel] at root
    simp [walk,root,zero]
  have l2_key : l2.l1_index = l1_index va := find_key l2_found
  have middle := filled.middle l2 (find_mem l2_found) (l2_index va) second
  have l2_mask := table_mask_of_valid (shape.l2_valid (find_mem l2_found))
  rw [arm64_user_vm_find_l2] at l2_found
  simp only [l2_found,map_some,table_entry,elim_some] at root
  rw [l2_key] at middle
  rcases l3_found : arm64_user_vm_find_l3 vm va with _ | l3
  · have absent := shape.no_page l3_found
    rw [arm64_user_vm_find_l3,place] at l3_found
    simp only [l3_found,map_none,table_entry,elim_none] at middle
    simp [walk,root,table_descriptor,l2_mask,middle,zero,mapped_at,absent]
  have l3_key : l3.place = place va := find_key l3_found
  have leaves := filled.leaves l3 (find_mem l3_found) (l3_index va) third
  have l3_mask := table_mask_of_valid (shape.l3_valid (find_mem l3_found))
  rw [arm64_user_vm_find_l3,place] at l3_found
  simp only [l3_found,map_some,table_entry,elim_some] at middle
  rw [l3_key,← page_of_parts low] at leaves
  rcases page : find Mapping.virtual_address vm.mappings (page_of va) with _ | x
  · rw [page] at leaves
    simp [walk,root,table_descriptor,l2_mask,middle,l3_mask,leaves,page_entry,zero,mapped_at,page]
  have recorded := shape.recorded x (find_mem page)
  have masked := table_mask_of_aligned recorded.frame_aligned recorded.frame_low
  rw [page] at leaves
  simp [walk,root,table_descriptor,l2_mask,middle,l3_mask,leaves,page_entry,user_page_descriptor,masked,leaf,
    mapped_at,page,translate,PAGE_SIZE]
  exact low

end

/-! ### A table added -/

theorem tables_add_l2 (platform : Platform) (vm : UserVm) (t : L2Table) :
    (tables platform { vm with l2_tables := vm.l2_tables ++ [t] }).Perm (t.table :: tables platform vm) := by
  have middle := @perm_middle _ t.table (kernel_tables platform ++ vm.l1 :: vm.l2_tables.map L2Table.table)
    (vm.l3_tables.map L3Table.table)
  simpa [tables,listed] using middle

theorem tables_add_l3 (platform : Platform) (vm : UserVm) (t : L3Table) :
    (tables platform { vm with l3_tables := vm.l3_tables ++ [t] }).Perm (t.table :: tables platform vm) := by
  have last := perm_append_singleton t.table (tables platform vm)
  simpa [tables,listed] using last

/-- A page that is no table yet and can be one. -/
structure Fresh (platform : Platform) (vm : UserVm) (table : Nat) : Prop where
  new : table ∉ tables platform vm
  valid : table_address_valid table = true
  nonzero : table ≠ 0

section
variable (fresh : Fresh platform vm table)
include fresh

theorem Fresh.ne_root : vm.l1 ≠ table :=
  fun same => fresh.new (mem_tables.mpr (.inr (.inl same.symm)))
theorem Fresh.ne_l2 (member : l2 ∈ vm.l2_tables) :
    l2.table ≠ table :=
  fun same => fresh.new (mem_tables.mpr (.inr (.inr (.inl ⟨l2,member,same⟩))))
theorem Fresh.ne_l3 (member : l3 ∈ vm.l3_tables) :
    l3.table ≠ table :=
  fun same => fresh.new (mem_tables.mpr (.inr (.inr (.inr ⟨l3,member,same⟩))))
theorem Fresh.ne_kernel {low : Nat} (member : low ∈ kernel_tables platform) :
    low ≠ table := fun same => fresh.new (mem_tables.mpr (.inl (same ▸ member)))

end

theorem Shape.tables_grown (shape : Shape platform vm) (fresh : Fresh platform vm table) {vm' : UserVm}
    (perm : (tables platform vm').Perm (table :: tables platform vm)) :
    (tables platform vm').Nodup ∧ ∀ t ∈ tables platform vm', table_address_valid t = true := by
  refine ⟨perm.nodup_iff.mpr (nodup_cons.mpr ⟨fresh.new,shape.nodup⟩),fun t member => ?_⟩
  rcases mem_cons.mp (perm.mem_iff.mp member) with rfl | old
  · exact fresh.valid
  · exact shape.valid t old

theorem Shape.add_l2 (shape : Shape platform vm) (absent : find L2Table.l1_index vm.l2_tables i = none)
    (index : i < 512 ∧ i ≠ platform.kernel_index) (fresh : Fresh platform vm table)
    (room : vm.l2_tables.length + 1 ≤ vm.l2_table_capacity) :
    Shape platform { vm with l2_tables := vm.l2_tables ++ [⟨i,table⟩] } := by
  obtain ⟨nodup,valid⟩ := shape.tables_grown fresh (tables_add_l2 platform vm ⟨i,table⟩)
  refine { shape with
    l2_keys := shape.l2_keys.append absent, nodup, valid, nonzero := ?_, l2_index := ?_, l3_index := ?_, room := ?_
    recorded := fun x member => (shape.recorded x member).keep rfl }
  · intro t member
    simp only [listed,map_append,map_cons,map_nil,mem_cons,mem_append,mem_nil_iff,
      or_false] at member
    rcases member with root | (l2 | rfl) | l3
    · exact shape.nonzero t (mem_cons.mpr (.inl root))
    · exact shape.nonzero t (mem_cons_of_mem _ (mem_append_left _ l2))
    · exact fresh.nonzero
    · exact shape.nonzero t (mem_cons_of_mem _ (mem_append_right _ l3))
  · intro t member
    rcases mem_append.mp member with old | new
    · exact shape.l2_index t old
    rw [mem_singleton.mp new]
    exact index
  · grind [l3_index]
  · simpa using ⟨room,shape.room.2⟩

theorem Filled.add_l2 (filled : Filled platform memory vm) (shape : Shape platform vm)
    (absent : find L2Table.l1_index vm.l2_tables i = none) (fresh : Fresh platform vm table) :
    Filled platform (set_entry (clear_table memory table) vm.l1 i (table_descriptor table))
      { vm with l2_tables := vm.l2_tables ++ [⟨i,table⟩] } := by
  obtain ⟨l2_root,l3_root,_,kernel_apart,_,_⟩ := shape.apart
  constructor
  · intro j small
    have found : find L2Table.l1_index (vm.l2_tables ++ [⟨i,table⟩]) j = _ := find_append absent j
    simp only [found,set_entry_apply,clear_table_apply,true_and,if_neg fresh.ne_root]
    by_cases here : j = i
    · simp [here,table_entry]
    · simpa [here] using filled.root j small
  · intro l2 member j small
    rcases mem_append.mp member with old | new
    · simpa [l2_root l2 old,fresh.ne_l2 old] using filled.middle l2 old j small
    have none_below : find L3Table.place vm.l3_tables (i,j) = none := by
      rw [find_none]
      intro t member same
      obtain ⟨parent,listed,key⟩ := (shape.l3_index t member).2
      exact find_none.mp absent parent listed (key.trans (congrArg fst same))
    rw [mem_singleton.mp new]
    simp [fresh.ne_root.symm,none_below,table_entry]
  · intro l3 member k small
    simpa [l3_root l3 member,fresh.ne_l3 member] using filled.leaves l3 member k small
  intro low member j
  simpa [(kernel_apart low member).1,fresh.ne_kernel member] using filled.kernel low member j

theorem Shape.add_l3 (shape : Shape platform vm) {j : Nat} (absent : find L3Table.place vm.l3_tables (i,j) = none)
    (parent : ∃ l2 ∈ vm.l2_tables, l2.l1_index = i) (index : j < 512) (fresh : Fresh platform vm table)
    (room : vm.l3_tables.length + 1 ≤ vm.l3_table_capacity) :
    Shape platform { vm with l3_tables := vm.l3_tables ++ [⟨i,j,table⟩] } := by
  obtain ⟨nodup,valid⟩ := shape.tables_grown fresh (tables_add_l3 platform vm ⟨i,j,table⟩)
  refine { shape with
    l3_keys := shape.l3_keys.append absent, nodup, valid, nonzero := ?_, l3_index := ?_, room := ?_, recorded := ?_ }
  · intro t member
    simp only [listed,map_append,map_cons,map_nil,mem_cons,mem_append,mem_nil_iff,
      or_false] at member
    rcases member with root | l2 | l3 | rfl
    · exact shape.nonzero t (mem_cons.mpr (.inl root))
    · exact shape.nonzero t (mem_cons_of_mem _ (mem_append_left _ l2))
    · exact shape.nonzero t (mem_cons_of_mem _ (mem_append_right _ l3))
    · exact fresh.nonzero
  · intro t member
    rcases mem_append.mp member with old | new
    · exact shape.l3_index t old
    rw [mem_singleton.mp new]
    exact ⟨index,parent⟩
  · simpa using ⟨shape.room.1,room,shape.room.2.2⟩
  intro x member
  obtain ⟨aligned,low,frame_aligned,frame_low,flags,t,listed,same⟩ := shape.recorded x member
  exact ⟨aligned,low,frame_aligned,frame_low,flags,t,mem_append_left _ listed,same⟩

theorem Filled.add_l3 (filled : Filled platform memory vm) (shape : Shape platform vm) {j : Nat}
    (parent : l2 ∈ vm.l2_tables) (absent : find L3Table.place vm.l3_tables (l2.l1_index,j) = none) (index : j < 512)
    (fresh : Fresh platform vm table) :
    Filled platform (set_entry (clear_table memory table) l2.table j (table_descriptor table))
      { vm with l3_tables := vm.l3_tables ++ [⟨l2.l1_index,j,table⟩] } := by
  obtain ⟨l2_root,_,levels,kernel_apart,l2_tables,_⟩ := shape.apart
  constructor
  · intro i small
    simpa [(l2_root l2 parent).symm,fresh.ne_root] using filled.root i small
  · intro other member k small
    have found : find L3Table.place (vm.l3_tables ++ [⟨l2.l1_index,j,table⟩]) (other.l1_index,k) = _ :=
      find_append absent (other.l1_index,k)
    simp only [found,set_entry_apply,clear_table_apply,if_neg (fresh.ne_l2 member)]
    by_cases same : other.table = l2.table
    · have equal := l2_tables.eq_of_key member parent same
      subst equal
      by_cases here : k = j
      · simp [here,L3Table.place,table_entry]
      · simpa [here,L3Table.place] using filled.middle other member k small
    have apart : other.l1_index ≠ l2.l1_index := by
      intro key
      exact same (congrArg L2Table.table (shape.l2_keys.eq_of_key member parent key))
    simpa [same,apart,L3Table.place] using filled.middle other member k small
  · intro l3 member k small
    rcases mem_append.mp member with old | new
    · simpa [(levels l2 parent l3 old).symm,fresh.ne_l3 old] using filled.leaves l3 old k small
    have no_page : find Mapping.virtual_address vm.mappings (page_at (l2.l1_index,j) k) = none := by
      rw [find_none]
      intro x member same
      obtain ⟨t,listed,at_place⟩ := (shape.recorded x member).table
      have small_place : l2.l1_index < 512 := (shape.l2_index l2 parent).1
      rw [same,(place_page_at small_place index small).1] at at_place
      exact find_none.mp absent t listed at_place
    rw [mem_singleton.mp new]
    simp [(fresh.ne_l2 parent).symm,L3Table.place,no_page,page_entry]
  intro low member k
  simpa [(kernel_apart low member).2.1 l2 parent,fresh.ne_kernel member] using filled.kernel low member k

/-! ### A mapping written or taken out -/

variable {mappings : List Mapping}

theorem Shape.edit_pages (shape : Shape platform vm)
    (pages : Distinct Mapping.virtual_address mappings) (room : mappings.length ≤ vm.mapping_capacity)
    (recorded : ∀ x ∈ mappings, Recorded vm x) : Shape platform { vm with mappings := mappings } :=
  { shape with
    pages := pages, room := ⟨shape.room.1,shape.room.2.1,room⟩, recorded := fun x member => (recorded x member).keep rfl }

theorem Shape.place_small (shape : Shape platform vm) (member : l3 ∈ vm.l3_tables) :
    l3.place.1 < 512 ∧ l3.place.2 < 512 := by
  obtain ⟨small,l2,listed,parent⟩ := shape.l3_index l3 member
  have first := (shape.l2_index l2 listed).1
  rw [parent] at first
  exact ⟨first,small⟩

/-- An edit of the mappings at one page, with its entry. -/
theorem Filled.edit_page (filled : Filled platform memory vm) (shape : Shape platform vm)
    (aligned : va % PAGE_SIZE = 0) (low : va < 2 ^ 39) (member : l3 ∈ vm.l3_tables)
    (at_place : l3.place = place va) {new : Option Mapping}
    (edit : ∀ page, find Mapping.virtual_address mappings page =
      if page = va then new else find Mapping.virtual_address vm.mappings page) :
    Filled platform (set_entry memory l3.table (l3_index va) (page_entry new)) { vm with mappings := mappings } := by
  obtain ⟨_,l3_root,levels,kernel_apart,_,l3_tables⟩ := shape.apart
  have whole : page_at l3.place (l3_index va) = va := by
    rw [at_place,← page_of_parts low,page_of_aligned aligned]
  constructor
  · intro i small
    simpa [(l3_root l3 member).symm] using filled.root i small
  · intro l2 parent j small
    simpa [levels l2 parent l3 member] using filled.middle l2 parent j small
  · intro other listed k small
    simp only [edit,set_entry_apply]
    by_cases here : other.table = l3.table ∧ k = l3_index va
    · have equal := l3_tables.eq_of_key listed member here.1
      rw [if_pos here,equal,here.2,whole,if_pos rfl]
    have apart : page_at other.place k ≠ va := by
      intro same
      obtain ⟨first,second⟩ := shape.place_small listed
      obtain ⟨other_place,index⟩ := place_page_at first second small
      rw [same] at other_place index
      have equal := shape.l3_keys.eq_of_key listed member (other_place.symm.trans at_place.symm)
      exact here ⟨congrArg L3Table.table equal,index.symm⟩
    rw [if_neg here,if_neg apart]
    exact filled.leaves other listed k small
  intro kernel inside j
  simpa [(kernel_apart kernel inside).2.2 l3 member] using filled.kernel kernel inside j

/-! ### A table taken out -/

theorem tables_remove_l3 (platform : Platform) (vm : UserVm) {t : L3Table} (perm : (t :: rest).Perm vm.l3_tables) :
    (t.table :: tables platform { vm with l3_tables := rest }).Perm (tables platform vm) := by
  have middle := @perm_middle _ t.table (kernel_tables platform ++ vm.l1 :: vm.l2_tables.map L2Table.table)
    (rest.map L3Table.table)
  have moved := (perm.map L3Table.table).append_left (kernel_tables platform ++ vm.l1 :: vm.l2_tables.map L2Table.table)
  have both := middle.symm.trans moved
  simpa [tables,listed] using both

theorem tables_remove_l2 (platform : Platform) (vm : UserVm) {t : L2Table} {rest : List L2Table}
    (perm : (t :: rest).Perm vm.l2_tables) : (t.table :: tables platform { vm with l2_tables := rest }).Perm
    (tables platform vm) := by
  have middle := @perm_middle _ t.table (kernel_tables platform ++ [vm.l1])
    (rest.map L2Table.table ++ vm.l3_tables.map L3Table.table)
  have moved := ((perm.map L2Table.table).append_right (vm.l3_tables.map L3Table.table)).append_left
    (kernel_tables platform ++ [vm.l1])
  have both := middle.symm.trans moved
  simpa [tables,listed] using both

theorem Shape.tables_shrunk (shape : Shape platform vm) {vm' : UserVm}
    (perm : (table :: tables platform vm').Perm (tables platform vm)) :
    (tables platform vm').Nodup ∧ ∀ t ∈ tables platform vm', table_address_valid t = true :=
  ⟨(nodup_cons.mp (perm.nodup_iff.mpr shape.nodup)).2,fun t member => shape.valid t (perm.subset (mem_cons_of_mem _ member))⟩

theorem Shape.remove_l3 (shape : Shape platform vm) (perm : (l3 :: rest).Perm vm.l3_tables)
    (unused : ∀ x ∈ vm.mappings, place x.virtual_address ≠ l3.place) : Shape platform { vm with l3_tables := rest } := by
  obtain ⟨nodup,valid⟩ := shape.tables_shrunk (tables_remove_l3 platform vm perm)
  refine { shape with
    l3_keys := shape.l3_keys.rest perm, nodup, valid, nonzero := ?_, l3_index := ?_, room := ?_, recorded := ?_ }
  · intro t member
    refine shape.nonzero t ?_
    grind [listed]
  · intro t member
    exact shape.l3_index t (perm.subset (mem_cons_of_mem _ member))
  · have shorter := perm.length_eq
    have room := shape.room
    simp only [length_cons] at shorter
    exact ⟨room.1,by simp only; omega,room.2.2⟩
  intro x member
  obtain ⟨aligned,low,frame_aligned,frame_low,flags,t,listed,same⟩ := shape.recorded x member
  rcases mem_cons.mp (perm.mem_iff.mpr listed) with rfl | kept
  · exact absurd same.symm (unused x member)
  · exact ⟨aligned,low,frame_aligned,frame_low,flags,t,kept,same⟩

theorem Filled.remove_l3 (filled : Filled platform memory vm) (shape : Shape platform vm)
    (perm : (l3 :: rest).Perm vm.l3_tables) (parent : l2 ∈ vm.l2_tables) (key : l2.l1_index = l3.l1_index) :
    Filled platform (set_entry memory l2.table l3.l2_index zero) { vm with l3_tables := rest } := by
  obtain ⟨l2_root,_,levels,kernel_apart,l2_tables,_⟩ := shape.apart
  constructor
  · intro i small
    simpa [(l2_root l2 parent).symm] using filled.root i small
  · intro other member j small
    have found := shape.l3_keys.find_rest perm (other.l1_index,j)
    simp only [found,set_entry_apply,L3Table.place,mk.injEq]
    by_cases here : other.table = l2.table ∧ j = l3.l2_index
    · have equal := l2_tables.eq_of_key member parent here.1
      rw [if_pos here,if_pos ⟨equal ▸ key,here.2⟩]
      rfl
    have apart : ¬ (other.l1_index = l3.l1_index ∧ j = l3.l2_index) := by
      rintro ⟨same,index⟩
      exact here ⟨congrArg L2Table.table (shape.l2_keys.eq_of_key member parent (same.trans key.symm)),index⟩
    rw [if_neg here,if_neg apart]
    exact filled.middle other member j small
  · intro other member k small
    have listed := perm.subset (mem_cons_of_mem _ member)
    simpa [(levels l2 parent other listed).symm] using filled.leaves other listed k small
  intro low member j
  simpa [(kernel_apart low member).2.1 l2 parent] using filled.kernel low member j

theorem Shape.remove_l2 (shape : Shape platform vm) {rest : List L2Table} (perm : (l2 :: rest).Perm vm.l2_tables)
    (unused : ∀ l3 ∈ vm.l3_tables, l3.l1_index ≠ l2.l1_index) : Shape platform { vm with l2_tables := rest } := by
  obtain ⟨nodup,valid⟩ := shape.tables_shrunk (tables_remove_l2 platform vm perm)
  refine { shape with
    l2_keys := shape.l2_keys.rest perm, nodup, valid, nonzero := ?_, l2_index := ?_, l3_index := ?_, room := ?_
    recorded := fun x member => (shape.recorded x member).keep rfl }
  · intro t member
    refine shape.nonzero t ?_
    grind [listed]
  · intro t member
    exact shape.l2_index t (perm.subset (mem_cons_of_mem _ member))
  · intro t member
    obtain ⟨small,parent,listed,same⟩ := shape.l3_index t member
    grind
  have shorter := perm.length_eq
  have room := shape.room
  simp only [length_cons] at shorter
  exact ⟨by simp only; omega,room.2⟩

theorem Filled.remove_l2 (filled : Filled platform memory vm) (shape : Shape platform vm) {rest : List L2Table}
    (perm : (l2 :: rest).Perm vm.l2_tables) :
    Filled platform (set_entry memory vm.l1 l2.l1_index zero) { vm with l2_tables := rest } := by
  obtain ⟨l2_root,l3_root,_,kernel_apart,_,_⟩ := shape.apart
  have member : l2 ∈ vm.l2_tables := perm.subset mem_cons_self
  constructor
  · intro i small
    have found := shape.l2_keys.find_rest perm i
    simp only [found,set_entry_apply,true_and]
    by_cases here : i = l2.l1_index
    · have other := (shape.l2_index l2 member).2
      rw [← here] at other
      simp [here.symm,table_entry,Platform.root_entry,other]
    rw [if_neg here,if_neg here]
    exact filled.root i small
  · intro other inside j small
    have listed := perm.subset (mem_cons_of_mem _ inside)
    simpa [l2_root other listed] using filled.middle other listed j small
  · intro l3 listed k small
    simpa [l3_root l3 listed] using filled.leaves l3 listed k small
  intro low inside j
  simpa [(kernel_apart low inside).1] using filled.kernel low inside j

end ArmOS.Translation

